/-
Module: Waspp.Proofs.ContentFaults
Layer: Proofs
Purpose: Which requests the calls between the parser and the handler can fail on.  Every position that the
  cookie loop and the form loop compute is in range and grows, so they always return; `parse_params` fails
  on an empty uri only, and `parse_content` on a multipart body with a part that has no end of its header
  only.
Imports: Waspp.Proofs.Cookies
Trusted boundary: none (fully proved)
Main exports: parseParams_ok_iff, parseCookies_ok, parseFormFrom_returns, Part, PartsHaveHeads,
  parseContent_returns_iff
Open obligations: none
-/
import Waspp.Proofs.Cookies

namespace Waspp

open CString

/-! ### The path

The first of the calls that can fault.  `split` gives no item only for the empty text, and then `erase` is
undefined. -/

/-- Only the empty text is decoded to nothing. -/
theorem percentDecode_eq_nil_iff {s : Bytes} : percentDecode s = [] ↔ s = [] := by
  constructor
  · intro empty
    cases s with
    | nil => rfl
    | cons c rest =>
        unfold percentDecode at empty
        split at empty
        · simp at empty
        · split at empty
          · split at empty
            · split at empty <;> simp at empty
            · simp at empty
            · simp at empty
          · simp at empty
  · intro empty
    subst empty
    rfl

/-- Only the empty text is split into nothing. -/
theorem splitFrom_eq_nil_iff {c : UInt8} {item s : Bytes} :
    splitFrom c item s = [] ↔ item = [] ∧ s = [] := by
  induction s generalizing item with
  | nil => by_cases empty : item = [] <;> simp [splitFrom, empty]
  | cons b rest ih =>
      unfold splitFrom
      split <;> simp [ih]

/-- The pieces of a text with a separator in it. -/
theorem splitFrom_append {c : UInt8} {piece : Bytes} (absent : c ∉ piece) (item rest : Bytes) :
    splitFrom c item (piece ++ c :: rest) = (item ++ piece) :: splitFrom c [] rest := by
  induction piece generalizing item with
  | nil => simp [splitFrom]
  | cons b piece ih =>
      have other : (b == c) = false := by
        rw [beq_eq_false_iff_ne]
        rintro rfl
        exact absent (by simp)
      rw [List.cons_append, splitFrom, if_neg (by simp [other]),
        ih (fun member => absent (by simp [member])), List.append_assoc, List.singleton_append]

/-- A text without the separator is one piece. -/
theorem splitFrom_single {c : UInt8} {piece : Bytes} (absent : c ∉ piece) {item : Bytes}
    (nonempty : item ++ piece ≠ []) : splitFrom c item piece = [item ++ piece] := by
  induction piece generalizing item with
  | nil =>
      have some_ : item.isEmpty = false := by simpa using nonempty
      simp [splitFrom, some_]
  | cons b piece ih =>
      have other : (b == c) = false := by
        rw [beq_eq_false_iff_ne]
        rintro rfl
        exact absent (by simp)
      rw [splitFrom, if_neg (by simp [other]), ih (fun member => absent (by simp [member])) (by simp),
        List.append_assoc, List.singleton_append]

/-- `parse_params` needs something to erase. -/
theorem parseParams_ok_iff {req : Request} (fresh : req.restParams = []) :
    Returns (parseParams req) ↔ req.uri ≠ [] := by
  unfold parseParams split
  rw [fresh, List.nil_append]
  have empty : splitFrom '/'.toUInt8 [] (percentDecode req.uri) = [] ↔ req.uri = [] := by
    rw [splitFrom_eq_nil_iff, percentDecode_eq_nil_iff]
    simp
  cases items : splitFrom '/'.toUInt8 [] (percentDecode req.uri) with
  | nil => simp [empty.mp items]
  | cons first rest =>
      have nonempty : req.uri ≠ [] := by
        intro none
        rw [empty.mpr none] at items
        cases items
      simp [nonempty]

/-! ### Cookies -/

/-- `parse_cookies` returns on every request. -/
theorem parseCookies_ok (req : Request) :
    ∃ req', parseCookies req = .ok req' ∧ req'.content = req.content ∧
      req'.headers = NameValue.ensure req.headers (bytes "Cookie") :=
  ⟨_, parseCookies_eq req, rfl, rfl⟩

/-! ### Urlencoded bodies -/

@[simp] theorem pushParam_content (req : Request) (name value : Bytes) :
    (pushParam req name value).content = req.content := rfl

/-- The form loop returns from every position inside the body. -/
theorem parseFormFrom_returns {rounds oldPos : Nat} {req : Request} (inside : oldPos ≤ req.content.length)
    (enough : req.content.length < rounds + oldPos) : Returns (parseFormFrom rounds oldPos req) := by
  induction rounds generalizing oldPos req with
  | zero => omega
  | succ rounds ih =>
      unfold parseFormFrom
      cases found : findIf req.content (fun b => b == '&'.toUInt8 || b == '='.toUInt8) oldPos with
      | none => simp
      | some pos =>
          obtain ⟨le, ⟨b, elem, -⟩, -⟩ := findIf_eq_some_iff.mp found
          have bound : pos < req.content.length := (List.getElem?_eq_some_iff.mp elem).1
          simp only [elem]
          split
          · split
            · exact ih (by omega) (by omega)
            · rename_i before
              simp only [substrOrThrow_of_le (Nat.le_of_lt (Nat.lt_trans (Nat.lt_of_not_le before) bound))]
              exact ih (by simp; omega) (by simp; omega)
          · simp only [substrOrThrow_of_le inside,
              substrOrThrow_of_le (show pos + 1 ≤ req.content.length by omega)]
            cases next : findIf req.content (fun b => b == ';'.toUInt8 || b == '&'.toUInt8) (pos + 1) with
            | none => exact ⟨_, rfl⟩
            | some pos' =>
                obtain ⟨le', ⟨b', elem', -⟩, -⟩ := findIf_eq_some_iff.mp next
                have bound' : pos' < req.content.length := (List.getElem?_eq_some_iff.mp elem').1
                exact ih (by simp; omega) (by simp; omega)

/-! ### Multipart bodies

A part without the empty line behind its head makes `parse_multipart_content` throw.  So the body is
decoded exactly when every part has its head, whatever else is in it. -/

/-- The exception for a part without the end of a header. -/
def invalidPartHeader : Fault := .thrown (.runtimeError (bytes "invalid part header"))

/-- A part with a head is decoded, and the content is left as it is. -/
theorem parseMultipartContent_ok (req : Request) {data : Bytes} (head : headEnd <:+: data) :
    ∃ req', parseMultipartContent req data = .ok req' ∧ req'.content = req.content := by
  unfold parseMultipartContent
  rcases Option.isSome_iff_exists.mp (find_isSome_iff.mpr head) with ⟨headLimit, found⟩
  have bounds := (find_bounds found).2
  simp only [found, substrOrThrow_of_le bounds, substrOrThrow_of_le (Nat.zero_le data.length)]
  simp only [bind, Except.bind]
  split
  · exact ⟨_, rfl, rfl⟩
  · exact ⟨_, rfl, rfl⟩

/-- A part without one is refused. -/
theorem parseMultipartContent_error (req : Request) {data : Bytes} (head : ¬ headEnd <:+: data) :
    parseMultipartContent req data = .error invalidPartHeader := by
  unfold parseMultipartContent
  cases found : find data headEnd 0 with
  | none => rfl
  | some headLimit => exact absurd (find_isSome_iff.mp (by rw [found]; rfl)) head

/-- The text that the multipart loop cuts out of a body from `start` to `limit`. -/
def pieceBetween (content : Bytes) (start limit : Nat) : Bytes :=
  takeCount (sizeSub limit start) (content.drop start)

/-- What the loop does with the piece before a separator that it has found. -/
theorem parsePiece_eq {req : Request} {sep : Bytes} {oldPos pos : Nat}
    (found : find req.content sep oldPos = some pos) :
    (substrOrThrow req.content oldPos (sizeSub pos oldPos) >>= parseMultipartContent req) =
      parseMultipartContent req (pieceBetween req.content oldPos pos) := by
  have bounds := find_bounds found
  rw [substrOrThrow_of_le (by omega)]
  rfl

/-- The pieces of a body that the multipart loop takes for parts, from a position on: what lies before each
    opening separator, and before the closing one. -/
inductive Part (content sep1 sep2 : Bytes) : Nat → Bytes → Prop where
  | here {start limit : Nat} (found : find content sep1 start = some limit) :
      Part content sep1 sep2 start (pieceBetween content start limit)
  | later {start limit : Nat} {piece : Bytes} (found : find content sep1 start = some limit)
      (part : Part content sep1 sep2 (limit + sep1.length) piece) : Part content sep1 sep2 start piece
  | last {start limit : Nat} (ended : find content sep1 start = none)
      (found : find content sep2 start = some limit) :
      Part content sep1 sep2 start (pieceBetween content start limit)

/-- Behind an opening separator come the piece before it and the pieces from there on. -/
theorem part_iff_of_open {content sep1 sep2 piece : Bytes} {start limit : Nat}
    (open_ : find content sep1 start = some limit) :
    Part content sep1 sep2 start piece ↔
      piece = pieceBetween content start limit ∨ Part content sep1 sep2 (limit + sep1.length) piece := by
  constructor
  · intro part
    cases part with
    | here found =>
        rw [open_] at found
        cases found
        exact Or.inl rfl
    | later found part =>
        rw [open_] at found
        cases found
        exact Or.inr part
    | last ended found =>
        rw [open_] at ended
        cases ended
  · intro either
    rcases either with rfl | part
    · exact .here open_
    · exact .later open_ part

/-- Without one, there is at most the piece before the closing separator. -/
theorem part_iff_of_ended {content sep1 sep2 piece : Bytes} {start : Nat}
    (ended : find content sep1 start = none) :
    Part content sep1 sep2 start piece ↔
      ∃ limit, find content sep2 start = some limit ∧ piece = pieceBetween content start limit := by
  constructor
  · intro part
    cases part with
    | here found =>
        rw [ended] at found
        cases found
    | later found part =>
        rw [ended] at found
        cases found
    | last _ found => exact ⟨_, found, rfl⟩
  · intro last
    obtain ⟨limit, found, rfl⟩ := last
    exact .last ended found

/-- A piece is read exactly when it has the end of a header. -/
theorem parseMultipartContent_returns_iff (req : Request) (data : Bytes) :
    Returns (parseMultipartContent req data) ↔ headEnd <:+: data := by
  constructor
  · intro returns
    by_contra head
    rw [parseMultipartContent_error req head] at returns
    exact not_returns_error _ returns
  · intro head
    obtain ⟨req', parsed, -⟩ := parseMultipartContent_ok req head
    exact ⟨req', parsed⟩

/-- The multipart loop returns exactly when each part has the end of a header. -/
theorem parsePartsFrom_returns_iff {sep1 sep2 : Bytes} (nonempty : sep1 ≠ []) {rounds oldPos : Nat}
    {req : Request} (some_ : 0 < rounds) (enough : req.content.length < rounds + oldPos) :
    Returns (parsePartsFrom sep1 sep2 rounds oldPos req) ↔
      ∀ piece, Part req.content sep1 sep2 oldPos piece → headEnd <:+: piece := by
  have width : 0 < sep1.length := List.length_pos_iff.mpr nonempty
  induction rounds generalizing oldPos req with
  | zero => omega
  | succ rounds ih =>
      unfold parsePartsFrom
      cases open_ : find req.content sep1 oldPos with
      | some pos =>
          have bounds := find_bounds open_
          have assoc : (do
                let part ← substrOrThrow req.content oldPos (sizeSub pos oldPos)
                let req ← parseMultipartContent req part
                parsePartsFrom sep1 sep2 rounds (pos + sep1.length) req) =
              parseMultipartContent req (pieceBetween req.content oldPos pos) >>=
                parsePartsFrom sep1 sep2 rounds (pos + sep1.length) := by
            rw [← parsePiece_eq open_, bind_assoc]
          simp only [assoc, part_iff_of_open open_, forall_eq_or_imp]
          by_cases head : headEnd <:+: pieceBetween req.content oldPos pos
          · obtain ⟨req', parsed, content⟩ := parseMultipartContent_ok req head
            have rest := @ih (pos + sep1.length) req' (by rw [content] at *; omega) (by rw [content]; omega)
            rw [content] at rest
            rw [parsed, and_iff_right head]
            exact rest
          · rw [parseMultipartContent_error req head]
            constructor
            · intro returns
              exact absurd returns (not_returns_error _)
            · intro heads
              exact absurd heads.1 head
      | none =>
          simp only [part_iff_of_ended open_]
          cases close : find req.content sep2 oldPos with
          | none => simp
          | some pos =>
              have piece := parsePiece_eq close
              simp only [piece, parseMultipartContent_returns_iff]
              constructor
              · intro head other last
                obtain ⟨limit, same, rfl⟩ := last
                cases same
                exact head
              · intro heads
                exact heads _ ⟨pos, rfl, rfl⟩

/-- Where the boundary text starts. -/
def boundaryStart (contentType : Bytes) : Nat :=
  match find contentType (bytes "boundary=") 0 with
  | some pos => pos + (bytes "boundary=").length
  | none => (bytes "boundary=").length - 1

/-- The boundary text of a content type that has room for one. -/
def boundaryText (contentType : Bytes) : Bytes :=
  let sep := contentType.drop (boundaryStart contentType)
  match find sep (bytes ";") 0 with
  | some pos => sep.take pos
  | none => sep

/-- A content type of eight bytes has a boundary text, be it without `boundary=`. -/
theorem boundary_eq_boundaryText {contentType : Bytes} (room : 8 ≤ contentType.length) :
    boundary contentType = .ok (boundaryText contentType) := by
  have inside : boundaryStart contentType ≤ contentType.length := by
    unfold boundaryStart
    cases found : find contentType (bytes "boundary=") 0 with
    | none => exact Nat.le_trans (by decide) room
    | some pos => exact (find_bounds found).2
  have cut : boundary contentType =
      (substrOrThrow contentType (boundaryStart contentType) none >>= fun sep =>
        match find sep (bytes ";") 0 with
        | some pos => substrOrThrow sep 0 (some pos)
        | none => .ok sep) := rfl
  rw [cut, substrOrThrow_of_le inside]
  simp only [boundaryText, takeCount_none, bind, Except.bind]
  cases find (contentType.drop (boundaryStart contentType)) (bytes ";") 0 with
  | none => rfl
  | some pos => exact substrOrThrow_of_le (Nat.zero_le _) (some pos)

/-- The position behind the first opening separator, or one byte short of its length where there is none. -/
def partsStart (content sep1 : Bytes) : Nat :=
  match find content sep1 0 with
  | some start => start + sep1.length
  | none => sep1.length - 1

/-- Every piece of the body that is read as a part has the end of a header. -/
def PartsHaveHeads (contentType content : Bytes) : Prop :=
  let sep1 := bytes "--" ++ boundaryText contentType ++ bytes "\r\n"
  let sep2 := bytes "--" ++ boundaryText contentType ++ bytes "--\r\n"
  ∀ piece, Part content sep1 sep2 (partsStart content sep1) piece → headEnd <:+: piece

/-- The whole body is decoded exactly when all of its parts have heads. -/
theorem parseMultipart_returns_iff {contentType : Bytes} (room : 8 ≤ contentType.length) (req : Request) :
    Returns (parseMultipart contentType req) ↔ PartsHaveHeads contentType req.content := by
  have nonempty : bytes "--" ++ boundaryText contentType ++ bytes "\r\n" ≠ [] := by simp [bytes]
  unfold parseMultipart
  rw [boundary_eq_boundaryText room]
  exact parsePartsFrom_returns_iff nonempty (Nat.succ_pos _) (by omega)

/-! ### The body -/

/-- The content type is one that `parse_content` reads as a multipart form. -/
def ReadAsMultipart (contentType : Bytes) : Prop :=
  ¬ (contentType.isEmpty || stringsAreEqual contentType standardType standardType.length) = true ∧
    stringsAreEqual multipartType contentType multipartType.length = true

/-- The body can be read: either it is no multipart form, or each of its parts has the end of a header. -/
def BodyReadable (req : Request) : Prop :=
  req.content = [] ∨
    (ReadAsMultipart (NameValue.valueOf req.headers (bytes "Content-Type")) →
      PartsHaveHeads (NameValue.valueOf req.headers (bytes "Content-Type")) req.content)

/-- Comparing two texts position by position compares the images of the texts. -/
theorem zip_all_iff {α β : Type} [BEq β] [LawfulBEq β] (f : α → β) {l l' : List α}
    (same : l.length = l'.length) :
    ((l.zip l').all fun p => f p.1 == f p.2) = true ↔ l.map f = l'.map f := by
  induction l generalizing l' with
  | nil => simp [List.length_eq_zero_iff.mp same.symm]
  | cons a l ih =>
      cases l' with
      | nil => simp at same
      | cons b l' => simp [ih (Nat.succ.inj same)]

/-- `strings_are_equal` compares the first `n` bytes of two texts that have as many. -/
theorem stringsAreEqual_iff {s1 s2 : Bytes} {n : Nat} :
    stringsAreEqual s1 s2 n = true ↔
      n ≤ s1.length ∧ n ≤ s2.length ∧ (s1.take n).map toupper = (s2.take n).map toupper := by
  unfold stringsAreEqual
  by_cases good : n ≤ s1.length ∧ n ≤ s2.length
  · have lengths : (s1.take n).length = (s2.take n).length := by
      rw [List.length_take, List.length_take, Nat.min_eq_left good.1, Nat.min_eq_left good.2]
    simp only [good, and_self, decide_true, if_true, Bool.and_true, true_and]
    exact zip_all_iff toupper lengths
  · simp only [good, decide_false, Bool.and_false, Bool.false_eq_true, false_iff]
    exact fun parts => good ⟨parts.1, parts.2.1⟩

/-- A content type is read as a multipart form when it begins with the multipart type, in some letter case.
    -/
theorem readAsMultipart_iff {contentType : Bytes} :
    ReadAsMultipart contentType ↔
      (contentType.take multipartType.length).map toupper = multipartType.map toupper := by
  unfold ReadAsMultipart
  rw [stringsAreEqual_iff, List.take_length]
  constructor
  · intro multipart
    exact multipart.2.2.2.symm
  · intro begins
    have long : multipartType.length ≤ contentType.length := by
      have lengths := congrArg List.length begins
      simp only [List.length_map, List.length_take] at lengths
      omega
    refine ⟨?_, Nat.le_refl _, long, begins.symm⟩
    intro either
    rcases Bool.or_eq_true_iff.mp either with empty | standard
    · rw [List.isEmpty_iff.mp empty] at begins
      exact absurd begins (by decide)
    · -- the first letters differ
      have begins' := (stringsAreEqual_iff.mp standard).2.2
      have first := congrArg List.head? begins
      have first' := congrArg List.head? begins'
      rw [List.take_length] at first'
      cases contentType with
      | nil => exact absurd begins (by decide)
      | cons c rest =>
          have letter : some (toupper c) = some (toupper 'm'.toUInt8) := first
          have letter' : some (toupper c) = some (toupper 'a'.toUInt8) := first'
          exact absurd (letter.symm.trans letter') (by decide)

/-- `parse_content` fails exactly on a multipart body with a part that has no end of its header. -/
theorem parseContent_returns_iff (req : Request) : Returns (parseContent req) ↔ BodyReadable req := by
  unfold parseContent BodyReadable ReadAsMultipart
  by_cases empty : req.content = []
  · simp [empty]
  · rcases shown : req.header (bytes "Content-Type") with ⟨contentType, req'⟩
    have left : (req.header (bytes "Content-Type")).2 = req' := congrArg Prod.snd shown
    have content : req'.content = req.content := by
      rw [← left]
      rfl
    have value : NameValue.valueOf req.headers (bytes "Content-Type") = contentType :=
      congrArg Prod.fst shown
    rw [← content] at empty
    simp only [List.isEmpty_iff, value, ← content, empty, if_false, false_or]
    split
    · rename_i urlencoded
      simp only [urlencoded]
      have returns : Returns (parseFormFrom (req'.content.length + 1) 0 req') :=
        parseFormFrom_returns (Nat.zero_le _) (Nat.lt_succ_self _)
      simp [returns]
    · rename_i other
      split
      · rename_i multipart
        have room : 8 ≤ contentType.length := Nat.le_trans (by decide) (stringsAreEqual_iff.mp multipart).2.1
        rw [parseMultipart_returns_iff room]
        simp [other, multipart]
      · rename_i neither
        simp [neither]

end Waspp
