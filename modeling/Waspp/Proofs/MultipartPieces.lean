/-
Module: Waspp.Proofs.MultipartPieces
Layer: Proofs
Purpose: Where the entries of a multipart form come from.  A piece of the body is delimited when it stands
  directly behind an opening delimiter of the boundary parameter.  Both searches of `parse_content` may
  fail, and their positions then wrap: without `boundary=` the boundary is cut out of the media type, and
  without an opening delimiter the reading starts one byte short of its length.  `onlyDelimited_iff` says
  for which requests that does no harm, be it that the call returns or that it throws in the middle.
Imports: Waspp.Proofs.MultipartBodies
Trusted boundary: none (fully proved)
Main exports: contentLeft_eq, MultipartType, BoundaryParam, OnlyDelimited, NothingRead, onlyDelimited_iff
Open obligations: none
-/
import Waspp.Proofs.MultipartBodies

namespace Waspp

open CString

/-! ### The call by reference -/

/-- The loop returns the request that it leaves behind. -/
theorem partsLeft_eq (sep1 sep2 : Bytes) (rounds oldPos : Nat) (req : Request) :
    parsePartsFrom sep1 sep2 rounds oldPos req =
      (partsLeft sep1 sep2 rounds oldPos req).1.map fun _ => (partsLeft sep1 sep2 rounds oldPos req).2 := by
  induction rounds generalizing oldPos req with
  | zero => rfl
  | succ rounds ih =>
      unfold parsePartsFrom partsLeft
      cases find req.content sep1 oldPos with
      | some pos =>
          simp only
          cases text : substrOrThrow req.content oldPos (sizeSub pos oldPos) with
          | error fault => rfl
          | ok part =>
              simp only [bind, Except.bind]
              cases parseMultipartContent req part with
              | error fault => rfl
              | ok req' => exact ih _ req'
      | none =>
          simp only
          cases find req.content sep2 oldPos with
          | none => rfl
          | some pos =>
              simp only
              cases text : substrOrThrow req.content oldPos (sizeSub pos oldPos) with
              | error fault => rfl
              | ok part =>
                  simp only [bind, Except.bind]
                  cases parseMultipartContent req part with
                  | error fault => rfl
                  | ok req' => rfl

/-- `parse_content` returns the request that it leaves behind. -/
theorem contentLeft_eq (req : Request) :
    parseContent req = (contentLeft req).1.map fun _ => (contentLeft req).2 := by
  unfold parseContent contentLeft
  split
  · rfl
  · rcases req.header (bytes "Content-Type") with ⟨contentType, req'⟩
    simp only
    split
    · cases parseFormFrom (req'.content.length + 1) 0 req' with
      | ok _ => rfl
      | error _ => rfl
    · split
      · unfold parseMultipart multipartLeft
        cases boundary contentType with
        | error fault => rfl
        | ok b => exact partsLeft_eq _ _ _ _ _
      · rfl

/-! ### One piece -/

/-- How many entries a request has. -/
def entryCount (req : Request) : Nat := req.params.length + req.uploads.length

/-- A piece that is read adds one entry. -/
theorem entryCount_of_parse {req req' : Request} {data : Bytes}
    (parsed : parseMultipartContent req data = .ok req') :
    entryCount req' = entryCount req + 1 ∧ req'.content = req.content := by
  unfold parseMultipartContent at parsed
  cases limit : find data headEnd 0 with
  | none =>
      simp only [limit] at parsed
      cases parsed
  | some headLimit =>
      have bounds := (find_bounds limit).2
      simp only [limit, substrOrThrow_of_le bounds, substrOrThrow_of_le (Nat.zero_le data.length), bind,
        Except.bind]
        at parsed
      split at parsed
      · cases parsed
        simp [entryCount, pushParam]
        omega
      · cases parsed
        simp [entryCount]
        omega

/-- The piece that the loop reads first, from a position on. -/
def firstPiece (content sep1 sep2 : Bytes) (start : Nat) : Option Bytes :=
  match find content sep1 start with
  | some limit => some (pieceBetween content start limit)
  | none => (find content sep2 start).map (pieceBetween content start)

/-- What one round of the loop does: nothing, when there is no piece or the piece has no end of its header;
    else it adds the entry of the first piece, and goes on behind an opening separator. -/
theorem partsLeft_succ (sep1 sep2 : Bytes) (rounds oldPos : Nat) (req : Request) :
    ((partsLeft sep1 sep2 (rounds + 1) oldPos req).2 = req ∧
        ∀ piece ∈ firstPiece req.content sep1 sep2 oldPos, ¬ headEnd <:+: piece) ∨
      ∃ piece req', firstPiece req.content sep1 sep2 oldPos = some piece ∧
        parseMultipartContent req piece = .ok req' ∧
        ((partsLeft sep1 sep2 (rounds + 1) oldPos req).2 = req' ∨
          ∃ limit, find req.content sep1 oldPos = some limit ∧
            (partsLeft sep1 sep2 (rounds + 1) oldPos req).2 =
              (partsLeft sep1 sep2 rounds (limit + sep1.length) req').2) := by
  cases open_ : find req.content sep1 oldPos with
  | some pos =>
      simp only [firstPiece, partsLeft, open_, parsePiece_eq open_]
      by_cases head : headEnd <:+: pieceBetween req.content oldPos pos
      · obtain ⟨req', parsed, -⟩ := parseMultipartContent_ok req head
        simp only [parsed]
        exact Or.inr ⟨_, req', rfl, parsed, Or.inr ⟨pos, rfl, rfl⟩⟩
      · simp only [parseMultipartContent_error req head]
        exact Or.inl ⟨trivial, fun piece same => (Option.mem_some.mp same) ▸ head⟩
  | none =>
      cases close : find req.content sep2 oldPos with
      | none =>
          simp only [firstPiece, partsLeft, open_, close]
          exact Or.inl ⟨trivial, fun piece same => by cases same⟩
      | some pos =>
          simp only [firstPiece, partsLeft, open_, close, parsePiece_eq close, Option.map_some]
          by_cases head : headEnd <:+: pieceBetween req.content oldPos pos
          · obtain ⟨req', parsed, -⟩ := parseMultipartContent_ok req head
            simp only [parsed]
            exact Or.inr ⟨_, req', rfl, parsed, Or.inl rfl⟩
          · simp only [parseMultipartContent_error req head]
            exact Or.inl ⟨trivial, fun piece same => (Option.mem_some.mp same) ▸ head⟩

/-- The loop removes no entry. -/
theorem entryCount_partsLeft (sep1 sep2 : Bytes) (rounds oldPos : Nat) (req : Request) :
    entryCount req ≤ entryCount (partsLeft sep1 sep2 rounds oldPos req).2 := by
  induction rounds generalizing oldPos req with
  | zero => exact Nat.le_refl _
  | succ rounds ih =>
      rcases partsLeft_succ sep1 sep2 rounds oldPos req with ⟨same, -⟩ | ⟨piece, req', -, parsed, left⟩
      · rw [same]
      · have grown := (entryCount_of_parse parsed).1
        rcases left with last | ⟨limit, -, more⟩
        · rw [last]
          omega
        · have rest := ih (limit + sep1.length) req'
          rw [more]
          omega

/-- It leaves the request as it was only when the first piece is not read. -/
theorem nothing_read_of_partsLeft {sep1 sep2 : Bytes} {rounds oldPos : Nat} {req : Request}
    (same : (partsLeft sep1 sep2 (rounds + 1) oldPos req).2 = req) :
    ∀ piece ∈ firstPiece req.content sep1 sep2 oldPos, ¬ headEnd <:+: piece := by
  rcases partsLeft_succ sep1 sep2 rounds oldPos req with ⟨-, clean⟩ | ⟨piece, req', -, parsed, left⟩
  · exact clean
  · have grown := (entryCount_of_parse parsed).1
    rcases left with last | ⟨limit, -, more⟩
    · rw [← last, same] at grown
      omega
    · have rest := entryCount_partsLeft sep1 sep2 rounds (limit + sep1.length) req'
      rw [← more, same] at rest
      omega

/-- A piece that starts behind a separator stands behind it in the body. -/
theorem separator_piece_isInfix {content sep : Bytes} {start limit : Nat}
    (behind : sep <:+ content.take start)
    (inside : start ≤ limit) : sep ++ pieceBetween content start limit <:+: content := by
  obtain ⟨before, cut⟩ := behind
  have piece : pieceBetween content start limit = (content.drop start).take (limit - start) := by
    rw [pieceBetween, sizeSub, if_pos inside, takeCount_some]
  refine ⟨before, (content.drop start).drop (limit - start), ?_⟩
  calc before ++ (sep ++ pieceBetween content start limit) ++ (content.drop start).drop (limit - start)
      = (before ++ sep) ++ ((content.drop start).take (limit - start) ++
        (content.drop start).drop (limit - start)) := by
        rw [piece]
        simp only [List.append_assoc]
    _ = content := by rw [cut, List.take_append_drop, List.take_append_drop]

/-- Behind an occurrence that a search reports. -/
theorem suffix_take_of_find {content sep : Bytes} {start limit : Nat}
    (found : find content sep start = some limit) :
    sep <:+ content.take (limit + sep.length) := by
  obtain ⟨-, -, occurs, -⟩ := find_eq_some_iff.mp found
  rw [List.take_add, ← List.prefix_iff_eq_take.mp occurs]
  exact List.suffix_append _ _

/-- From a position behind an opening separator on, each piece that is read stands behind one. -/
theorem partsLeft_delimited {sep1 sep2 : Bytes} {rounds oldPos : Nat} {req : Request}
    (behind : sep1 <:+ req.content.take oldPos) :
    ∃ pieces : List Bytes,
      pieces.foldlM parseMultipartContent req = .ok (partsLeft sep1 sep2 rounds oldPos req).2 ∧
        ∀ piece ∈ pieces, sep1 ++ piece <:+: req.content := by
  induction rounds generalizing oldPos req with
  | zero => exact ⟨[], rfl, by simp⟩
  | succ rounds ih =>
      rcases partsLeft_succ sep1 sep2 rounds oldPos req with ⟨same, -⟩ | ⟨piece, req', first, parsed, left⟩
      · exact ⟨[], by rw [same]; rfl, by simp⟩
      · have here : sep1 ++ piece <:+: req.content := by
          unfold firstPiece at first
          split at first
          · rename_i limit found
            cases first
            exact separator_piece_isInfix behind (find_bounds found).1
          · obtain ⟨limit, found, rfl⟩ := Option.map_eq_some_iff.mp first
            exact separator_piece_isInfix behind (find_bounds found).1
        rcases left with last | ⟨limit, found, more⟩
        · refine ⟨[piece], ?_, by simpa using here⟩
          rw [last, List.foldlM_cons, parsed]
          rfl
        · have content := (entryCount_of_parse parsed).2
          have behind' : sep1 <:+ req'.content.take (limit + sep1.length) :=
            content ▸ suffix_take_of_find found
          obtain ⟨pieces, folded, delimited⟩ := ih behind'
          refine ⟨piece :: pieces, ?_, ?_⟩
          · rw [more, List.foldlM_cons, parsed]
            exact folded
          · intro p member
            rcases List.mem_cons.mp member with rfl | later
            · exact here
            · exact content ▸ delimited p later

/-! ### The boundary parameter -/

/-- The Content-Type is one that `parse_content` reads as a multipart form: it begins with the multipart type
    in some letter case. -/
def MultipartType (contentType : Bytes) : Prop :=
  (contentType.take multipartType.length).map toupper = multipartType.map toupper

instance (contentType : Bytes) : Decidable (MultipartType contentType) := inferInstanceAs (Decidable (_ = _))

/-- The Content-Type has a boundary parameter of this value: its first `boundary=` stands behind a `;` and
    blanks, and the value runs up to the next `;`, or to the end. -/
def BoundaryParam (contentType b : Bytes) : Prop :=
  ∃ front blanks after, contentType = front ++ ';'.toUInt8 :: blanks ++ bytes "boundary=" ++ (b ++ after) ∧
    (∀ c ∈ blanks, isspace c = true) ∧ ¬ bytes "boundary=" <:+: front ++ ';'.toUInt8 :: blanks ∧
    ';'.toUInt8 ∉ b ∧ (after = [] ∨ ∃ more, after = ';'.toUInt8 :: more)

/-- The decoder uses the value of the boundary parameter. -/
theorem BoundaryParam.boundaryText_eq {contentType b : Bytes} (param : BoundaryParam contentType b) :
    boundaryText contentType = b := by
  obtain ⟨front, blanks, after, rfl, blank, first, noSemicolon, ends⟩ := param
  have ends_ : EndsPiece (bytes "boundary=") (front ++ ';'.toUInt8 :: blanks) := by
    -- the byte before the key is not in the key
    have key : ((bytes "boundary=").all fun c => !(c == ';'.toUInt8 || isspace c)) = true := by decide
    have inside (c : UInt8) (member : c ∈ bytes "boundary=") : c ≠ ';'.toUInt8 ∧ isspace c = false := by
      simpa using List.all_eq_true.mp key c member
    rcases List.eq_nil_or_concat blanks with rfl | ⟨more, c, rfl⟩
    · apply endsPiece_of_last (fun member => (inside _ member).1 rfl)
      exact fun occurs => first (occurs.trans (List.prefix_append _ _).isInfix)
    · have shape : front ++ ';'.toUInt8 :: more.concat c = (front ++ ';'.toUInt8 :: more) ++ [c] := by simp
      rw [shape] at first ⊢
      apply endsPiece_of_last (fun member => by simpa [blank c (by simp)] using (inside c member).2)
      exact fun occurs => first (occurs.trans (List.prefix_append _ _).isInfix)
  have found : find (front ++ ';'.toUInt8 :: blanks ++ bytes "boundary=" ++ (b ++ after)) (bytes "boundary=")
      0 =
      some (front ++ ';'.toUInt8 :: blanks).length := by
    rw [find_of_endsPiece (Nat.zero_le _) (by rw [List.drop_zero]) ends_, Nat.zero_add]
  have start : (front ++ ';'.toUInt8 :: blanks ++ bytes "boundary=" ++ (b ++ after)).drop
      (boundaryStart (front ++ ';'.toUInt8 :: blanks ++ bytes "boundary=" ++ (b ++ after))) = b ++
        after := by
    unfold boundaryStart
    simp only [found]
    rw [← List.length_append, List.drop_left]
  unfold boundaryText
  simp only [start]
  rcases ends with rfl | ⟨more, rfl⟩
  · have none_ : find b (bytes ";") 0 = none := by
      apply find_of_not_isInfix
      exact fun occurs => noSemicolon (occurs.subset (show ';'.toUInt8 ∈ bytes ";" by decide))
    simp only [List.append_nil, none_]
  · have some_ : find (b ++ ';'.toUInt8 :: more) (bytes ";") 0 = some b.length := by
      have ends' : EndsPiece (bytes ";") b := endsPiece_of_head noSemicolon
      have cut : (b ++ ';'.toUInt8 :: more).drop 0 = b ++ bytes ";" ++ more := by
        rw [List.drop_zero, List.append_assoc]
        rfl
      rw [find_of_endsPiece (Nat.zero_le _) cut ends', Nat.zero_add]
    simp only [some_, List.take_left]

/-! ### Only delimited pieces become entries

A piece becomes an entry behind a delimiter only, as long as both searches find something.  Where one fails
the position wraps, and bytes that no delimiter introduced may become an entry. -/

/-- The body has the opening delimiter of the boundary parameter. -/
def HasOpening (req : Request) : Prop :=
  ∃ b, BoundaryParam (NameValue.valueOf req.headers (bytes "Content-Type")) b ∧
    delimiter b ++ bytes "\r\n" <:+: req.content

/-- The entries that `parse_content` adds, be it that it returns or throws, are those of pieces that stand
    behind an opening delimiter of the boundary parameter; without the one or the other it adds none. -/
structure OnlyDelimited (req : Request) : Prop where
  delimited : ∃ pieces : List Bytes, pieces.foldlM parseMultipartContent req = .ok (contentLeft req).2 ∧
    ∀ piece ∈ pieces, ∃ b, BoundaryParam (NameValue.valueOf req.headers (bytes "Content-Type")) b ∧
      delimiter b ++ bytes "\r\n" ++ piece <:+: req.content
  nothing : ¬ HasOpening req →
    (contentLeft req).2.params = req.params ∧ (contentLeft req).2.uploads = req.uploads

/-- No part is read: from where the reading starts, no piece with the end of a header lies before the next
    separator. -/
def NothingRead (req : Request) : Prop :=
  let b := boundaryText (NameValue.valueOf req.headers (bytes "Content-Type"))
  let sep1 := delimiter b ++ bytes "\r\n"
  let sep2 := delimiter b ++ bytes "--\r\n"
  ∀ piece ∈ firstPiece req.content sep1 sep2 (partsStart req.content sep1), ¬ headEnd <:+: piece

/-- What a call on a multipart form leaves behind. -/
theorem contentLeft_of_multipart {req : Request}
    (multipart : MultipartType (NameValue.valueOf req.headers (bytes "Content-Type"))) :
    let b := boundaryText (NameValue.valueOf req.headers (bytes "Content-Type"))
    let sep1 := delimiter b ++ bytes "\r\n"
    contentLeft req = if req.content = [] then (.ok (), req) else
      partsLeft sep1 (delimiter b ++ bytes "--\r\n") (req.content.length + 1) (partsStart req.content sep1)
        req := by
  intro b sep1
  have standard := readAsMultipart_iff.mpr multipart
  have present : NameValue.valueOf req.headers (bytes "Content-Type") ≠ [] := by
    intro empty
    rw [MultipartType, empty] at multipart
    exact absurd multipart (by decide)
  have room : 8 ≤ (NameValue.valueOf req.headers (bytes "Content-Type")).length :=
    Nat.le_trans (by decide) (stringsAreEqual_iff.mp standard.2).2.1
  unfold contentLeft
  simp only [List.isEmpty_iff, header_of_present present, standard.1, standard.2, if_true]
  unfold multipartLeft
  rw [boundary_eq_boundaryText room]
  rfl

/-- A delimiter with a line end behind it is an opening. -/
theorem HasOpening.of_occurrence {req : Request} {b piece : Bytes}
    (param : BoundaryParam (NameValue.valueOf req.headers (bytes "Content-Type")) b)
    (occurs : delimiter b ++ bytes "\r\n" ++ piece <:+: req.content) : HasOpening req :=
  ⟨b, param, (List.prefix_append _ piece).isInfix.trans occurs⟩

/-- Without any part read, the request is left as it was. -/
theorem contentLeft_of_nothing {req : Request}
    (multipart : MultipartType (NameValue.valueOf req.headers (bytes "Content-Type")))
    (nothing : NothingRead req) :
    (contentLeft req).2 = req := by
  rw [contentLeft_of_multipart multipart]
  split
  · rfl
  · rcases partsLeft_succ (delimiter (boundaryText (NameValue.valueOf req.headers (bytes "Content-Type"))) ++
        bytes "\r\n")
      (delimiter (boundaryText (NameValue.valueOf req.headers (bytes "Content-Type"))) ++ bytes "--\r\n")
      req.content.length (partsStart req.content _) req with ⟨same, -⟩ | ⟨piece, req', first, parsed, -⟩
    · exact same
    · rw [parseMultipartContent_error req (nothing piece first)] at parsed
      cases parsed

/-- Only then. -/
theorem nothing_of_contentLeft {req : Request}
    (multipart : MultipartType (NameValue.valueOf req.headers (bytes "Content-Type")))
    (same : (contentLeft req).2 = req) : NothingRead req := by
  rw [contentLeft_of_multipart multipart] at same
  split at same
  · rename_i empty
    -- no separator fits into an empty body
    intro piece first
    unfold firstPiece at first
    rw [empty] at first
    split at first
    · rename_i limit found
      have bounds := (find_bounds found).2
      simp [delimiter_eq] at bounds
    · obtain ⟨limit, found, -⟩ := Option.map_eq_some_iff.mp first
      have bounds := (find_bounds found).2
      simp [delimiter_eq] at bounds
  · exact nothing_read_of_partsLeft same

/-- With the opening delimiter in the body, each piece that is read stands behind one. -/
theorem pieces_of_hasOpening {req : Request}
    (multipart : MultipartType (NameValue.valueOf req.headers (bytes "Content-Type")))
    (opening : HasOpening req) :
    ∃ pieces : List Bytes, pieces.foldlM parseMultipartContent req = .ok (contentLeft req).2 ∧
      ∀ piece ∈ pieces, ∃ b, BoundaryParam (NameValue.valueOf req.headers (bytes "Content-Type")) b ∧
        delimiter b ++ bytes "\r\n" ++ piece <:+: req.content := by
  obtain ⟨b, param, occurs⟩ := opening
  have nonempty : req.content ≠ [] := by
    intro empty
    rw [empty] at occurs
    simp [delimiter_eq] at occurs
  obtain ⟨start, found⟩ := Option.isSome_iff_exists.mp (find_isSome_iff.mpr occurs)
  rw [contentLeft_of_multipart multipart, if_neg nonempty, param.boundaryText_eq]
  simp only [partsStart, found]
  obtain ⟨pieces, folded, delimited⟩ := @partsLeft_delimited _ (delimiter b ++ bytes "--\r\n")
    (req.content.length + 1) _ _ (suffix_take_of_find found)
  exact ⟨pieces, folded, fun piece member => ⟨b, param, delimited piece member⟩⟩

/-- Only delimited pieces become entries exactly when the body has the opening delimiter of the boundary
    parameter, or nothing is read at all. -/
theorem onlyDelimited_iff {req : Request}
    (multipart : MultipartType (NameValue.valueOf req.headers (bytes "Content-Type"))) :
    OnlyDelimited req ↔ HasOpening req ∨ NothingRead req := by
  constructor
  · intro only
    obtain ⟨pieces, folded, delimited⟩ := only.delimited
    cases pieces with
    | nil =>
        have same : (contentLeft req).2 = req := (Except.ok.inj folded).symm
        exact Or.inr (nothing_of_contentLeft multipart same)
    | cons piece pieces =>
        obtain ⟨b, param, occurs⟩ := delimited piece (by simp)
        exact Or.inl (.of_occurrence param occurs)
  · intro either
    rcases either with opening | nothing
    · exact ⟨pieces_of_hasOpening multipart opening, fun absent => absurd opening absent⟩
    · have same := contentLeft_of_nothing multipart nothing
      exact ⟨⟨[], by rw [same]; rfl, by simp⟩, fun _ => by rw [same]; exact ⟨rfl, rfl⟩⟩

theorem onlyDelimited_iff_sample : OnlyDelimited multipartRequest := by
  have multipart : MultipartType (NameValue.valueOf multipartRequest.headers (bytes "Content-Type")) := by
    decide
  have param : BoundaryParam (NameValue.valueOf multipartRequest.headers (bytes "Content-Type"))
      (bytes "-x") :=
    ⟨bytes "multipart/form-data", bytes " ", [], by decide, by decide +kernel, by decide, by decide,
      Or.inl rfl⟩
  exact (onlyDelimited_iff multipart).mpr (Or.inl ⟨bytes "-x", param, by decide +kernel⟩)

/-- A body that has no opening delimiter. -/
def undelimited : Request :=
  { headers := [{ name := bytes "Content-Type", value := bytes "multipart/form-data; boundary=B" }]
    content := bytes "####name=\"x\"\r\n\r\nv\r\n--B--\r\n" }

/-- A Content-Type without a boundary, and a body with the delimiter that is made up for it. -/
def unbounded : Request :=
  { headers := [{ name := bytes "Content-Type", value := bytes "multipart/form-data" }]
    content := bytes "--t/form-data\r\nname=\"x\"\r\n\r\nv\r\n--t/form-data--\r\n" }

/-- Both add a parameter. -/
theorem undelimited_added :
    (MultipartType (NameValue.valueOf undelimited.headers (bytes "Content-Type")) ∧
      ¬ OnlyDelimited undelimited) ∧
      MultipartType (NameValue.valueOf unbounded.headers (bytes "Content-Type")) ∧
        ¬ OnlyDelimited unbounded := by
  refine ⟨⟨by decide, ?_⟩, by decide, ?_⟩
  · intro only
    have none_ : ¬ HasOpening undelimited := by
      intro opening
      obtain ⟨b, param, occurs⟩ := opening
      rw [← param.boundaryText_eq] at occurs
      exact absurd occurs (by decide +kernel)
    exact absurd (only.nothing none_).1 (by decide +kernel)
  · intro only
    have none_ : ¬ HasOpening unbounded := by
      intro opening
      obtain ⟨b, ⟨front, blanks, after, shape, -⟩, -⟩ := opening
      have key : bytes "boundary=" <:+: bytes "multipart/form-data" :=
        ⟨front ++ ';'.toUInt8 :: blanks, b ++ after, shape.symm⟩
      exact absurd key (by decide +kernel)
    exact absurd (only.nothing none_).1 (by decide +kernel)

end Waspp
