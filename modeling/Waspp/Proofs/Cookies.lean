/-
Module: Waspp.Proofs.Cookies
Layer: Proofs
Purpose: What the calls between the parser and the handler make of a Cookie header.  `parse_cookies` always
  returns: it cuts the header at the semicolons, and each piece with an equals sign gives a cookie.  The
  calls around it leave the headers that a request shows, its cookies and the requester's address alone.
Imports: Waspp.Model.Connection
Trusted boundary: none (fully proved)
Main exports: readPiece, readCookies, parseCookies_eq, Prepared, prepared_of_prepare
Open obligations: none
-/
import Waspp.Model.Connection

namespace Waspp

open CString

/-- The cookie that one piece of a Cookie header gives: a name behind blanks, and a value behind the first
    equals sign. -/
def readPiece (piece : Bytes) : Option NameValue :=
  if '='.toUInt8 ∈ piece then
    some ⟨(piece.takeWhile (· != '='.toUInt8)).dropWhile isspace, (piece.dropWhile (· != '='.toUInt8)).tail⟩
  else none

/-- The cookies of a Cookie header. -/
def readCookies (header : Bytes) : List NameValue := (header.splitOn ';'.toUInt8).filterMap readPiece

/-! ### Cutting at a byte

The loop cuts at each semicolon and at the end.  Both it and the reader of pieces are described by where
the first separator stands. -/

section Cuts

variable {c : UInt8} {before after : Bytes}

/-- A byte that is not there is not found. -/
theorem findFrom_byte_of_not_mem {s : Bytes} (i : Nat) (absent : c ∉ s) :
    findFrom [c].isPrefixOf i s = none := by
  induction s generalizing i with
  | nil => rfl
  | cons b rest ih =>
      have other : c ≠ b := by
        rintro rfl
        exact absent (List.mem_cons_self ..)
      simpa [findFrom, other] using ih (i + 1) fun later => absent (List.mem_cons_of_mem _ later)

/-- The first occurrence of a byte is found. -/
theorem findFrom_byte_append (i : Nat) (first : c ∉ before) :
    findFrom [c].isPrefixOf i (before ++ c :: after) = some (i + before.length) := by
  induction before generalizing i with
  | nil => simp [findFrom]
  | cons b rest ih =>
      have other : (c == b) = false := by
        rw [beq_eq_false_iff_ne]
        rintro rfl
        exact first (List.mem_cons_self ..)
      have found := ih (i + 1) fun later => first (List.mem_cons_of_mem _ later)
      simp only [List.cons_append, findFrom, List.isPrefixOf, other, Bool.false_and, Bool.false_eq_true,
        if_false, found, List.length_cons]
      congr 1
      omega

/-- A piece cut at its first equals sign. -/
theorem readPiece_append (first : '='.toUInt8 ∉ before) :
    readPiece (before ++ '='.toUInt8 :: after) = some ⟨before.dropWhile isspace, after⟩ := by
  have others : ∀ b ∈ before, (b != '='.toUInt8) = true := by
    intro b member
    rw [bne_iff_ne]
    rintro rfl
    exact first member
  simp [readPiece, List.takeWhile_append_of_pos others, List.dropWhile_append_of_pos others]

/-- The first piece of a header, and the rest. -/
theorem readCookies_append (first : ';'.toUInt8 ∉ before) :
    readCookies (before ++ ';'.toUInt8 :: after) = (readPiece before).toList ++ readCookies after := by
  rw [readCookies, List.splitOn_append_cons_self_of_not_mem first, readCookies]
  cases read : readPiece before <;> simp [read]

/-- A header without a semicolon is one piece. -/
theorem readCookies_of_not_mem (whole : ';'.toUInt8 ∉ before) :
    readCookies before = (readPiece before).toList := by
  rw [readCookies, List.splitOn_eq_singleton whole]
  cases read : readPiece before <;> simp [read]

/-- A piece gives a cookie when it has an equals sign. -/
theorem readPiece_toList_eq_nil_iff : (readPiece before).toList = [] ↔ '='.toUInt8 ∉ before := by
  by_cases member : '='.toUInt8 ∈ before <;> simp [readPiece, member]

end Cuts

/-- A header without an equals sign gives no cookie, and any other gives one. -/
theorem readCookies_eq_nil_iff (header : Bytes) : readCookies header = [] ↔ '='.toUInt8 ∉ header := by
  by_cases cut : ';'.toUInt8 ∈ header
  · rcases List.eq_append_cons_of_mem cut with ⟨before, after, rfl, first⟩
    have later := readCookies_eq_nil_iff after
    have other : '='.toUInt8 ≠ ';'.toUInt8 := by decide
    rw [readCookies_append first, List.append_eq_nil_iff, readPiece_toList_eq_nil_iff, later]
    simp [other]
  · rw [readCookies_of_not_mem cut, readPiece_toList_eq_nil_iff]
termination_by header.length

/-! ### `parse_cookies` -/

/-- `parse_cookie` appends the cookie of its piece, if there is one. -/
theorem parseCookie_eq (req : Request) (piece : Bytes) :
    parseCookie req piece = .ok { req with cookies := req.cookies ++ (readPiece piece).toList } := by
  unfold parseCookie find
  rw [if_pos (Nat.zero_le _), List.drop_zero]
  by_cases member : '='.toUInt8 ∈ piece
  · rcases List.eq_append_cons_of_mem member with ⟨before, after, rfl, first⟩
    have visible : isspace '='.toUInt8 = false := by decide
    have split := List.takeWhile_append_dropWhile (p := isspace) (l := before)
    -- the blanks stand in front of the equals sign, which is none
    have blanks : (before ++ '='.toUInt8 :: after).takeWhile isspace = before.takeWhile isspace := by
      rw [List.takeWhile_append]
      split
      · rename_i all
        have whole := (List.takeWhile_prefix (p := isspace) (l := before)).eq_of_length all
        simp [visible, whole]
      · rfl
    have short : (before.takeWhile isspace).length ≤ before.length := (List.takeWhile_prefix _).length_le
    have name : before.drop (before.takeWhile isspace).length = before.dropWhile isspace :=
      calc
        before.drop (before.takeWhile isspace).length
          = (before.takeWhile isspace ++ before.dropWhile isspace).drop
            (before.takeWhile isspace).length := by rw [split]
        _ = before.dropWhile isspace := List.drop_left
    have count : (before.dropWhile isspace).length = before.length - (before.takeWhile isspace).length := by
      rw [← name, List.length_drop]
    rw [show bytes "=" = ['='.toUInt8] from rfl, findFrom_byte_append 0 first, readPiece_append first]
    simp only [Nat.zero_add, blanks]
    rw [substrOrThrow_of_le (by simp; omega), substrOrThrow_of_le (by simp)]
    simp only [sizeSub, if_pos short, takeCount_some, takeCount_none, bind, Except.bind, pure, Except.pure,
      Option.toList_some]
    rw [List.drop_append_of_le_length short, name, List.take_left' count]
    simp
  · rw [show bytes "=" = ['='.toUInt8] from rfl, findFrom_byte_of_not_mem 0 member]
    simp [readPiece, member]

/-- The loop appends the cookies of the header, in order, within the rounds it has. -/
theorem parseCookiesFrom_eq (data : Bytes) {rounds oldPos : Nat} (inside : oldPos ≤ data.length)
    (enough : data.length < rounds + oldPos) (req : Request) :
    parseCookiesFrom data rounds oldPos req =
      .ok { req with cookies := req.cookies ++ readCookies (data.drop oldPos) } := by
  induction rounds generalizing oldPos req with
  | zero => omega
  | succ rounds ih =>
      unfold parseCookiesFrom find
      rw [if_pos inside, substrOrThrow_of_le inside, show bytes ";" = [';'.toUInt8] from rfl]
      by_cases member : ';'.toUInt8 ∈ data.drop oldPos
      · rcases List.eq_append_cons_of_mem member with ⟨piece, after, cut, first⟩
        have length : oldPos + (piece.length + (after.length + 1)) = data.length := by
          have lengths := congrArg List.length cut
          simp only [List.length_drop, List.length_append, List.length_cons] at lengths
          omega
        have rest : data.drop (oldPos + piece.length + 1) = after := by
          rw [Nat.add_assoc, ← List.drop_drop, cut]
          simp
        have text : takeCount (sizeSub (oldPos + piece.length) oldPos) (data.drop oldPos) = piece := by
          simp [sizeSub, cut]
        rw [cut, findFrom_byte_append oldPos first]
        rw [cut] at text
        simp only [substrOrThrow_of_le inside, cut, text, parseCookie_eq, bind, Except.bind]
        rw [ih (by omega) (by omega), rest, readCookies_append first, List.append_assoc]
      · rw [findFrom_byte_of_not_mem oldPos member]
        simp only [bind, Except.bind, takeCount_none, parseCookie_eq, readCookies_of_not_mem member]

/-- `parse_cookies` appends the cookies of the Cookie header. -/
theorem parseCookies_eq (req : Request) :
    parseCookies req =
      .ok { req with
        headers := NameValue.ensure req.headers (bytes "Cookie")
        cookies := req.cookies ++ readCookies (NameValue.valueOf req.headers (bytes "Cookie")) } := by
  by_cases empty : (NameValue.valueOf req.headers (bytes "Cookie")).isEmpty = true
  · have none : readCookies (NameValue.valueOf req.headers (bytes "Cookie")) = [] := by
      rw [List.isEmpty_iff.mp empty]
      decide
    refine (if_pos empty).trans ?_
    rw [none, List.append_nil]
  · exact (if_neg empty).trans (parseCookiesFrom_eq _ (Nat.zero_le _) (Nat.lt_succ_self _) _)

/-! ### What the body leaves alone

The calls in front of the handler fill in parameters and never touch what was read from the
head.  `KeepsHead` is that relation, and `Yields` says it of calls that may throw. -/

/-- What every outcome that is no fault satisfies. -/
def Yields {α : Type} (m : Except Fault α) (P : α → Prop) : Prop := ∀ a, m = .ok a → P a

/-- A call that returned yields what its value satisfies. -/
theorem yields_ok {α : Type} {a : α} {P : α → Prop} (holds : P a) : Yields (.ok a) P := by
  intro a' same
  cases same
  exact holds

/-- A call that threw yields nothing. -/
theorem yields_error {α : Type} {e : Fault} {P : α → Prop} : Yields (.error e) P := by
  intro a same
  cases same

/-- The rule of sequence. -/
theorem yields_bind {α β : Type} {m : Except Fault α} {f : α → Except Fault β} {P : β → Prop}
    (next : ∀ a, m = .ok a → Yields (f a) P) : Yields (m >>= f) P := by
  cases m with
  | error e => exact yields_error
  | ok a => exact next a rfl

/-- The request keeps its headers, its cookies and the requester's address. -/
structure KeepsHead (req req' : Request) : Prop where
  headers : ∀ name, NameValue.valueOf req'.headers name = NameValue.valueOf req.headers name
  cookies : req'.cookies = req.cookies
  remoteAddr : req'.remoteAddr = req.remoteAddr

theorem KeepsHead.refl (req : Request) : KeepsHead req req := ⟨fun _ => rfl, rfl, rfl⟩

theorem KeepsHead.trans {req req' req'' : Request} (one : KeepsHead req req') (two : KeepsHead req' req'') :
    KeepsHead req req'' :=
  ⟨fun name => (two.headers name).trans (one.headers name), two.cookies.trans one.cookies,
    two.remoteAddr.trans one.remoteAddr⟩

/-- A parameter leaves the head alone. -/
theorem KeepsHead.pushParam (req : Request) (name value : Bytes) :
    KeepsHead req (pushParam req name value) :=
  ⟨fun _ => rfl, rfl, rfl⟩

theorem parseFormFrom_keepsHead (rounds oldPos : Nat) (req : Request) :
    Yields (parseFormFrom rounds oldPos req) (KeepsHead req) := by
  induction rounds generalizing oldPos req with
  | zero => exact yields_error
  | succ rounds ih =>
      have push (oldPos : Nat) (name value : Bytes) :
          Yields (parseFormFrom rounds oldPos (pushParam req name value)) (KeepsHead req) := by
        intro req' parsed
        exact (KeepsHead.pushParam req name value).trans (ih _ _ req' parsed)
      unfold parseFormFrom
      split
      · exact yields_ok (.refl req)
      · split
        · exact yields_error
        · split
          · dsimp only
            split
            · exact ih _ req
            · exact yields_bind fun name _ => push _ _ _
          · apply yields_bind
            intro name _
            dsimp only
            split
            · exact yields_bind fun value _ => yields_ok (.pushParam req _ _)
            · exact yields_bind fun value _ => push _ _ _

theorem parseMultipartContent_keepsHead (req : Request) (data : Bytes) :
    Yields (parseMultipartContent req data) (KeepsHead req) := by
  unfold parseMultipartContent
  split
  · exact yields_error
  · apply yields_bind
    intro value _
    apply yields_bind
    intro headText _
    dsimp only
    split
    · exact yields_ok (.pushParam req _ _)
    · exact yields_ok ⟨fun _ => rfl, rfl, rfl⟩

theorem parsePartsFrom_keepsHead (sep1 sep2 : Bytes) (rounds oldPos : Nat) (req : Request) :
    Yields (parsePartsFrom sep1 sep2 rounds oldPos req) (KeepsHead req) := by
  induction rounds generalizing oldPos req with
  | zero => exact yields_error
  | succ rounds ih =>
      unfold parsePartsFrom
      split
      · apply yields_bind
        intro part _
        apply yields_bind
        intro req₁ one req' parsed
        exact (parseMultipartContent_keepsHead req part req₁ one).trans (ih _ req₁ req' parsed)
      · split
        · exact yields_bind fun part _ => parseMultipartContent_keepsHead req part
        · exact yields_ok (.refl req)

theorem parseContent_keepsHead (req : Request) : Yields (parseContent req) (KeepsHead req) := by
  have shown : KeepsHead req { req with headers := NameValue.ensure req.headers (bytes "Content-Type") } :=
    ⟨fun name => NameValue.valueOf_ensure _ _ name, rfl, rfl⟩
  unfold parseContent
  split
  · exact yields_ok (.refl req)
  · dsimp only [Request.header]
    split
    · intro req' parsed
      exact shown.trans (parseFormFrom_keepsHead _ _ _ req' parsed)
    · split
      · apply yields_bind
        intro b _ req' parsed
        exact shown.trans (parsePartsFrom_keepsHead _ _ _ _ _ req' parsed)
      · exact yields_ok shown

/-! ### The calls in front of the handler -/

/-- What `do_read` makes of a request that the parser accepted, as far as sessions are concerned. -/
structure Prepared (endpoint : Endpoint) (received req : Request) : Prop where
  headers : ∀ name, NameValue.valueOf req.headers name = NameValue.valueOf received.headers name
  cookies : req.cookies = received.cookies ++
    readCookies (NameValue.valueOf received.headers (bytes "Cookie"))
  remoteAddr : req.remoteAddr = endpoint.address

theorem keepsHead_parseConnectionHeader (req : Request) : KeepsHead req req.parseConnectionHeader := by
  unfold Request.parseConnectionHeader Request.header
  dsimp only
  split
  · exact ⟨fun name => NameValue.valueOf_ensure _ _ name, rfl, rfl⟩
  · exact ⟨fun name => NameValue.valueOf_ensure _ _ name, rfl, rfl⟩

theorem parseParams_keepsHead (req : Request) : Yields (parseParams req) (KeepsHead req) := by
  unfold parseParams
  split
  · exact yields_error
  · exact yields_ok ⟨fun _ => rfl, rfl, rfl⟩

/-- A request that reaches the handler has the head that was read, the connection's address and the cookies.
    -/
theorem prepared_of_prepare {endpoint : Endpoint} {received : Request} :
    Yields (prepare endpoint received) (Prepared endpoint received) := by
  unfold prepare
  apply yields_bind
  intro req₁ params
  have one := (keepsHead_parseConnectionHeader _).trans (parseParams_keepsHead _ req₁ params)
  rw [parseCookies_eq]
  intro req' parsed
  have two := parseContent_keepsHead _ req' parsed
  constructor
  · intro name
    rw [two.headers, NameValue.valueOf_ensure, one.headers]
  · rw [two.cookies, one.cookies, one.headers]
  · rw [two.remoteAddr, one.remoteAddr]

end Waspp
