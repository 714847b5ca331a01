/-
Module: Waspp.Proofs.CookieRoundTrip
Layer: Proofs
Purpose: Cookies written into a header are read back by `parse_cookies`, and no header makes it compute a
  negative length: the blanks in front of a name end at the equals sign, and each piece ends at or behind its
  start.
Imports: Waspp.Proofs.Cookies
Trusted boundary: none (fully proved)
Main exports: CookieText, writeCookies, parseCookiesChecked, cookies_law
Open obligations: none
-/
import Waspp.Proofs.Cookies

namespace Waspp

open CString

/-- A cookie that a Cookie header can hold. -/
structure CookieText (nv : NameValue) : Prop where
  noEquals : '='.toUInt8 ∉ nv.name
  noCut : ';'.toUInt8 ∉ nv.name
  noBlank : ∀ b ∈ nv.name.head?, isspace b = false
  valueNoCut : ';'.toUInt8 ∉ nv.value

/-- One cookie as a client writes it. -/
def writeCookie (nv : NameValue) : Bytes := nv.name ++ '='.toUInt8 :: nv.value

/-- The Cookie header of a list of cookies. -/
def writeCookies : List NameValue → Bytes
  | [] => []
  | [nv] => writeCookie nv
  | nv :: next :: rest => writeCookie nv ++ bytes "; " ++ writeCookies (next :: rest)

/-! ### Reading what was written -/

/-- A written cookie has no semicolon. -/
theorem CookieText.noCut_write {nv : NameValue} (text : CookieText nv) : ';'.toUInt8 ∉ writeCookie nv := by
  have other : ';'.toUInt8 ≠ '='.toUInt8 := by decide
  simp [writeCookie, text.noCut, text.valueNoCut, other]

/-- A written cookie is read back, whatever blanks stand in front of it. -/
theorem CookieText.read_write {nv : NameValue} (text : CookieText nv) {blanks : Bytes}
    (blank : ∀ b ∈ blanks, isspace b = true) : readPiece (blanks ++ writeCookie nv) = some nv := by
  have absent : '='.toUInt8 ∉ blanks ++ nv.name := by
    rw [List.mem_append]
    rintro (member | member)
    · exact absurd (blank _ member) (by decide)
    · exact text.noEquals member
  have name : (blanks ++ nv.name).dropWhile isspace = nv.name := by
    rw [List.dropWhile_append_of_pos blank]
    cases starts : nv.name with
    | nil => rfl
    | cons b rest =>
        have visible : isspace b = false := text.noBlank b (by simp [starts])
        simp [visible]
  rw [writeCookie, ← List.append_assoc, readPiece_append absent, name]

/-- With a blank in front, which every cookie but the first has, or without. -/
theorem readCookies_writeCookies {pairs : List NameValue} (texts : ∀ nv ∈ pairs, CookieText nv)
    {blanks : Bytes}
    (blank : ∀ b ∈ blanks, isspace b = true) : readCookies (blanks ++ writeCookies pairs) = pairs := by
  have uncut : ';'.toUInt8 ∉ blanks := fun member => absurd (blank _ member) (by decide)
  induction pairs generalizing blanks with
  | nil =>
      rw [writeCookies, List.append_nil, readCookies_of_not_mem uncut, readPiece_toList_eq_nil_iff]
      exact fun member => absurd (blank _ member) (by decide)
  | cons nv rest ih =>
      obtain ⟨text, texts⟩ := List.forall_mem_cons.mp texts
      have first : ';'.toUInt8 ∉ blanks ++ writeCookie nv := by simp [uncut, text.noCut_write]
      cases rest with
      | nil => rw [writeCookies, readCookies_of_not_mem first, text.read_write blank, Option.toList_some]
      | cons next rest =>
          have later := @ih texts [' '.toUInt8] (List.forall_mem_singleton.mpr (by decide)) (by decide)
          have separator : bytes "; " = ';'.toUInt8 :: [' '.toUInt8] := by decide
          rw [writeCookies, separator, ← List.append_assoc, ← List.append_assoc,
            List.append_assoc _ (_ :: _),
            List.cons_append, readCookies_append first, later, text.read_write blank]
          rfl

/-- An accessor shows the first entry of a name. -/
theorem valueOf_append_cons {before after : List NameValue} {nv : NameValue}
    (first : ∀ other ∈ before, other.name ≠ nv.name) :
    NameValue.valueOf (before ++ nv :: after) nv.name = nv.value := by
  induction before with
  | nil => simp [NameValue.valueOf_cons]
  | cons other rest ih =>
      obtain ⟨different, later⟩ := List.forall_mem_cons.mp first
      rw [List.cons_append, NameValue.valueOf_cons, if_neg different, ih later]

/-! ### The lengths of substrings

`parse_cookies` subtracts positions as `size_t`.  The checked versions make a negative difference a fault;
they do what the code does, so no difference is ever negative. -/

/-- A difference of sizes that is used as a length, as a call that fails on a negative one. -/
def sizeSubOrFault (a b : Nat) : Except Fault Nat :=
  if b ≤ a then .ok (a - b) else .error .undefinedBehaviour

/-- `parse_cookie(req, data)`, where a negative length is a fault. -/
def parseCookieChecked (req : Request) (data : Bytes) : Except Fault Request :=
  match find data (bytes "=") 0 with
  | none => .ok req
  | some pos => do
      let spaceCount := (data.takeWhile isspace).length
      let length ← sizeSubOrFault pos spaceCount
      let name ← substrOrThrow data spaceCount (some length)
      let value ← substrOrThrow data (pos + 1) none
      return { req with cookies := req.cookies ++ [{ name := name, value := value }] }

/-- The loop of `parse_cookies`, where a negative length is a fault. -/
def parseCookiesCheckedFrom (data : Bytes) : Nat → Nat → Request → Except Fault Request
  | 0, _, _ => .error .diverges
  | rounds + 1, oldPos, req =>
      match find data (bytes ";") oldPos with
      | none => do
          let piece ← substrOrThrow data oldPos none
          parseCookieChecked req piece
      | some pos => do
          let length ← sizeSubOrFault pos oldPos
          let piece ← substrOrThrow data oldPos (some length)
          let req ← parseCookieChecked req piece
          parseCookiesCheckedFrom data rounds (pos + 1) req

/-- `parse_cookies(req)`, where a negative length is a fault. -/
def parseCookiesChecked (req : Request) : Except Fault Request :=
  let (data, req) := req.header (bytes "Cookie")
  if data.isEmpty then .ok req else parseCookiesCheckedFrom data (data.length + 1) 0 req

/-- A difference of positions in order is no fault. -/
theorem sizeSubOrFault_of_le {a b : Nat} (le : b ≤ a) : sizeSubOrFault a b = .ok (a - b) := if_pos le

theorem sizeSub_of_le {a b : Nat} (le : b ≤ a) : sizeSub a b = some (a - b) := if_pos le

/-- What is found lies at or behind the start. -/
theorem le_of_find {s pat : Bytes} {start p : Nat} (found : find s pat start = some p) : start ≤ p := by
  unfold find at found
  split at found
  · exact (findFrom_eq_some_iff.mp found).1
  · cases found

/-- The blanks in front end at the equals sign, which is none. -/
theorem blanks_le_of_find {data : Bytes} {pos : Nat} (found : find data (bytes "=") 0 = some pos) :
    (data.takeWhile isspace).length ≤ pos := by
  rw [find, if_pos (Nat.zero_le _), List.drop_zero, findFrom_eq_some_iff] at found
  obtain ⟨-, -, starts, -⟩ := found
  rw [Nat.sub_zero, List.isPrefixOf_iff_prefix] at starts
  obtain ⟨rest, cut⟩ := starts
  have split : data = data.take pos ++ '='.toUInt8 :: rest := by
    rw [show '='.toUInt8 :: rest = data.drop pos from cut, List.take_append_drop]
  have visible : isspace '='.toUInt8 = false := by decide
  rw [split, List.takeWhile_append]
  split
  · rw [List.takeWhile_cons_of_neg (by simp [visible]), List.append_nil]
    exact List.length_take_le _ _
  · exact (List.takeWhile_prefix _).length_le.trans (List.length_take_le _ _)

/-- One cookie is cut with differences that are in order. -/
theorem parseCookieChecked_eq (req : Request) (data : Bytes) :
    parseCookieChecked req data = parseCookie req data := by
  unfold parseCookieChecked parseCookie
  cases found : find data (bytes "=") 0 with
  | none => rfl
  | some pos =>
      have le := blanks_le_of_find found
      simp only [sizeSubOrFault_of_le le, sizeSub_of_le le, bind, Except.bind]

theorem parseCookiesCheckedFrom_eq (data : Bytes) (rounds oldPos : Nat) (req : Request) :
    parseCookiesCheckedFrom data rounds oldPos req = parseCookiesFrom data rounds oldPos req := by
  induction rounds generalizing oldPos req with
  | zero => rfl
  | succ rounds ih =>
      unfold parseCookiesCheckedFrom parseCookiesFrom
      cases found : find data (bytes ";") oldPos with
      | none => simp only [parseCookieChecked_eq]
      | some pos =>
          have le := le_of_find found
          simp only [sizeSubOrFault_of_le le, sizeSub_of_le le, parseCookieChecked_eq, ih, bind, Except.bind]

/-- No length is negative. -/
theorem parseCookiesChecked_eq (req : Request) : parseCookiesChecked req = parseCookies req := by
  simp only [parseCookiesChecked, parseCookies, parseCookiesCheckedFrom_eq]

/-! ### The law -/

/-- `parse_cookies` appends the cookies that its header was written from, the first one of a name is shown
    under it, and for every header it returns without a negative length. -/
theorem cookies_law (req : Request) :
    (∀ pairs : List NameValue, (∀ nv ∈ pairs, CookieText nv) →
      NameValue.valueOf req.headers (bytes "Cookie") = writeCookies pairs →
        ∃ req', parseCookies req = .ok req' ∧ req'.cookies = req.cookies ++ pairs ∧
          ∀ before nv after, req'.cookies = before ++ nv :: after →
            (∀ other ∈ before, other.name ≠ nv.name) → (req'.cookie nv.name).1 = nv.value) ∧
      ∃ req', parseCookiesChecked req = .ok req' ∧ parseCookies req = .ok req' := by
  constructor
  · intro pairs texts header
    refine ⟨_, parseCookies_eq req, ?_, ?_⟩
    · have read := @readCookies_writeCookies pairs texts [] (by simp)
      rw [List.nil_append] at read
      simp only [header, read]
    · intro before nv after cut first
      change NameValue.valueOf _ nv.name = nv.value
      rw [cut, valueOf_append_cons first]
  · exact ⟨_, (parseCookiesChecked_eq req).trans (parseCookies_eq req), parseCookies_eq req⟩

/-- A request with a cookie, whose header brings one of the same name, one with the bytes that a cookie may
    hold and one without a name. -/
def oddRequest : Request :=
  { headers := [{ name := bytes "Cookie", value := bytes "a=2; b c= x=y ; =" }]
    cookies := [{ name := bytes "a", value := bytes "1" }] }

theorem cookies_law_odd :
    ∃ req', parseCookies oddRequest = .ok req' ∧ req'.cookies = oddRequest.cookies ++
      [{ name := bytes "a", value := bytes "2" }, { name := bytes "b c", value := bytes " x=y " },
        { name := [], value := [] }] := by
  obtain ⟨req', parsed, cookies, -⟩ := (cookies_law oddRequest).1
    [{ name := bytes "a", value := bytes "2" }, { name := bytes "b c", value := bytes " x=y " },
      { name := [], value := [] }]
    (by
      simp only [List.forall_mem_cons, List.not_mem_nil, false_implies, implies_true, and_true]
      refine ⟨⟨?_, ?_, ?_, ?_⟩, ⟨?_, ?_, ?_, ?_⟩, ⟨?_, ?_, ?_, ?_⟩⟩ <;> decide +kernel)
    (by decide +kernel)
  exact ⟨req', parsed, cookies⟩

end Waspp
