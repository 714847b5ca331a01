/-
Module: Waspp.Proofs.CookieBytes
Layer: Proofs
Purpose: Which bytes a cookie can hold.  No state of the parser lets a control byte into a header value,
  whatever the blocks of the stream are, and cutting the Cookie header up takes bytes of it only.  So no
  cookie has a NUL, and the C string that `md5_digest` hashes in `session::load` is all of the cookie's
  text and the key.
Imports: Waspp.Foundation.Paths, Waspp.Proofs.Cookies, Waspp.Proofs.RequestGrammar, Waspp.Proofs.SessionLoad
Trusted boundary: none (fully proved)
Main exports: NoControl, plainHeaders_of_parse, digestedText, digest_covers_key
Open obligations: none
-/
import Waspp.Foundation.Paths
import Waspp.Proofs.Cookies
import Waspp.Proofs.RequestGrammar
import Waspp.Proofs.SessionLoad

namespace Waspp

open CString Incremental

/-- The text has no control byte. -/
def NoControl (text : Bytes) : Prop := ∀ b ∈ text, isCtl (charInt b) = false

/-- Every value of the entries is free of control bytes. -/
def PlainValues (entries : List NameValue) : Prop := ∀ nv ∈ entries, NoControl nv.value

/-! ### Header values -/

/-- Values without control characters stay so with one more of them. -/
theorem plainValues_append_singleton {entries : List NameValue} {nv : NameValue} :
    PlainValues (entries ++ [nv]) ↔ PlainValues entries ∧ NoControl nv.value := by
  simp only [PlainValues, List.forall_mem_append, List.forall_mem_singleton]

/-- An entry with an empty value, which a header line begins with and which an accessor may append. -/
theorem PlainValues.append_empty {entries : List NameValue} (plain : PlainValues entries) (name : Bytes) :
    PlainValues (entries ++ [{ name := name, value := [] }]) :=
  plainValues_append_singleton.mpr ⟨plain, by simp [NoControl]⟩

/-- The last value takes a byte that is no control byte. -/
theorem PlainValues.pushBackValue {entries : List NameValue} (plain : PlainValues entries) {input : UInt8}
    (visible : isCtl (charInt input) = false) : PlainValues (pushBackValue entries input) := by
  rcases List.eq_nil_or_concat entries with rfl | ⟨others, last, rfl⟩
  · exact plain
  · rw [List.concat_eq_append] at plain ⊢
    rw [plainValues_append_singleton] at plain
    rw [pushBackValue_append, plainValues_append_singleton]
    refine ⟨plain.1, ?_⟩
    simp only [NoControl, List.forall_mem_append, List.forall_mem_singleton]
    exact ⟨plain.2, visible⟩

/-- A name that grows leaves the values alone. -/
theorem PlainValues.pushBackName {entries : List NameValue} (plain : PlainValues entries) (input : UInt8) :
    PlainValues (pushBackName entries input) := by
  rcases List.eq_nil_or_concat entries with rfl | ⟨others, last, rfl⟩
  · exact plain
  · rw [List.concat_eq_append] at plain ⊢
    rw [plainValues_append_singleton] at plain
    rw [pushBackName_append, plainValues_append_singleton]
    exact plain

/-- An entry made by `operator[]` has an empty value. -/
theorem PlainValues.ensure {entries : List NameValue} (plain : PlainValues entries) (name : Bytes) :
    PlainValues (NameValue.ensure entries name) := by
  unfold NameValue.ensure
  split
  · exact plain
  · exact plain.append_empty name

/-- What a byte brings to the headers is a name, or a byte of a value that is no control byte. -/
theorem act_plainHeaders {p q : Parsing} {b : UInt8} {verdict : Tribool} (plain : PlainValues p.req.headers)
    (act : parser.act p b = .read verdict q) : PlainValues q.req.headers := by
  have started := (plain.append_empty []).pushBackName b
  have named := plain.pushBackName b
  have grown (visible : isCtl (charInt b) = false) := plain.pushBackValue visible
  have read := PlainValues.ensure plain (bytes "Content-Length")
  have readTwice := read.ensure (bytes "Content-Length")
  refine of_act (P := fun _ q => PlainValues q.req.headers) act ?_
  obtain ⟨state_, req⟩ := p
  cases state_ <;> simp_all [switchBody, headerLength, Request.header]

/-- Successive calls of `parse` end in a state that the recogniser reaches. -/
theorem reachable_of_parse {start p : Parsing} {blocks : List Bytes} {n : Nat} {verdict : Tribool}
    (parsed : parseBlocks start blocks = ⟨verdict, p, n⟩) : parser.Reachable start p := by
  have run := (Machine.Reachable.refl (m := parser) (s := start)).run blocks.flatten
  rwa [← Machine.feed_eq_run_flatten, ← parseBlocks_eq_feed, parsed] at run

/-- The parser takes no control character into a header. -/
theorem plainHeaders_of_parse {req : Request} (fresh : req.Fresh) {blocks : List Bytes} {p : Parsing}
    {n : Nat} {verdict : Tribool} (parsed : parseBlocks (.start req) blocks = ⟨verdict, p, n⟩) :
    PlainValues p.req.headers ∧ p.req.cookies = [] := by
  refine (reachable_of_parse parsed).invariant (P := fun p => PlainValues p.req.headers ∧ p.req.cookies = [])
    ?_ ?_
  · refine ⟨?_, fresh.cookies⟩
    show PlainValues req.headers
    rw [fresh.headers]
    simp [PlainValues]
  · rintro t u b verdict ⟨plain, none⟩ act
    exact ⟨act_plainHeaders plain act, (act_outside act).cookies.trans none⟩

/-! ### Cookies -/

/-- The bytes of a cookie are bytes of its piece of the header. -/
theorem NoControl.readPiece {piece : Bytes} (plain : NoControl piece) {nv : NameValue}
    (read : readPiece piece = some nv) :
    NoControl nv.name ∧ NoControl nv.value := by
  unfold Waspp.readPiece at read
  split at read
  · cases read
    constructor
    · intro b member
      exact plain b ((List.takeWhile_sublist _).subset ((List.dropWhile_sublist _).subset member))
    · intro b member
      exact plain b ((List.dropWhile_sublist _).subset (List.mem_of_mem_tail member))
  · cases read

/-- Cookies of a header without control characters have none. -/
theorem NoControl.readCookies {header : Bytes} (plain : NoControl header) :
    ∀ nv ∈ readCookies header, NoControl nv.name ∧ NoControl nv.value := by
  have first {piece : Bytes} (plain : NoControl piece) :
      ∀ nv ∈ (Waspp.readPiece piece).toList, NoControl nv.name ∧ NoControl nv.value :=
    fun nv member => plain.readPiece (Option.mem_toList.mp member)
  -- The header is cut at its first semicolon.
  induction length : header.length using Nat.strong_induction_on generalizing header with
  | _ n ih =>
      by_cases cut : ';'.toUInt8 ∈ header
      · obtain ⟨piece, after, rfl, noCut⟩ := List.eq_append_cons_of_mem cut
        rw [readCookies_append noCut]
        have here : NoControl piece := fun b member => plain b (List.mem_append_left _ member)
        have later : NoControl after := fun b member => plain b (by simp [member])
        have shorter : after.length < n := by simp at length; omega
        exact List.forall_mem_append.mpr ⟨first here, ih _ shorter later rfl⟩
      · rw [readCookies_of_not_mem cut]
        exact first plain

/-! ### What is digested

`md5_digest` takes a C string, so a zero byte would cut the key off.  No byte of a header is a control
character, so none of a cookie is, and the text up to the key has none but for the key's own. -/

/-- A zero byte is a control character. -/
theorem NoControl.noNul {text : Bytes} (plain : NoControl text) : (0 : UInt8) ∉ text := by
  intro member
  exact absurd (plain 0 member) (by decide)

/-- The session cookie that a request presents is a value of its cookies, or empty. -/
theorem noControl_presented {env : Env} {c : Ctx}
    (plain : ∀ nv ∈ c.req.cookies, NoControl nv.name ∧ NoControl nv.value) :
    NoControl (presented env c) := by
  rw [presented, Ctx.cookieValue, NameValue.valueOf]
  split
  · rename_i nv found
    exact (plain nv (List.mem_of_find?_eq_some found)).2
  · simp [NoControl]

/-- What `md5_digest` is given in `session::load`. -/
def digestedText (env : Env) (c : Ctx) : Bytes := Session.payload (presented env c) ++ env.cfg.encryptKey

/-- The cookies that `parse_cookies` extracts from an accepted request have no control byte, and with a key
    without NUL `md5_digest` hashes all of the session cookie's text and the key. -/
theorem digest_covers_key {req : Request} (fresh : req.Fresh) {blocks : List Bytes} {p : Parsing} {n : Nat}
    (accepted : parseBlocks (.start req) blocks = ⟨.yes, p, n⟩) (endpoint : Endpoint) {req' : Request}
    (extracted : parseCookies p.req = .ok req' ∨ prepare endpoint p.req = .ok req') :
    (∀ nv ∈ req'.cookies, NoControl nv.name ∧ NoControl nv.value) ∧
      ∀ (env : Env) (res : Response), (0 : UInt8) ∉ env.cfg.encryptKey →
        (cstr (digestedText env ⟨req', res⟩)).length = (digestedText env ⟨req', res⟩).length ∧
          md5Digest env (digestedText env ⟨req', res⟩) =
            (env.md5 (digestedText env ⟨req', res⟩)).toList.flatMap hex02 := by
  obtain ⟨headers, noCookies⟩ := plainHeaders_of_parse fresh accepted
  have plain : NoControl (NameValue.valueOf p.req.headers (bytes "Cookie")) := by
    rw [NameValue.valueOf]
    split
    · rename_i nv found
      exact headers nv (List.mem_of_find?_eq_some found)
    · simp [NoControl]
  have cookies : req'.cookies = readCookies (NameValue.valueOf p.req.headers (bytes "Cookie")) := by
    rcases extracted with parsed | prepared
    · rw [parseCookies_eq] at parsed
      cases parsed
      rw [noCookies, List.nil_append]
    · rw [(prepared_of_prepare _ prepared).cookies, noCookies, List.nil_append]
  have extractedPlain : ∀ nv ∈ req'.cookies, NoControl nv.name ∧ NoControl nv.value := by
    rw [cookies]
    exact plain.readCookies
  refine ⟨extractedPlain, fun env res key => ?_⟩
  have whole : cstr (digestedText env ⟨req', res⟩) = digestedText env ⟨req', res⟩ := by
    apply Paths.cstr_eq_self
    intro member
    rcases List.mem_append.mp member with inText | inKey
    · exact (noControl_presented extractedPlain).noNul ((List.take_sublist _ _).subset inText)
    · exact key inKey
  rw [md5Digest, whole]
  exact ⟨rfl, rfl⟩

/-- A request in two blocks whose Cookie header goes on in a second line. -/
private def foldedCookie : List Bytes :=
  [bytes "GET / HTTP/1.1\r\nCookie: a=", bytes "b;\r\n c=d\r\n\r\n"]

/-- What `parse` makes of it. -/
private def foldedRequest : Request :=
  { method := bytes "GET"
    uri := bytes "/"
    httpVersionMajor := 1
    httpVersionMinor := 1
    headers := [⟨bytes "Cookie", bytes "a=b;c=d"⟩] }

/-- The request with its cookies. -/
private def foldedCookies : Request :=
  { foldedRequest with cookies := [⟨bytes "a", bytes "b"⟩, ⟨bytes "c", bytes "d"⟩] }

theorem digest_covers_key_folded :
    (∀ nv ∈ foldedCookies.cookies, NoControl nv.name ∧ NoControl nv.value) ∧
      ∀ (env : Env) (res : Response), (0 : UInt8) ∉ env.cfg.encryptKey →
        (cstr (digestedText env ⟨foldedCookies, res⟩)).length =
            (digestedText env ⟨foldedCookies, res⟩).length ∧
          md5Digest env (digestedText env ⟨foldedCookies, res⟩) =
            (env.md5 (digestedText env ⟨foldedCookies, res⟩)).toList.flatMap hex02 :=
  @digest_covers_key {} Request.fresh_default foldedCookie ⟨.expectingNewline3, foldedRequest⟩ 38
    (by decide +kernel)
    ⟨bytes "127.0.0.1", 50000⟩ foldedCookies (Or.inl (by decide +kernel))

end Waspp
