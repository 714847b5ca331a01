/-
Module: Waspp.Proofs.ContentLength
Layer: Proofs
Purpose: How much of the input a POST request takes for its body.  The parser counts a copy of
  `strtol(Content-Length, nullptr, 0)` down and looks at it only after it has taken a byte, so it takes
  `remaining` bytes, 2^32 of them for a length of 0; the first one has to be a token byte.  `length_law_iff`
  says for which heads and which bytes after them this is what a decimal Content-Length asks for.
Imports: Waspp.Foundation.Numerals, Waspp.Proofs.RequestGrammar
Trusted boundary: none (fully proved)
Main exports: PostHead, LengthLaw, TakenAsWritten, remaining, run_content, parse_post, length_law_iff
Open obligations: none
-/
import Waspp.Foundation.Numerals
import Waspp.Proofs.RequestGrammar

namespace Waspp

open CString Incremental

/-- The head of a POST request up to its final LF, with the value of its first Content-Length header; a head
    with no such header has the empty value. -/
inductive PostHead : Bytes → Bytes → Prop where
  | intro {before : Bytes} {req : Request}
      (reads : parser.Reads (.start {}) before ⟨.expectingNewline3, req⟩)
      (post : req.method = bytes "POST") :
      PostHead (before ++ ['\n'.toUInt8]) (req.header (bytes "Content-Length")).1

/-- The value is a decimal numeral of a number below 2^31. -/
def IsLength (v : Bytes) (n : Nat) : Prop := Numeral v n ∧ n < 2 ^ 31

/-- What a head with this Content-Length and the bytes after it are to be parsed as: with a decimal length,
    the head and as many bytes, once they are there; with any other value, an invalid request. -/
def LengthLaw (head v tail : Bytes) : Prop :=
  let o := parse (.start {}) (head ++ tail)
  (∀ n body following, IsLength v n → tail = body ++ following → body.length = n →
    o.verdict = .yes ∧ o.consumed = head.length + n ∧ o.state.req.content = body) ∧
  ((∀ n, ¬ IsLength v n) → o.verdict = .no ∧ o.state.req.content = [])

/-- A decimal length is positive, has no leading zero or is below 8, and the first byte of the body is a
    token byte; any other value is empty, or followed by a byte that is no token byte. -/
def TakenAsWritten (v tail : Bytes) : Prop :=
  (∀ n, IsLength v n → n ≤ tail.length →
    0 < n ∧ (v.head? ≠ some '0'.toUInt8 ∨ n < 8) ∧ ∃ b, tail.head? = some b ∧ isToken b = true) ∧
  ((∀ n, ¬ IsLength v n) → v = [] ∨ ∃ b, tail.head? = some b ∧ isToken b = false)

/-! ### Counting down

The parser subtracts 1 from the length and compares with 0 afterwards, in an `int`.  `remaining` is how
many bytes that takes: the length itself when it is positive, and 2^32 minus its distance below 0
otherwise. -/

/-- How many bytes are taken until the count, decremented for each of them, is 0. -/
def remaining (count : Int) : Nat :=
  ((count - 1) % 2 ^ 32).toNat + 1

/-- A count matters modulo 2^32 only. -/
theorem wrapInt_emod (z : Int) : wrapInt z % 2 ^ 32 = z % 2 ^ 32 := Int.bmod_emod

/-- An `int` wraps to 0 exactly at the multiples of 2^32. -/
theorem wrapInt_eq_zero_iff {z : Int} : wrapInt z = 0 ↔ z % 2 ^ 32 = 0 := by
  rw [wrapInt, ← Int.dvd_iff_bmod_eq_zero]
  omega

/-- At 1 the count is over with the next byte. -/
theorem remaining_of_last {count : Int} (last : wrapInt (count - 1) = 0) : remaining count = 1 := by
  rw [remaining, wrapInt_eq_zero_iff.mp last]
  rfl

/-- Anywhere else it goes on from one less. -/
theorem remaining_of_more {count : Int} (more : wrapInt (count - 1) ≠ 0) :
    remaining count = remaining (wrapInt (count - 1)) + 1 := by
  have same := wrapInt_emod (count - 1)
  have positive := mt wrapInt_eq_zero_iff.mpr more
  unfold remaining
  omega

/-- A length that `strtol` has read from 0 to 2^31 - 1 is the number of bytes taken, unless it is 0. -/
theorem remaining_eq_iff {z : Int} {n : Nat} (low : 0 ≤ z) (high : z < 2 ^ 31) (fits : n < 2 ^ 31) :
    remaining (wrapInt z) = n ↔ 0 < n ∧ z = n := by
  have same := wrapInt_emod z
  unfold remaining
  omega

/-- What the parser does in its last state: it takes `remaining` bytes, whatever they are. -/
theorem run_content (req : Request) (tail : Bytes) :
    let o := parser.run ⟨.content, req⟩ tail
    if remaining req.contentLength ≤ tail.length then
      o.verdict = .yes ∧ o.consumed = remaining req.contentLength ∧
        o.state.req.content = req.content ++ tail.take (remaining req.contentLength)
    else o.verdict = .indeterminate := by
  induction tail generalizing req with
  | nil => simp [remaining]
  | cons b rest ih =>
      by_cases last : wrapInt (req.contentLength - 1) = 0
      · have act :
            ∃ p, parser.act ⟨.content, req⟩ b = .read .yes p ∧ p.req.content = req.content ++ [b] := by
          simp [parser, switchBody, last, headerLength, Request.header]
        obtain ⟨p, act, content⟩ := act
        simp [Machine.run_cons_yes act, remaining_of_last last, content]
      · have act : parser.act ⟨.content, req⟩ b = .read .indeterminate
            ⟨.content, { req with
              contentLength := wrapInt (req.contentLength - 1)
              content := req.content ++ [b] }⟩ := by
          simp [parser, switchBody, last]
        have others :=
          ih { req with contentLength := wrapInt (req.contentLength - 1), content := req.content ++ [b] }
        dsimp only at others ⊢
        rw [Machine.run_cons_indeterminate act, remaining_of_more last]
        simp only [List.length_cons, Nat.add_le_add_iff_right, Outcome.after_verdict, Outcome.after_consumed,
          Outcome.after_state, List.take_succ_cons]
        split at others
        · rename_i enough
          rw [if_pos enough]
          obtain ⟨yes, consumed, content⟩ := others
          exact ⟨yes, by omega, by simp [content]⟩
        · rename_i short
          rw [if_neg short]
          exact others

/-- What the start of the content does where the content does this: the last octet leaves it where it is. -/
def startAction : Action Parsing → Action Parsing
  | .read .yes p => .read .yes ⟨.contentStart, p.req⟩
  | action => action

/-- The first byte of a body is handled as the later ones, if it is a token. -/
theorem act_contentStart_token {req : Request} (empty : req.content = []) {b : UInt8}
    (token : isToken b = true) :
    parser.act ⟨.contentStart, req⟩ b = startAction (parser.act ⟨.content, req⟩ b) := by
  simp only [parser, switchBody, empty, isNotToken_eq, token]
  by_cases last : wrapInt (req.contentLength - 1) = 0 <;> simp [last, startAction]

/-- In the state before, the first byte has to be a token byte, and is then counted like the others. -/
theorem run_contentStart {req : Request} (empty : req.content = []) {b : UInt8} (rest : Bytes) :
    let o := parser.run ⟨.contentStart, req⟩ (b :: rest)
    let o' := parser.run ⟨.content, req⟩ (b :: rest)
    if isToken b then o.verdict = o'.verdict ∧ o.consumed = o'.consumed ∧ o.state.req = o'.state.req
    else o.verdict = .no ∧ o.state.req = req := by
  cases token : isToken b with
  | false =>
      have act : parser.act ⟨.contentStart, req⟩ b = .read .no ⟨.contentStart, req⟩ := by
        simp [parser, switchBody, empty, isNotToken_eq, token]
      simp [Machine.run_cons_no act]
  | true =>
      have same := act_contentStart_token empty token
      cases act : parser.act ⟨.content, req⟩ b with
      | refuse => simp [Machine.run_cons_refuse act,
          Machine.run_cons_refuse (same.trans (congrArg startAction act))]
      | read verdict p =>
          rw [act] at same
          cases verdict with
          | yes => simp [Machine.run_cons_yes act, Machine.run_cons_yes same]
          | no => simp [Machine.run_cons_no act, Machine.run_cons_no same]
          | indeterminate => simp [Machine.run_cons_indeterminate act, Machine.run_cons_indeterminate same]

/-! ### The head

Up to the empty line nothing is counted: the parser only collects the header that has the length. -/

/-- No byte of the content has been read yet, unless the parser is in its last state. -/
def Unread (p : Parsing) : Prop := p.state_ ≠ .content → p.req.content = []

/-- A byte of the head leaves the length unread. -/
theorem Unread.act {p q : Parsing} {b : UInt8} (unread : Unread p)
    (act : parser.act p b = .read .indeterminate q) : Unread q := by
  refine of_act (P := fun verdict q => verdict = .indeterminate → Unread q) act ?_ rfl
  obtain ⟨state_, req⟩ := p
  cases state_ <;> simp_all [switchBody, headerLength, Request.header, Unread]

theorem Unread.reads {p q : Parsing} {u : Bytes} (unread : Unread p) (reads : parser.Reads p u q) :
    Unread q :=
  reads.invariant unread fun _ _ _ _ unread act => unread.act act

/-- How `parse` answers a POST head and the bytes after it. -/
inductive PostAnswer (head v : Bytes) : Bytes → Outcome Parsing → Prop where
  /-- No Content-Length. -/
  | missing {tail : Bytes} {o : Outcome Parsing} (absent : v = []) (no : o.verdict = .no)
      (content : o.state.req.content = []) : PostAnswer head v tail o
  /-- The head alone. -/
  | open_ {o : Outcome Parsing} (present : v ≠ []) (more : o.verdict = .indeterminate) :
      PostAnswer head v [] o
  /-- A body that does not begin with a token byte. -/
  | refused {b : UInt8} {rest : Bytes} {o : Outcome Parsing} (present : v ≠ []) (other : isToken b = false)
      (no : o.verdict = .no) (content : o.state.req.content = []) : PostAnswer head v (b :: rest) o
  /-- The bytes counted. -/
  | complete {b : UInt8} {rest : Bytes} {o : Outcome Parsing} (present : v ≠ []) (token : isToken b = true)
      (enough : remaining (wrapInt (strtol v)) ≤ (b :: rest).length) (yes : o.verdict = .yes)
      (consumed : o.consumed = head.length + remaining (wrapInt (strtol v)))
      (content : o.state.req.content = (b :: rest).take (remaining (wrapInt (strtol v)))) :
      PostAnswer head v (b :: rest) o
  /-- Not yet as many. -/
  | short {b : UInt8} {rest : Bytes} {o : Outcome Parsing} (present : v ≠ []) (token : isToken b = true)
      (few : (b :: rest).length < remaining (wrapInt (strtol v))) (more : o.verdict = .indeterminate) :
      PostAnswer head v (b :: rest) o

/-- The answer after the head, seen from the first byte of the request. -/
theorem PostAnswer.of_after {before head v tail : Bytes} {o : Outcome Parsing}
    (answer : PostAnswer head v tail o) : PostAnswer (before ++ head) v tail (o.after before.length) := by
  cases answer with
  | missing absent no content => exact .missing absent no content
  | open_ present more => exact .open_ present more
  | refused present other no content => exact .refused present other no content
  | complete present token enough yes consumed content =>
      refine .complete present token enough yes ?_ content
      rw [Outcome.after_consumed, consumed, List.length_append, Nat.add_assoc]
  | short present token few more => exact .short present token few more

/-- At the final LF a POST without a length is rejected. -/
theorem act_final_of_missing {req : Request} (post : req.method = bytes "POST")
    (absent : (req.header (bytes "Content-Length")).1 = []) :
    parser.act ⟨.expectingNewline3, req⟩ '\n'.toUInt8 =
      .read .no ⟨.expectingNewline3, (req.header (bytes "Content-Length")).2⟩ := by
  simp only [parser, switchBody, post, absent]
  rfl

/-- One with a length is read on, with the number that it denotes. -/
theorem act_final_of_present {req : Request} (post : req.method = bytes "POST")
    (present : (req.header (bytes "Content-Length")).1 ≠ []) :
    ∃ q, parser.act ⟨.expectingNewline3, req⟩ '\n'.toUInt8 = .read .indeterminate ⟨.contentStart, q⟩ ∧
      q.content = req.content ∧
        q.contentLength = wrapInt (strtol (req.header (bytes "Content-Length")).1) := by
  have given : (req.header (bytes "Content-Length")).1.isEmpty = false := by simpa using present
  simp only [parser, switchBody, post, given]
  refine ⟨_, rfl, rfl, ?_⟩
  simp [headerLength, Request.header]

/-- From the final LF on. -/
theorem run_expectingNewline3 {req : Request} (post : req.method = bytes "POST") (empty : req.content = [])
    (tail : Bytes) :
    PostAnswer ['\n'.toUInt8] (req.header (bytes "Content-Length")).1 tail
      (parser.run ⟨.expectingNewline3, req⟩ ('\n'.toUInt8 :: tail)) := by
  by_cases absent : (req.header (bytes "Content-Length")).1 = []
  · rw [Machine.run_cons_no (act_final_of_missing post absent)]
    exact .missing absent rfl empty
  · obtain ⟨q, act, content, length⟩ := act_final_of_present post absent
    rw [empty] at content
    rw [Machine.run_cons_indeterminate act]
    apply @PostAnswer.of_after ['\n'.toUInt8] []
    cases tail with
    | nil => exact .open_ absent rfl
    | cons b rest =>
        have start := run_contentStart content rest (b := b)
        have counted := run_content q (b :: rest)
        rw [length, content, List.nil_append] at counted
        cases token : isToken b with
        | false =>
            simp only [token] at start
            exact .refused absent token start.1 (by rw [start.2, content])
        | true =>
            simp only [token, if_true] at start
            obtain ⟨verdict, consumed, same⟩ := start
            split at counted
            · rename_i enough
              obtain ⟨yes, bytesTaken, body⟩ := counted
              exact .complete absent token enough (verdict.trans yes) (by rw [consumed, bytesTaken]; simp)
                (by rw [same, body])
            · rename_i few
              exact .short absent token (by omega) (verdict.trans counted)

/-- What a call of `parse` answers to a POST head and what follows it. -/
theorem parse_post {head v : Bytes} (post : PostHead head v) (tail : Bytes) :
    PostAnswer head v tail (parse (.start {}) (head ++ tail)) := by
  cases post with
  | @intro before req reads post =>
      have empty : req.content = [] := Unread.reads (fun _ => rfl) reads (by simp)
      have open_ : (parser.run (.start {}) before).verdict = .indeterminate := by rw [reads]
      have state : (parser.run (.start {}) before).state = ⟨.expectingNewline3, req⟩ := by rw [reads]
      rw [parse_eq_run, List.append_assoc, List.singleton_append, Machine.run_append_of_indeterminate open_,
        state]
      exact (run_expectingNewline3 post empty tail).of_after

/-! ### When the length decides -/

/-- `parse` takes a Content-Length at its word exactly when a decimal one is positive, has no leading zero or
    is below 8, and a token byte follows, and any other one is empty or followed by a byte that is no token
    byte. -/
theorem length_law_iff {head v : Bytes} (post : PostHead head v) (tail : Bytes) :
    LengthLaw head v tail ↔ TakenAsWritten v tail := by
  have answer := parse_post post tail
  unfold LengthLaw TakenAsWritten
  generalize parse (.start {}) (head ++ tail) = o at answer ⊢
  constructor
  · rintro ⟨decimal, other⟩
    constructor
    · intro n isLength enough
      have nonempty : v ≠ [] := isLength.1.nonempty
      obtain ⟨yes, consumed, -⟩ := decimal n (tail.take n) (tail.drop n) isLength (by simp)
        (List.length_take_of_le enough)
      cases answer with
      | missing absent => exact absurd absent nonempty
      | open_ _ more => simp [more] at yes
      | refused _ _ no => simp [no] at yes
      | short _ _ _ more => simp [more] at yes
      | complete _ token _ _ bytesTaken =>
          have range := strtol_numeral_le isLength.1
          have fits := isLength.2
          have count : remaining (wrapInt (strtol v)) = n := by omega
          obtain ⟨positive, read⟩ := (remaining_eq_iff range.1 (by omega) fits).mp count
          exact ⟨positive, (strtol_numeral_eq_iff isLength.1 fits).mp read, _, rfl, token⟩
    · intro noLength
      obtain ⟨no, -⟩ := other noLength
      cases answer with
      | missing absent => exact .inl absent
      | open_ _ more => simp [more] at no
      | refused _ isOther => exact .inr ⟨_, rfl, isOther⟩
      | complete _ _ _ yes => simp [yes] at no
      | short _ _ _ more => simp [more] at no
  · rintro ⟨decimal, other⟩
    constructor
    · intro n body following isLength cut length
      have enough : n ≤ tail.length := by simp [cut, length]
      obtain ⟨positive, plain, b, first, token⟩ := decimal n isLength enough
      have range := strtol_numeral_le isLength.1
      have fits := isLength.2
      have read := (strtol_numeral_eq_iff isLength.1 fits).mpr plain
      have count := (remaining_eq_iff range.1 (by omega) fits).mpr ⟨positive, read⟩
      cases answer with
      | missing absent => exact absurd absent isLength.1.nonempty
      | open_ => simp at first
      | refused _ isOther =>
          cases first
          simp [isOther] at token
      | complete _ _ _ yes consumed content =>
          rw [count] at consumed content
          exact ⟨yes, consumed, by rw [content, cut, ← length, List.take_left]⟩
      | short _ _ few => omega
    · intro noLength
      have refusal := other noLength
      cases answer with
      | missing _ no content => exact ⟨no, content⟩
      | open_ present =>
          rcases refusal with absent | ⟨b, first, -⟩
          · exact absurd absent present
          · simp at first
      | refused _ _ no content => exact ⟨no, content⟩
      | complete present token | short present token =>
          rcases refusal with absent | ⟨b, first, isOther⟩
          · exact absurd absent present
          · cases first
            simp [isOther] at token

/-- A POST head with this value of Content-Length. -/
def postHead (v : Bytes) : Bytes :=
  bytes "POST / HTTP/1.1\r\nContent-Length: " ++ v ++ bytes "\r\n\r" ++ ['\n'.toUInt8]

/-- What the parser has made of it. -/
def postRequest (v : Bytes) : Request :=
  { method := bytes "POST"
    uri := bytes "/"
    httpVersionMajor := 1
    httpVersionMinor := 1
    headers := [{ name := bytes "Content-Length", value := v }] }

/-- A run that stops before the last byte of the head gives the head of a request with a length. -/
theorem postHead_of_run {v : Bytes}
    (run : parser.run (.start {}) (bytes "POST / HTTP/1.1\r\nContent-Length: " ++ v ++ bytes "\r\n\r") =
      ⟨.indeterminate, ⟨.expectingNewline3, postRequest v⟩,
        (bytes "POST / HTTP/1.1\r\nContent-Length: " ++ v ++ bytes "\r\n\r").length⟩) :
    PostHead (postHead v) v := by
  have value : ((postRequest v).header (bytes "Content-Length")).1 = v := by
    simp [Request.header, postRequest, NameValue.valueOf_cons]
  have post := PostHead.intro run rfl
  rwa [value] at post

/-- A POST request with `Content-Length: 0` is not complete at the end of its head, and one with
    `Content-Length: 010` is taken to end after 8 of its 10 bytes. -/
theorem lengths_misread :
    (PostHead (postHead (bytes "0")) (bytes "0") ∧ ¬ LengthLaw (postHead (bytes "0")) (bytes "0") []) ∧
    PostHead (postHead (bytes "010")) (bytes "010") ∧
      ¬ LengthLaw (postHead (bytes "010")) (bytes "010") (bytes "abcdefghij") := by
  refine ⟨⟨postHead_of_run (by decide +kernel), fun law => ?_⟩, postHead_of_run (by decide +kernel),
    fun law => ?_⟩
  · have zero : IsLength (bytes "0") 0 := ⟨⟨by decide, by decide +kernel, by decide⟩, by decide⟩
    obtain ⟨yes, -⟩ := law.1 0 [] [] zero rfl rfl
    exact absurd yes (by decide +kernel)
  · have ten : IsLength (bytes "010") 10 := ⟨⟨by decide, by decide +kernel, by decide⟩, by decide⟩
    obtain ⟨-, consumed, -⟩ := law.1 10 (bytes "abcdefghij") [] ten (by simp) (by decide)
    exact absurd consumed (by decide +kernel)

theorem length_law_iff_three :
    PostHead (postHead (bytes "3")) (bytes "3") ∧
      (LengthLaw (postHead (bytes "3")) (bytes "3") (bytes "abcGET") ↔
        TakenAsWritten (bytes "3") (bytes "abcGET")) :=
  ⟨postHead_of_run (by decide +kernel), length_law_iff (postHead_of_run (by decide +kernel)) _⟩

end Waspp
