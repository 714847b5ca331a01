/-
Module: Waspp.Proofs.HeadReading
Layer: Proofs
Purpose: How the head of a request of any method is read, up to the final LF, which is the first byte to
  depend on the method.  Behind the method the parser works alike for all of them, so what is known of the
  accepted GET requests holds of every head; and in the header lines it works alike for all spellings of
  one text.
Imports: Waspp.Proofs.RequestGrammar
Trusted boundary: none (fully proved)
Main exports: RequestLine, version_of_start, reads_head, head_of_reads, lines_of_reads, run_headers_respelled
Open obligations: none
-/
import Waspp.Proofs.RequestGrammar

namespace Waspp

open CString Incremental

/-! ### The head and the method

States are sorted by what part of a request they are in.  Within the head of a GET nothing is accepted
before the empty line, and a method other than the two is refused there. -/

/-- The states from the method's blank to the last header line. -/
def ParserState.inHead : ParserState → Bool
  | methodStart | method | expectingNewline3 | contentStart | content => false
  | _ => true

/-- The parser on the request with another method. -/
def Parsing.withMethod (p : Parsing) (method : Bytes) :
    Parsing := ⟨p.state_, { p.req with method := method }⟩

/-- In the head no byte is read with a look at the method. -/
theorem act_withMethod {p : Parsing} (inside : p.state_.inHead = true) (method : Bytes) (b : UInt8) :
    parser.act (p.withMethod method) b = (parser.act p b).map (·.withMethod method) := by
  refine @act_map (fun req => { req with method := method }) p b b ?_
  obtain ⟨state_, req⟩ := p
  cases state_ <;> simp only [ParserState.inHead, Bool.false_eq_true] at inside <;>
    simp only [switchBody] <;> (repeat' split) <;> rfl

/-- From the head the parser goes on in the head or to the final LF, if it goes on. -/
theorem act_inHead {p q : Parsing} (inside : p.state_.inHead = true) {b : UInt8} {verdict : Tribool}
    (act : parser.act p b = .read verdict q) :
    verdict = .no ∨ verdict = .indeterminate ∧ (q.state_.inHead = true ∨ q.state_ = .expectingNewline3) := by
  refine of_act
    (P := fun verdict q => verdict = .no ∨
      verdict = .indeterminate ∧ (q.state_.inHead = true ∨ q.state_ = .expectingNewline3)) act ?_
  obtain ⟨state_, req⟩ := p
  cases state_ <;> simp_all [switchBody, ParserState.inHead]

/-- From the final LF on the parser is in the body. -/
theorem act_body {p q : Parsing} {b : UInt8}
    (behind : p.state_ = .expectingNewline3 ∨ p.state_ = .contentStart ∨ p.state_ = .content)
    (act : parser.act p b = .read .indeterminate q) : q.state_ = .contentStart ∨ q.state_ = .content := by
  refine of_act
    (P := fun verdict q => verdict = .indeterminate → q.state_ = .contentStart ∨ q.state_ = .content) act ?_
      rfl
  obtain ⟨state_, req⟩ := p
  rcases behind with same | same | same <;> simp only at same <;> subst same <;>
    simp [switchBody, headerLength, Request.header]

/-- Bytes behind the head are those of a body. -/
theorem reads_body {p q : Parsing} {b : UInt8} {u : Bytes}
    (behind : p.state_ = .expectingNewline3 ∨ p.state_ = .contentStart ∨ p.state_ = .content)
    (reads : parser.Reads p (b :: u) q) : q.state_ = .contentStart ∨ q.state_ = .content := by
  obtain ⟨t, act, later⟩ := reads.cons_inv
  refine later.invariant (P := fun q => q.state_ = .contentStart ∨ q.state_ = .content) (act_body behind act)
    ?_
  intro _ _ _ _ body act
  exact act_body (Or.inr body) act

/-- A head is read with any method as it is with another. -/
theorem reads_withMethod {p q : Parsing} {u : Bytes} (reads : parser.Reads p u q)
    (inside : p.state_.inHead = true) (last : q.state_.inHead = true ∨ q.state_ = .expectingNewline3)
    (method : Bytes) :
    parser.Reads (p.withMethod method) u (q.withMethod method) := by
  induction u generalizing p with
  | nil =>
      obtain ⟨-, rfl, -⟩ := Outcome.mk.inj reads
      exact Machine.Reads.refl _
  | cons b u ih =>
      obtain ⟨t, act, later⟩ := reads.cons_inv
      have act' : parser.act (p.withMethod method) b = .read .indeterminate (t.withMethod method) := by
        rw [act_withMethod inside, act]
        rfl
      rw [Machine.reads_cons_of_indeterminate act']
      rcases act_inHead inside act with no | ⟨-, still | final⟩
      · cases no
      · exact ih later still
      · cases u with
        | nil =>
            obtain ⟨-, rfl, -⟩ := Outcome.mk.inj later
            exact Machine.Reads.refl _
        | cons c u =>
            have body := reads_body (Or.inl final) later
            rcases last with inHead | final'
            · rcases body with same | same <;> simp [same, ParserState.inHead] at inHead
            · rcases body with same | same <;> simp [same] at final'

/-- A GET is accepted at the final LF. -/
theorem accepts_of_reads_head {p : Parsing} {u : Bytes} {req : Request}
    (reads : parser.Reads p u ⟨.expectingNewline3, req⟩)
    (get : req.method = bytes "GET") : parser.Accepts p (u ++ ['\n'.toUInt8]) ⟨.expectingNewline3, req⟩ := by
  rw [reads.accepts_append_iff]
  exact (accepts_expectingNewline3_iff get _ _).mpr ⟨rfl, rfl⟩

/-- An accepted GET ends with its head. -/
theorem reads_of_accepts_head {p q : Parsing} {w : Bytes} (inside : p.state_.inHead = true)
    (get : p.req.method = bytes "GET") (accepted : parser.Accepts p w q) :
    ∃ u, w = u ++ ['\n'.toUInt8] ∧ parser.Reads p u q ∧ q.state_ = .expectingNewline3 := by
  induction w generalizing p with
  | nil => exact absurd accepted Machine.not_accepts_nil
  | cons b w ih =>
      cases act : parser.act p b with
      | refuse => exact absurd accepted (Machine.not_accepts_cons_of_refuse act)
      | read verdict t =>
          rcases act_inHead inside act with rfl | ⟨rfl, next⟩
          · exact absurd accepted (Machine.not_accepts_cons_of_no act)
          · rw [Machine.accepts_cons_of_indeterminate act] at accepted
            have get' : t.req.method = bytes "GET" := by
              rw [(switchBody_keeps_method act (by cases h : p.state_ <;> simp_all [ParserState.inHead])).1,
                get]
            rcases next with still | final
            · obtain ⟨u, rfl, reads, last⟩ := ih still get' accepted
              exact ⟨b :: u, rfl, (Machine.reads_cons_of_indeterminate act).mpr reads, last⟩
            · obtain ⟨state_, req⟩ := t
              simp only at final get'
              subst final
              obtain ⟨rfl, rfl⟩ := (accepts_expectingNewline3_iff get' _ _).mp accepted
              exact ⟨[b], rfl, Machine.Reads.single act, rfl⟩

/-! ### The request line

Up to the first line break no header is collected. -/

/-- A request line of any method, without its line end. -/
inductive RequestLine : Bytes → Bytes → Bytes → List NameValue → Int → Int → Prop where
  | intro {method target major minor : Bytes} {params : List NameValue} (name : Name method)
      (targetText : TargetText target params) (majorDigits : Digits major) (minorDigits : Digits minor) :
      RequestLine (method ++ ' '.toUInt8 :: (target ++ bytes " HTTP/" ++ major ++ bytes "." ++ minor)) method
      target params
        (versionNumber major) (versionNumber minor)

/-- The request behind a head. -/
def headRequest (req : Request) (method target : Bytes) (params : List NameValue) (major minor : Int)
    (headers : List NameValue) : Request :=
  { getRequest req target params major minor headers with method := method }

/-- The states of the request line. -/
def ParserState.inLine : ParserState → Bool
  | headerLineStart | headerLws | headerName | spaceBeforeHeaderValue | headerValue | expectingNewline2
  | expectingNewline3 | contentStart | content => false
  | _ => true

/-- No header is added in the request line, and no other byte than an LF ends it. -/
theorem act_inLine {p q : Parsing} (inside : p.state_.inLine = true) {b : UInt8} {verdict : Tribool}
    (act : parser.act p b = .read verdict q) :
    q.req.headers = p.req.headers ∧ (b ≠ '\n'.toUInt8 → q.state_.inLine = true) := by
  refine of_act
    (P := fun _ q => q.req.headers = p.req.headers ∧ (b ≠ '\n'.toUInt8 → q.state_.inLine = true)) act ?_
  obtain ⟨state_, req⟩ := p
  cases state_ <;> simp_all [switchBody, ParserState.inLine]

/-- An LF is refused there, or it ends the line. -/
theorem act_newline {p q : Parsing} (inside : p.state_.inLine = true)
    (act : parser.act p '\n'.toUInt8 = .read .indeterminate q) : q.state_ = .headerLineStart := by
  have refused : isNotToken '\n'.toUInt8 = true ∧ isCtl (charInt '\n'.toUInt8) = true ∧
      isDigit (charInt '\n'.toUInt8) = false := by
    decide +kernel
  have others : ('\n'.toUInt8 == ' '.toUInt8) = false ∧ ('\n'.toUInt8 == '?'.toUInt8) = false ∧
      ('\n'.toUInt8 == '='.toUInt8) = false ∧ ('\n'.toUInt8 == '&'.toUInt8) = false ∧
      ('\n'.toUInt8 == 'H'.toUInt8) = false ∧ ('\n'.toUInt8 == 'T'.toUInt8) = false ∧
      ('\n'.toUInt8 == 'P'.toUInt8) = false ∧ ('\n'.toUInt8 == '/'.toUInt8) = false ∧
      ('\n'.toUInt8 == '.'.toUInt8) = false ∧ ('\n'.toUInt8 == '\r'.toUInt8) = false := by
    decide +kernel
  refine of_act (P := fun verdict q => verdict = .indeterminate → q.state_ = .headerLineStart) act ?_ rfl
  obtain ⟨state_, req⟩ := p
  cases state_ <;> simp only [ParserState.inLine, Bool.false_eq_true] at inside <;>
    simp only [switchBody, refused, others, Bool.false_eq_true, if_false, if_true, beq_self_eq_true] <;>
    simp

/-- Reading in the first line leaves the headers and stays in the line. -/
theorem reads_inLine {p q : Parsing} {u : Bytes} (reads : parser.Reads p u q)
    (inside : p.state_.inLine = true)
    (noNewline : '\n'.toUInt8 ∉ u) : q.req.headers = p.req.headers ∧ q.state_.inLine = true := by
  refine reads.invariant (P := fun q => q.req.headers = p.req.headers ∧ q.state_.inLine = true)
    ⟨rfl, inside⟩ ?_
  rintro b member t t' ⟨same, inside⟩ act
  obtain ⟨same', still⟩ := act_inLine inside act
  refine ⟨same'.trans same, still ?_⟩
  rintro rfl
  exact noNewline member

/-- A first line that the parser reads brings it to the header lines. -/
theorem state_of_reads_line {req : Request} {line : Bytes} (noNewline : '\n'.toUInt8 ∉ line) {q : Parsing}
    (reads : parser.Reads (.start req) (line ++ crlf) q) :
    q.state_ = .headerLineStart ∧ q.req.headers = req.headers := by
  have shape : line ++ crlf = (line ++ ['\r'.toUInt8]) ++ ['\n'.toUInt8] := by simp [crlf]
  rw [shape] at reads
  obtain ⟨t, front, last⟩ := reads.append_inv
  have noNewline' : '\n'.toUInt8 ∉ line ++ ['\r'.toUInt8] := by
    rw [List.mem_append, not_or]
    exact ⟨noNewline, by decide⟩
  obtain ⟨same, inside⟩ := reads_inLine front rfl noNewline'
  obtain ⟨t', act, done⟩ := last.cons_inv
  obtain ⟨-, rfl, -⟩ := Outcome.mk.inj done
  exact ⟨act_newline inside act, (act_inLine inside act).1.trans same⟩

/-- The method is read up to its blank. -/
theorem method_of_reads {r : Request} {w : Bytes} {q : Parsing} (reads : parser.Reads ⟨.method, r⟩ w q)
    (out : q.state_ ≠ .method) :
    ∃ n v, w = n ++ ' '.toUInt8 :: v ∧ (∀ b ∈ n, isToken b = true) ∧
      parser.Reads ⟨.uri, { r with method := r.method ++ n }⟩ v q := by
  induction w generalizing r with
  | nil =>
      obtain ⟨-, rfl, -⟩ := Outcome.mk.inj reads
      exact absurd rfl out
  | cons b w ih =>
      obtain ⟨t, act, later⟩ := reads.cons_inv
      by_cases blank : b = ' '.toUInt8
      · subst blank
        have next : t = ⟨.uri, r⟩ := by
          simp only [parser, switchBody] at act
          simp at act
          exact act.symm
        subst next
        exact ⟨[], w, rfl, by simp, by simpa using later⟩
      · cases token : isToken b with
        | false => simp [parser, switchBody, blank, isNotToken_eq, token] at act
        | true =>
            have next : t = ⟨.method, { r with method := r.method ++ [b] }⟩ := by
              simp [parser, switchBody, blank, isNotToken_eq, token] at act
              exact act.symm
            subst next
            obtain ⟨n, v, rfl, tokens, behind⟩ := ih later
            exact ⟨b :: n, v, rfl, by simpa [token] using tokens, by simpa using behind⟩

/-- The bytes of a method are collected up to the blank. -/
theorem reads_method {r : Request} {n : Bytes} (tokens : ∀ b ∈ n, isToken b = true) :
    parser.Reads ⟨.method, r⟩ (n ++ [' '.toUInt8]) ⟨.uri, { r with method := r.method ++ n }⟩ := by
  induction n generalizing r with
  | nil =>
      have act : parser.act ⟨.method, r⟩ ' '.toUInt8 = .read .indeterminate ⟨.uri, r⟩ := by
        simp [parser, switchBody]
      simpa using Machine.Reads.single act
  | cons b n ih =>
      rw [List.forall_mem_cons] at tokens
      have blank : b ≠ ' '.toUInt8 := ne_of_isToken tokens.1 (by decide)
      have act : parser.act ⟨.method, r⟩ b = .read .indeterminate ⟨.method,
          { r with method := r.method ++ [b] }⟩ := by
        simp [parser, switchBody, blank, isNotToken_eq, tokens.1]
      rw [List.cons_append, Machine.reads_cons_of_indeterminate act]
      simpa using @ih { r with method := r.method ++ [b] } tokens.2

/-- The first byte of a method. -/
theorem act_methodStart {req : Request} {b : UInt8} (token : isToken b = true) :
    parser.act (.start req) b = .read .indeterminate ⟨.method,
      { req with method := req.method ++ [b] }⟩ := by
  simp [parser, switchBody, Parsing.start, isNotToken_eq, token]

/-- Every method is read from the start. -/
theorem reads_start_method {req : Request} (fresh : req.Fresh) {method : Bytes} (name : Name method) :
    parser.Reads (.start req) (method ++ [' '.toUInt8]) ⟨.uri, { req with method := method }⟩ := by
  cases method with
  | nil => exact absurd rfl name.nonempty
  | cons b n =>
      have tokens := List.forall_mem_cons.mp name.token
      have whole := (Machine.reads_cons_of_indeterminate (act_methodStart tokens.1)).mpr
        (reads_method (r := { req with method := req.method ++ [b] }) tokens.2)
      rw [fresh.method] at whole
      exact whole

/-- What the parser reads from the start begins with a method. -/
theorem method_of_start {req : Request} (fresh : req.Fresh) {w : Bytes} {q : Parsing}
    (reads : parser.Reads (.start req) w q) (nonempty : w ≠ []) (out : q.state_ ≠ .method) :
    ∃ n v, w = n ++ ' '.toUInt8 :: v ∧ Name n ∧ parser.Reads ⟨.uri, { req with method := n }⟩ v q := by
  cases w with
  | nil => exact absurd rfl nonempty
  | cons b w =>
      obtain ⟨t, act, later⟩ := reads.cons_inv
      cases token : isToken b with
      | false => simp [parser, switchBody, Parsing.start, isNotToken_eq, token] at act
      | true =>
          rw [act_methodStart token] at act
          cases act
          obtain ⟨n, v, rfl, tokens, behind⟩ := method_of_reads later out
          refine ⟨b :: n, v, rfl, ⟨by simp, by simpa [token] using tokens⟩, ?_⟩
          simpa [fresh.method] using behind

/-! ### The target -/

/-- The states of the target. -/
def ParserState.inTarget : ParserState → Bool
  | uri | paramNameStart | paramName | paramValue => true
  | _ => false

/-- A blank ends the target, and nothing else does; no header is added there. -/
theorem act_inTarget {p q : Parsing} (inside : p.state_.inTarget = true) {b : UInt8}
    (act : parser.act p b = .read .indeterminate q) :
    q.req.headers = p.req.headers ∧ (b ≠ ' '.toUInt8 → q.state_.inTarget = true) := by
  refine of_act
    (P := fun verdict q => verdict = .indeterminate →
      q.req.headers = p.req.headers ∧ (b ≠ ' '.toUInt8 → q.state_.inTarget = true)) act ?_ rfl
  obtain ⟨state_, req⟩ := p
  cases state_ <;> simp_all [switchBody, ParserState.inTarget]

/-- A blank ends the target. -/
theorem act_blank_inTarget {p : Parsing} (inside : p.state_.inTarget = true) :
    parser.act p ' '.toUInt8 = .read .indeterminate ⟨.httpVersionH, p.req⟩ := by
  obtain ⟨state_, req⟩ := p
  cases state_ <;> simp only [ParserState.inTarget, Bool.false_eq_true] at inside <;>
    simp [parser, switchBody, show ' '.toUInt8 ≠ '?'.toUInt8 by decide]

/-- Reading in the target leaves the headers and stays in the target. -/
theorem reads_inTarget {p q : Parsing} {u : Bytes} (reads : parser.Reads p u q)
    (inside : p.state_.inTarget = true)
    (noBlank : ' '.toUInt8 ∉ u) : q.req.headers = p.req.headers ∧ q.state_.inTarget = true := by
  refine reads.invariant (P := fun q => q.req.headers = p.req.headers ∧ q.state_.inTarget = true)
    ⟨rfl, inside⟩ ?_
  rintro b member t t' ⟨same, inside⟩ act
  obtain ⟨same', still⟩ := act_inTarget inside act
  exact ⟨same'.trans same, still fun blank => noBlank (blank ▸ member)⟩

/-- A version, the line end and the empty line are accepted behind the target of a GET. -/
theorem accepts_versionText {req : Request} (get : req.method = bytes "GET") (empty : req.headers = []) :
    parser.Accepts ⟨.httpVersionH, req⟩ (bytes "HTTP/0.0" ++ crlf ++ crlf)
      ⟨.expectingNewline3, { req with httpVersionMajor := 0, httpVersionMinor := 0 }⟩ := by
  have zero : Digits (bytes "0") := ⟨by decide, by decide +kernel⟩
  refine (accepts_version_iff req _ _).mpr ⟨bytes "0", bytes "0", crlf, by simp [bytes], zero, zero, ?_⟩
  have noLines := LinesText.done.accepts
    { req with
      httpVersionMajor := versionNumber (bytes "0")
      httpVersionMinor := versionNumber (bytes "0") } get
  simpa [empty, show versionNumber (bytes "0") = 0 by decide] using noLines

/-- What is read of a target without a blank is a target. -/
theorem target_of_reads {req : Request} (empty : req.headers = []) {t : Bytes} (noBlank : ' '.toUInt8 ∉ t)
    {q : Parsing} (reads : parser.Reads ⟨.uri, req⟩ t q) : ∃ params, TargetText t params := by
  obtain ⟨same, inside⟩ := reads_inTarget reads rfl noBlank
  have toVersion := reads.trans (Machine.Reads.single (act_blank_inTarget inside))
  have asGet := reads_withMethod toVersion rfl (Or.inl rfl) (bytes "GET")
  have noHeaders : q.req.headers = [] := same.trans empty
  have accepted := asGet.accepts_append_iff.mpr
    (@accepts_versionText { q.req with method := bytes "GET" } rfl noHeaders)
  obtain ⟨target, params, v, shape, text, -⟩ := (accepts_target_iff _ _ _).mp accepted
  rw [List.append_assoc, List.singleton_append] at shape
  have rest : ' '.toUInt8 ∉ bytes "HTTP/0.0" ++ crlf ++ crlf := by decide
  obtain ⟨rfl, -, -⟩ := (List.append_cons_inj_of_notMem noBlank rest).mp shape
  exact ⟨params, text⟩

/-- Every target is read. -/
theorem reads_target {req : Request} (empty : req.headers = []) {target : Bytes} {params : List NameValue}
    (text : TargetText target params) :
    ∃ r, parser.Reads ⟨.uri, req⟩ (target ++ [' '.toUInt8]) ⟨.httpVersionH, r⟩ := by
  have accepted := (accepts_target_iff { req with method := bytes "GET" } _ _).mpr
    ⟨target, params, _, rfl, text, accepts_versionText rfl empty⟩
  obtain ⟨u, shape, reads, -⟩ := reads_of_accepts_head rfl rfl accepted
  have here : u = target ++ ' '.toUInt8 :: (bytes "HTTP/0.0" ++ crlf ++ ['\r'.toUInt8]) := by
    have cut : (target ++ ' '.toUInt8 :: (bytes "HTTP/0.0" ++ crlf ++ ['\r'.toUInt8])) ++ ['\n'.toUInt8] =
        u ++ ['\n'.toUInt8] := by
      rw [← shape]
      simp [crlf]
    exact (List.append_cancel_right cut).symm
  subst here
  obtain ⟨q, atBlank, -⟩ := reads.append_inv
  obtain ⟨-, inside⟩ := reads_inTarget atBlank rfl fun member => (text.visible _ member).2 rfl
  have toVersion := atBlank.trans (Machine.Reads.single (act_blank_inTarget inside))
  exact ⟨_, reads_withMethod toVersion rfl (Or.inl rfl) req.method⟩

/-- What the parser reads beyond the target begins with a method and a target. -/
theorem version_of_start {req : Request} (fresh : req.Fresh) {u : Bytes} {q : Parsing}
    (reads : parser.Reads (.start req) u q) (beyond : q.state_.beforeVersion = false) :
    ∃ method target params v r, u = method ++ ' '.toUInt8 :: (target ++ ' '.toUInt8 :: v) ∧ Name method ∧
      TargetText target params ∧ parser.Reads ⟨.httpVersionH, r⟩ v q := by
  have nonempty : u ≠ [] := by
    rintro rfl
    obtain ⟨-, rfl, -⟩ := Outcome.mk.inj reads
    cases beyond
  have notMethod : q.state_ ≠ .method := by
    intro same
    rw [same] at beyond
    cases beyond
  obtain ⟨method, w, rfl, name, atTarget⟩ := method_of_start fresh reads nonempty notMethod
  by_cases blank : ' '.toUInt8 ∈ w
  · obtain ⟨t, v, rfl, noBlank⟩ := List.eq_append_cons_of_mem blank
    obtain ⟨p, atBlank, later⟩ := atTarget.append_inv
    obtain ⟨params, text⟩ := @target_of_reads { req with method := method } fresh.headers _ noBlank _ atBlank
    obtain ⟨-, inside⟩ := reads_inTarget atBlank rfl noBlank
    have behind := (Machine.reads_cons_of_indeterminate (act_blank_inTarget inside)).mp later
    exact ⟨method, t, params, v, p.req, rfl, name, text, behind⟩
  · obtain ⟨-, inside⟩ := reads_inTarget atTarget rfl blank
    cases state : q.state_ <;> simp [state, ParserState.inTarget, ParserState.beforeVersion] at inside beyond

/-! ### The first line -/

/-- Behind the method no byte that is read changes it. -/
theorem method_of_reads_uri {r : Request} {u : Bytes} {q : Parsing} (reads : parser.Reads ⟨.uri, r⟩ u q) :
    q.req.method = r.method := by
  have kept : q.req.method = r.method ∧ q.state_ ≠ .methodStart ∧ q.state_ ≠ .method := by
    refine reads.invariant (P := fun q => q.req.method = r.method ∧ q.state_ ≠ .methodStart ∧
      q.state_ ≠ .method)
      ⟨rfl, by simp, by simp⟩ ?_
    rintro _ _ t t' ⟨same, behind⟩ act
    obtain ⟨step, behind'⟩ := switchBody_keeps_method act behind
    exact ⟨step.trans same, behind'⟩
  exact kept.1

/-- What is read up to the final LF is a head. -/
theorem head_of_reads {req r : Request} (fresh : req.Fresh) {u : Bytes}
    (reads : parser.Reads (.start req) u ⟨.expectingNewline3, r⟩) :
    ∃ line lines method target params major minor headers,
      u ++ ['\n'.toUInt8] = line ++ crlf ++ lines ++ crlf ∧
      RequestLine line method target params major minor ∧ LinesText lines headers ∧
      r = headRequest req method target params major minor headers := by
  have nonempty : u ≠ [] := by
    rintro rfl
    obtain ⟨-, same, -⟩ := Outcome.mk.inj reads
    cases same
  obtain ⟨method, v, rfl, name, atTarget⟩ := method_of_start fresh reads nonempty (by simp)
  have asGet := reads_withMethod atTarget rfl (Or.inr rfl) (bytes "GET")
  obtain ⟨target, params, major, minor, w, text, targetText, majorDigits, minorDigits, atLines⟩ :=
    (accepts_requestLine_iff fresh _ _).mp (accepts_of_reads_head asGet rfl)
  obtain ⟨lines, headers, rfl, linesText, same⟩ := (lines_of_accepts _ rfl _ _ atLines).2 rfl
  refine ⟨_, lines, method, target, params, _, _, headers, ?_,
    .intro name targetText majorDigits minorDigits, linesText, ?_⟩
  · rw [List.append_assoc, List.cons_append, text]
    simp
  · have fields : { r with method := bytes "GET" } =
        getRequest req target params (versionNumber major) (versionNumber minor) headers :=
        (Parsing.mk.inj same).2
    have kept : r.method = method := method_of_reads_uri atTarget
    rw [headRequest, ← fields, ← kept]

/-- A first line that the parser reads is a request line. -/
theorem requestLine_of_reads {req : Request} (fresh : req.Fresh) {line : Bytes}
    (noNewline : '\n'.toUInt8 ∉ line) {q : Parsing} (reads : parser.Reads (.start req) (line ++ crlf) q) :
    ∃ method target params major minor, RequestLine line method target params major minor := by
  obtain ⟨start, noHeaders⟩ := state_of_reads_line noNewline reads
  obtain ⟨state_, r⟩ := q
  simp only at start noHeaders
  subst start
  -- With the empty line behind it the first line is a head without headers.
  obtain ⟨line', lines, method, target, params, major, minor, headers, shape, requestLine, linesText, rfl⟩ :=
    head_of_reads fresh (reads.trans (Machine.Reads.single (act_headerLineStart_cr r)))
  have none_ : headers = [] := noHeaders.trans fresh.headers
  subst none_
  cases linesText
  have same : line ++ (crlf ++ crlf) = line' ++ (crlf ++ crlf) := by simpa [crlf] using shape
  rw [List.append_cancel_right same]
  exact ⟨method, target, params, major, minor, requestLine⟩

/-- A request line and header lines are read as the head they are. -/
theorem reads_head {req : Request} (fresh : req.Fresh) {line method target : Bytes} {params : List NameValue}
    {major minor : Int} (requestLine : RequestLine line method target params major minor) {lines : Bytes}
    {headers : List NameValue} (linesText : LinesText lines headers) :
    parser.Reads (.start req) (line ++ crlf ++ lines ++ ['\r'.toUInt8])
      ⟨.expectingNewline3, headRequest req method target params major minor headers⟩ := by
  cases requestLine with
  | @intro _ _ major minor _ name targetText majorDigits minorDigits =>
      have atLines :=
        linesText.accepts (getRequest req target params (versionNumber major) (versionNumber minor) []) rfl
      have accepted := (accepts_requestLine_iff fresh _ _).mpr
        ⟨target, params, major, minor, _, rfl, targetText, majorDigits, minorDigits, atLines⟩
      obtain ⟨u, shape, reads, -⟩ := reads_of_accepts_head rfl rfl accepted
      have here : u = target ++ bytes " HTTP/" ++ major ++ bytes "." ++ minor ++ crlf ++ lines ++
          ['\r'.toUInt8] := by
        have cut : (target ++ bytes " HTTP/" ++ major ++ bytes "." ++ minor ++ crlf ++ lines ++
            ['\r'.toUInt8]) ++ ['\n'.toUInt8] = u ++ ['\n'.toUInt8] := by
          rw [← shape]
          simp [crlf]
        exact (List.append_cancel_right cut).symm
      have behind := reads_withMethod reads rfl (Or.inr rfl) method
      have whole := (reads_start_method fresh name).trans behind
      rw [here] at whole
      have text : method ++ ' '.toUInt8 :: (target ++ bytes " HTTP/" ++ major ++ bytes "." ++ minor) ++
          crlf ++ lines ++ ['\r'.toUInt8] = method ++ [' '.toUInt8] ++
            (target ++ bytes " HTTP/" ++ major ++ bytes "." ++ minor ++ crlf ++ lines ++
              ['\r'.toUInt8]) := by
        simp
      rw [text]
      exact whole

/-- What is read from the header lines to the final LF is header lines. -/
theorem lines_of_reads {r r' : Request} (empty : r.headers = []) {u : Bytes}
    (reads : parser.Reads ⟨.headerLineStart, r⟩ u ⟨.expectingNewline3, r'⟩) :
    ∃ lines headers, u ++ ['\n'.toUInt8] = lines ++ crlf ∧ LinesText lines headers := by
  have asGet := reads_withMethod reads rfl (Or.inr rfl) (bytes "GET")
  have accepted := accepts_of_reads_head asGet rfl
  obtain ⟨lines, headers, shape, linesText, -⟩ := (lines_of_accepts _ rfl _ _ accepted).2 empty
  exact ⟨lines, headers, shape, linesText⟩

/-! ### The spelling of header lines

With all names and values in capitals the parser takes the same way through the header lines, so a head is
accepted in every spelling of them or in none. -/

/-- A header in one spelling of its texts. -/
def upper (h : NameValue) : NameValue := ⟨h.name.map toupper, h.value.map toupper⟩

/-- The parser with its headers in that spelling. -/
def Parsing.respelled (p : Parsing) :
    Parsing := ⟨p.state_, { p.req with headers := p.req.headers.map upper }⟩

/-- The states of the header lines. -/
def ParserState.inHeaders : ParserState → Bool
  | headerLineStart | headerLws | headerName | spaceBeforeHeaderValue | headerValue | expectingNewline2 =>
    true
  | _ => false

/-- The parser asks nothing about a byte that depends on its spelling. -/
theorem spelling_facts (b : UInt8) :
    isNotToken (toupper b) = isNotToken b ∧ isCtl (charInt (toupper b)) = isCtl (charInt b) ∧
      (toupper b == '\r'.toUInt8) = (b == '\r'.toUInt8) ∧ (toupper b == '\n'.toUInt8) = (b == '\n'.toUInt8) ∧
      (toupper b == ' '.toUInt8) = (b == ' '.toUInt8) ∧ (toupper b == '\t'.toUInt8) = (b == '\t'.toUInt8) ∧
      (toupper b == ':'.toUInt8) = (b == ':'.toUInt8) := by
  have all : ∀ b : UInt8, isNotToken (toupper b) = isNotToken b ∧
      isCtl (charInt (toupper b)) = isCtl (charInt b) ∧
      (toupper b == '\r'.toUInt8) = (b == '\r'.toUInt8) ∧ (toupper b == '\n'.toUInt8) = (b == '\n'.toUInt8) ∧
      (toupper b == ' '.toUInt8) = (b == ' '.toUInt8) ∧ (toupper b == '\t'.toUInt8) = (b == '\t'.toUInt8) ∧
      (toupper b == ':'.toUInt8) = (b == ':'.toUInt8) := forall_byte (by decide +kernel)
  exact all b

/-- The name of a header grows alike in capitals. -/
theorem pushBackName_upper (headers : List NameValue) (b : UInt8) :
    pushBackName (headers.map upper) (toupper b) = (pushBackName headers b).map upper := by
  rcases List.eq_nil_or_concat headers with rfl | ⟨front, last, rfl⟩
  · rfl
  · simp [List.concat_eq_append, upper]

theorem pushBackValue_upper (headers : List NameValue) (b : UInt8) :
    pushBackValue (headers.map upper) (toupper b) = (pushBackValue headers b).map upper := by
  rcases List.eq_nil_or_concat headers with rfl | ⟨front, last, rfl⟩
  · rfl
  · simp [List.concat_eq_append, upper]

/-- In the header lines another spelling is read alike. -/
theorem act_respelled {p : Parsing} (inside : p.state_.inHeaders = true) (b : UInt8) :
    parser.act p.respelled (toupper b) = (parser.act p b).map Parsing.respelled := by
  obtain ⟨notToken, ctl, cr, lf, space, tab, colon⟩ := spelling_facts b
  refine @act_map (fun req => { req with headers := req.headers.map upper }) p b (toupper b) ?_
  obtain ⟨state_, req⟩ := p
  have begun : pushBackName (req.headers.map upper ++ [({ } : NameValue)]) (toupper b) =
      (pushBackName (req.headers ++ [({ } : NameValue)]) b).map upper := by
    rw [← pushBackName_upper, List.map_append]
    rfl
  cases state_ <;> simp only [ParserState.inHeaders, Bool.false_eq_true] at inside <;>
    simp only [switchBody, notToken, ctl, cr, lf, space, tab, colon, List.isEmpty_map, begun,
      pushBackName_upper, pushBackValue_upper] <;>
    split_ifs <;> rfl

/-- A byte of the header lines is rejected, or read into them or into the end of the head. -/
theorem act_inHeaders {p q : Parsing} (inside : p.state_.inHeaders = true) {b : UInt8} {verdict : Tribool}
    (act : parser.act p b = .read verdict q) :
    verdict = .no ∨ verdict = .indeterminate ∧
      (q.state_.inHeaders = true ∨ q.state_ = .expectingNewline3) := by
  refine of_act
    (P := fun verdict q => verdict = .no ∨
      verdict = .indeterminate ∧ (q.state_.inHeaders = true ∨ q.state_ = .expectingNewline3)) act ?_
  obtain ⟨state_, req⟩ := p
  cases state_ <;> simp_all [switchBody, ParserState.inHeaders]

/-- Respelling leaves the state. -/
theorem state_of_respelled {p p' : Parsing} (same : p.respelled = p'.respelled) : p.state_ = p'.state_ :=
  (Parsing.mk.inj same).1

/-- Two parsers that differ in spelling answer two spellings of a byte alike. -/
theorem act_eq_of_respelled {p p' : Parsing} (inside : p.state_.inHeaders = true)
    (same : p.respelled = p'.respelled) {b b' : UInt8} (byte : toupper b = toupper b') :
    (parser.act p b).map Parsing.respelled = (parser.act p' b').map Parsing.respelled := by
  have state := state_of_respelled same
  rw [← act_respelled inside, ← act_respelled (state ▸ inside), same, byte]

/-- At the final LF, as in the header lines, two such parsers stop together or go on in two such states. -/
theorem acts_alike {p p' : Parsing} (same : p.respelled = p'.respelled) {b b' : UInt8}
    (byte : toupper b = toupper b')
    (inside : p.state_.inHeaders = true ∨ p.state_ = .expectingNewline3 ∧ b ≠ '\n'.toUInt8) :
    (parser.act p b = .refuse ∧ parser.act p' b' = .refuse) ∨
      (∃ t t', parser.act p b = .read .no t ∧ parser.act p' b' = .read .no t') ∨
      ∃ t t', parser.act p b = .read .indeterminate t ∧ parser.act p' b' = .read .indeterminate t' ∧
        t.respelled = t'.respelled ∧ (t.state_.inHeaders = true ∨ t.state_ = .expectingNewline3) := by
  rcases inside with inside | ⟨final, other⟩
  · have acts := act_eq_of_respelled inside same byte
    cases act : parser.act p b with
    | refuse =>
        cases act' : parser.act p' b' with
        | refuse => exact Or.inl ⟨rfl, rfl⟩
        | read => simp [act, act', Action.map] at acts
    | read verdict t =>
        cases act' : parser.act p' b' with
        | refuse => simp [act, act', Action.map] at acts
        | read verdict' t' =>
            rw [act, act'] at acts
            simp only [Action.map, Action.read.injEq] at acts
            obtain ⟨rfl, next⟩ := acts
            rcases act_inHeaders inside act with rfl | ⟨rfl, still⟩
            · exact Or.inr (Or.inl ⟨t, t', rfl, rfl⟩)
            · exact Or.inr (Or.inr ⟨t, t', rfl, rfl, next, still⟩)
  · have state := state_of_respelled same
    have other' : b' ≠ '\n'.toUInt8 := by
      intro here
      have facts := (spelling_facts b').2.2.2.1
      rw [← byte, (spelling_facts b).2.2.2.1] at facts
      simp [other, here] at facts
    obtain ⟨state_, req⟩ := p
    obtain ⟨state_', req'⟩ := p'
    simp only at final state
    subst final
    subst state
    exact Or.inr (Or.inl ⟨_, _, act_expectingNewline3_of_ne other, act_expectingNewline3_of_ne other'⟩)

/-- Two spellings of header lines are answered alike, unless the first is a whole head. -/
theorem run_headers_respelled {u u' : Bytes} (text : u.map toupper = u'.map toupper) {p p' : Parsing}
    (inside : p.state_.inHeaders = true ∨ p.state_ = .expectingNewline3)
    (same : p.respelled = p'.respelled) :
    ((parser.run p u).verdict ≠ .yes ∧ (parser.run p' u').verdict = (parser.run p u).verdict ∧
      (parser.run p' u').consumed = (parser.run p u).consumed) ∨
    ∃ before rest r, u = before ++ '\n'.toUInt8 :: rest ∧ parser.Reads p before ⟨.expectingNewline3, r⟩ := by
  induction u generalizing p p' u' with
  | nil =>
      rw [List.map_nil, eq_comm, List.map_eq_nil_iff] at text
      subst text
      exact Or.inl ⟨by simp, rfl, rfl⟩
  | cons b u ih =>
      cases u' with
      | nil => simp at text
      | cons b' u' =>
          obtain ⟨byte, rest⟩ := List.cons.inj text
          by_cases whole : p.state_ = .expectingNewline3 ∧ b = '\n'.toUInt8
          · obtain ⟨state_, req⟩ := p
            obtain ⟨final, rfl⟩ := whole
            simp only at final
            subst final
            exact Or.inr ⟨[], u, req, rfl, Machine.Reads.refl _⟩
          · have inside' : p.state_.inHeaders = true ∨ p.state_ = .expectingNewline3 ∧ b ≠ '\n'.toUInt8 :=
              inside.imp_right fun final => ⟨final, fun newline => whole ⟨final, newline⟩⟩
            rcases acts_alike same byte inside' with
              ⟨act, act'⟩ | ⟨t, t', act, act'⟩ | ⟨t, t', act, act', next, still⟩
            · exact Or.inl (by simp [Machine.run_cons_refuse act, Machine.run_cons_refuse act'])
            · exact Or.inl (by simp [Machine.run_cons_no act, Machine.run_cons_no act'])
            · rcases ih rest still next with ⟨unaccepted, verdict, consumed⟩ | ⟨before, after, r, rfl, reads⟩
              · left
                rw [Machine.run_cons_indeterminate act, Machine.run_cons_indeterminate act']
                exact ⟨unaccepted, verdict, congrArg (1 + ·) consumed⟩
              · exact Or.inr ⟨b :: before, after, r, rfl,
                  (Machine.reads_cons_of_indeterminate act).mpr reads⟩

end Waspp
