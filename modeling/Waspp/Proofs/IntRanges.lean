/-
Module: Waspp.Proofs.IntRanges
Layer: Proofs
Purpose: The values that the parser computes in `int` from the bytes of a request: the version numbers,
  digit by digit, and the countdown of the body.  Neither has a limit.  The digits behind a version's head
  are added up whatever they denote, and a body announced with 0 or less is counted down as long as it
  lasts; `int_values_fit_iff` says for which texts all values stay in the range of `int`.
Imports: Waspp.Proofs.ContentLength, Waspp.Proofs.HeadReading
Trusted boundary: none (fully proved)
Main exports: intValues, VersionHead, VersionsFit, PostText, BodyFits, int_values_fit_iff
Open obligations: none
-/
import Waspp.Proofs.ContentLength
import Waspp.Proofs.HeadReading

namespace Waspp

open CString Incremental

/-- The range of `int`. -/
def InInt (z : Int) : Prop := -2 ^ 31 ≤ z ∧ z < 2 ^ 31

instance (z : Int) : Decidable (InInt z) := inferInstanceAs (Decidable (_ ∧ _))

/-- The values of `version * 10 + input - '0'`, in the order of its operations. -/
def digitValues (version : Int) (input : UInt8) : List Int :=
  [version * 10, version * 10 + charInt input, version * 10 + charInt input - '0'.toNat]

/-- The values that a pass computes in `int` from what the client has sent. -/
def intValues (state_ : ParserState) (input : UInt8) (req : Request) : List Int :=
  match state_ with
  | .httpVersionMajorStart => if isDigit (charInt input) then digitValues req.httpVersionMajor input else []
  | .httpVersionMajor =>
      if input == '.'.toUInt8 then []
      else if isDigit (charInt input) then digitValues req.httpVersionMajor input
      else []
  | .httpVersionMinorStart => if isDigit (charInt input) then digitValues req.httpVersionMinor input else []
  | .httpVersionMinor =>
      if input == '\r'.toUInt8 then []
      else if isDigit (charInt input) then digitValues req.httpVersionMinor input
      else []
  | .contentStart =>
      if !req.content.isEmpty then []
      else if isNotToken input then []
      else [req.contentLength - 1]
  | .content => [req.contentLength - 1]
  | _ => []

/-- An `int` of the request after a pass was there before, is a constant or a length read from a header, or
    is one of these values, stored in an `int`. -/
inductive Stored (values : List Int) (req : Request) (before after : Int) : Prop where
  | kept (same : after = before)
  | reset (zero : after = 0)
  | length (given : after = (headerLength req).1)
  | computed {z : Int} (member : z ∈ values) (wrapped : after = wrapInt z)

/-- What one byte stores in an `int` was there or is one of the values. -/
theorem stored_of_act {p q : Parsing} {b : UInt8} {verdict : Tribool}
    (act : parser.act p b = .read verdict q) :
    Stored (intValues p.state_ b p.req) p.req p.req.httpVersionMajor q.req.httpVersionMajor ∧
      Stored (intValues p.state_ b p.req) p.req p.req.httpVersionMinor q.req.httpVersionMinor ∧
      Stored (intValues p.state_ b p.req) p.req p.req.contentLength q.req.contentLength := by
  refine of_act (P := fun _ q =>
    Stored (intValues p.state_ b p.req) p.req p.req.httpVersionMajor q.req.httpVersionMajor ∧
      Stored (intValues p.state_ b p.req) p.req p.req.httpVersionMinor q.req.httpVersionMinor ∧
      Stored (intValues p.state_ b p.req) p.req p.req.contentLength q.req.contentLength) act ?_
  obtain ⟨state_, req⟩ := p
  have kept (values : List Int) (z : Int) : Stored values req z z := .kept rfl
  have reset (values : List Int) (z : Int) : Stored values req z 0 := .reset rfl
  have length (values : List Int) (z : Int) :
      Stored values req z (wrapInt (strtol (NameValue.valueOf req.headers (bytes "Content-Length")))) :=
      .length rfl
  have digit (version before : Int) : Stored (digitValues version b) req before (pushDigit version b) :=
    .computed (by simp [digitValues]) rfl
  have count (before : Int) : Stored [req.contentLength - 1] req before (wrapInt (req.contentLength - 1)) :=
    .computed (by simp) rfl
  cases state_ <;> simp [switchBody, intValues, headerLength, Request.header, kept, reset, length] <;>
    simp_all

/-! ### The texts

The places where a value grows without limit, as texts: a version number in the first line, and the bytes
behind the head of a request with a length of 0 or less. -/

/-- What stands before the digits of a version number. -/
inductive VersionHead : Bytes → Prop where
  | major {method target : Bytes} {params : List NameValue} (name : Name method)
      (targetText : TargetText target params) :
      VersionHead (method ++ ' '.toUInt8 :: (target ++ bytes " HTTP/"))
  | minor {method target digits : Bytes} {params : List NameValue} (name : Name method)
      (targetText : TargetText target params) (majorDigits : Digits digits) :
      VersionHead (method ++ ' '.toUInt8 :: (target ++ bytes " HTTP/") ++ digits ++ bytes ".")

/-- The digits of a version number denote at most 2147483599: with `'0'` added, they stay in the range of
    `int`. -/
def VersionsFit (text : Bytes) : Prop :=
  ∀ head digits rest, text = head ++ digits ++ rest → VersionHead head →
    (∀ b ∈ digits, isDigit (charInt b) = true) → decimalFrom 0 digits + '0'.toNat < 2 ^ 31

/-- The head of a POST request with the value of its first Content-Length header. -/
inductive PostText : Bytes → Bytes → Prop where
  | intro {line lines target : Bytes} {params headers : List NameValue} {major minor : Int}
      (requestLine : RequestLine line (bytes "POST") target params major minor)
      (linesText : LinesText lines headers) :
      PostText (line ++ crlf ++ lines ++ crlf) (NameValue.valueOf headers (bytes "Content-Length"))

/-- Behind a head that announces 0 or less, the count of the bytes stays in the range of `int`. -/
def BodyFits (text : Bytes) : Prop :=
  ∀ head v b rest, text = head ++ b :: rest → PostText head v → v ≠ [] → isToken b = true →
    wrapInt (strtol v) ≤ 0 → ((b :: rest).length : Int) ≤ wrapInt (strtol v) + 2 ^ 31

/-! ### The digits of a version

Both version numbers are read by one loop with other states.  `DigitLoop` is that loop: it starts with a
digit, goes on with digits and is left by one byte. -/

/-- The states of the version numbers. -/
def ParserState.inVersion : ParserState → Bool
  | httpVersionMajorStart | httpVersionMajor | httpVersionMinorStart | httpVersionMinor => true
  | _ => false

/-- The states behind the version numbers. -/
def ParserState.behindVersion : ParserState → Bool
  | expectingNewline1 | headerLineStart | headerLws | headerName | spaceBeforeHeaderValue | headerValue
  | expectingNewline2 | expectingNewline3 | contentStart | content => true
  | _ => false

/-- Behind the version no byte leads back. -/
theorem act_behindVersion {p q : Parsing} {b : UInt8} {verdict : Tribool}
    (behind : p.state_.behindVersion = true)
    (act : parser.act p b = .read verdict q) : q.state_.behindVersion = true := by
  refine of_act (P := fun _ q => q.state_.behindVersion = true) act ?_
  obtain ⟨state_, req⟩ := p
  cases state_ <;> simp_all [switchBody, ParserState.behindVersion, headerLength, Request.header]

/-- So the states behind the version are never within it. -/
theorem not_inVersion_of_reads {p q : Parsing} {w : Bytes} (reads : parser.Reads p w q)
    (behind : p.state_.behindVersion = true) : q.state_.inVersion = false := by
  have still : q.state_.behindVersion = true :=
    reads.invariant (P := fun q => q.state_.behindVersion = true) behind fun _ _ _ _ behind act =>
      act_behindVersion behind act
  cases state : q.state_ <;> simp_all [ParserState.inVersion, ParserState.behindVersion]

/-- A byte that is expected and followed by a state of the version. -/
theorem expected_of_reads {s t : ParserState} {req req' : Request} {c : UInt8}
    (body : ∀ b, switchBody s b req = if b == c then .leave .indeterminate t req' else .leave .no s req)
    (before : s.inVersion = false) {w : Bytes} {p : Parsing} (reads : parser.Reads ⟨s, req⟩ w p)
    (inside : p.state_.inVersion = true) : ∃ v, w = c :: v ∧ parser.Reads ⟨t, req'⟩ v p := by
  rcases Machine.expect_of_reads (c := c) (t := (⟨t, req'⟩ : Parsing)) (by simp [parser, body])
    (by intro b ne; simp [parser, body, ne]) reads with ⟨-, rfl⟩ | later
  · rw [before] at inside
    cases inside
  · exact later

/-- What is read from the blank behind the target into a version number begins with `HTTP/`. -/
theorem majorStart_of_reads {r : Request} {v : Bytes} {p : Parsing}
    (reads : parser.Reads ⟨.httpVersionH, r⟩ v p) (inside : p.state_.inVersion = true) :
    ∃ w, v = bytes "HTTP/" ++ w ∧
      parser.Reads ⟨.httpVersionMajorStart,
        { r with httpVersionMajor := 0, httpVersionMinor := 0 }⟩ w p := by
  obtain ⟨_, rfl, t1⟩ :=
    expected_of_reads (t := .httpVersionT1) (c := 'H'.toUInt8) (fun _ => rfl) rfl reads inside
  obtain ⟨_, rfl, t2⟩ :=
    expected_of_reads (t := .httpVersionT2) (c := 'T'.toUInt8) (fun _ => rfl) rfl t1 inside
  obtain ⟨_, rfl, p'⟩ :=
    expected_of_reads (t := .httpVersionP) (c := 'T'.toUInt8) (fun _ => rfl) rfl t2 inside
  obtain ⟨_, rfl, slash⟩ :=
    expected_of_reads (t := .httpVersionSlash) (c := 'P'.toUInt8) (fun _ => rfl) rfl p' inside
  obtain ⟨w, rfl, start⟩ :=
    expected_of_reads (t := .httpVersionMajorStart) (c := '/'.toUInt8) (fun _ => rfl) rfl slash inside
  exact ⟨w, rfl, start⟩

/-- The text in front of a version number. -/
theorem reads_majorStart (r : Request) :
    parser.Reads ⟨.httpVersionH, r⟩ (bytes "HTTP/")
      ⟨.httpVersionMajorStart, { r with httpVersionMajor := 0, httpVersionMinor := 0 }⟩ := rfl

/-- In this state a digit is computed with what the digits before it denote. -/
def Counts (digits : Bytes) (p : Parsing) : Prop :=
  ∀ b, isDigit (charInt b) = true → intValues p.state_ b p.req = digitValues (versionNumber digits) b

/-- A loop that reads the digits of a version number up to a byte that stops it. -/
structure DigitLoop (start : Parsing) (scan : Bytes → Parsing) (stop : UInt8) : Prop where
  first : ∀ b, isDigit (charInt b) = true → parser.act start b = .read .indeterminate (scan [b])
  refuse : ∀ b, isDigit (charInt b) = false → ∀ t, parser.act start b ≠ .read .indeterminate t
  collect : ∀ u b, isDigit (charInt b) = true →
    parser.act (scan u) b = .read .indeterminate (scan (u ++ [b]))
  reject : ∀ u b, isDigit (charInt b) = false → b ≠ stop →
    ∀ t, parser.act (scan u) b ≠ .read .indeterminate t
  begins : Counts [] start
  counts : ∀ u, Counts u (scan u)

/-- The major number is read by the loop, up to the dot. -/
theorem majorLoop {r : Request} (zero : r.httpVersionMajor = 0) :
    DigitLoop ⟨.httpVersionMajorStart, r⟩ (scanMajor r) '.'.toUInt8 := by
  have dot {b : UInt8} (digit : isDigit (charInt b) = true) : b ≠ '.'.toUInt8 :=
    ne_of_isDigit digit (by decide)
  constructor
  · intro b digit
    simp [parser, switchBody, scanMajor, digit]
  · intro b other
    simp [parser, switchBody, other]
  · intro u b digit
    simp [parser, switchBody, scanMajor, digit, dot digit]
  · intro u b other stays
    simp [parser, switchBody, scanMajor, other, stays]
  · intro b digit
    simp [intValues, digit, zero, versionNumber]
  · intro u b digit
    simp [scanMajor, intValues, digit, dot digit, zero, versionNumber]

/-- The minor number is, up to the line end. -/
theorem minorLoop {r : Request} (zero : r.httpVersionMinor = 0) :
    DigitLoop ⟨.httpVersionMinorStart, r⟩ (scanMinor r) '\r'.toUInt8 := by
  have cr {b : UInt8} (digit : isDigit (charInt b) = true) : b ≠ '\r'.toUInt8 :=
    ne_of_isDigit digit (by decide)
  constructor
  · intro b digit
    simp [parser, switchBody, scanMinor, digit]
  · intro b other
    simp [parser, switchBody, other]
  · intro u b digit
    simp [parser, switchBody, scanMinor, digit, cr digit]
  · intro u b other stays
    simp [parser, switchBody, scanMinor, other, stays]
  · intro b digit
    simp [intValues, digit, zero, versionNumber]
  · intro u b digit
    simp [scanMinor, intValues, digit, cr digit, zero, versionNumber]

namespace DigitLoop

variable {start : Parsing} {scan : Bytes → Parsing} {stop : UInt8}

/-- Any digits are read. -/
theorem reads (loop : DigitLoop start scan stop) {digits : Bytes}
    (all : ∀ b ∈ digits, isDigit (charInt b) = true) :
    ∃ p, parser.Reads start digits p ∧ Counts digits p ∧ (digits ≠ [] → p = scan digits) := by
  cases digits with
  | nil => exact ⟨start, Machine.Reads.refl _, loop.begins, fun nonempty => absurd rfl nonempty⟩
  | cons b digits =>
      have all' := List.forall_mem_cons.mp all
      have rest := Machine.reads_scan scan (fun b => isDigit (charInt b) = true) loop.collect [b] all'.2
      exact ⟨_, (Machine.reads_cons_of_indeterminate (loop.first b all'.1)).mpr rest, loop.counts _,
        fun _ => rfl⟩

/-- What is read is digits, or digits up to the byte that stops them. -/
theorem of_reads (loop : DigitLoop start scan stop) {w : Bytes} {p : Parsing}
    (reads : parser.Reads start w p) :
    (∀ b ∈ w, isDigit (charInt b) = true) ∧ Counts w p ∨
      ∃ d v, w = d ++ stop :: v ∧ Digits d ∧ parser.Reads (scan d) (stop :: v) p := by
  cases w with
  | nil =>
      obtain ⟨-, rfl, -⟩ := Outcome.mk.inj reads
      exact Or.inl ⟨by simp, loop.begins⟩
  | cons b w =>
      obtain ⟨t, act, later⟩ := reads.cons_inv
      cases digit : isDigit (charInt b) with
      | false => exact absurd act (loop.refuse b digit t)
      | true =>
          rw [loop.first b digit] at act
          cases act
          rcases Machine.scan_of_reads scan (fun b => isDigit (charInt b) = true) (· = stop) loop.collect
            (fun u c other stays => loop.reject u c (by simpa using other) stays) later with
            ⟨all, rfl⟩ | ⟨d, _, v, rfl, all, rfl, tail⟩
          · exact Or.inl ⟨List.forall_mem_cons.mpr ⟨digit, all⟩, loop.counts _⟩
          · exact Or.inr ⟨b :: d, v, rfl, ⟨by simp, List.forall_mem_cons.mpr ⟨digit, all⟩⟩, tail⟩

end DigitLoop

/-- The dot behind the major version. -/
theorem act_dot (r : Request) (digits : Bytes) :
    parser.act (scanMajor r digits) '.'.toUInt8 =
      .read .indeterminate ⟨.httpVersionMinorStart, (scanMajor r digits).req⟩ := by
  simp [parser, switchBody, scanMajor]

/-- A version's head is read, and the digits behind it are. -/
theorem reads_versionHead {req : Request} (fresh : req.Fresh) {head : Bytes} (versionHead : VersionHead head)
    {digits : Bytes} (all : ∀ b ∈ digits, isDigit (charInt b) = true) :
    ∃ p, parser.Reads (.start req) (head ++ digits) p ∧ Counts digits p := by
  have toMajor {method target : Bytes} {params : List NameValue} (name : Name method)
      (targetText : TargetText target params) :
      ∃ r : Request, r.httpVersionMajor = 0 ∧ r.httpVersionMinor = 0 ∧
        parser.Reads (.start req) (method ++ ' '.toUInt8 :: (target ++ bytes " HTTP/"))
        ⟨.httpVersionMajorStart, r⟩ := by
    obtain ⟨r, atVersion⟩ := @reads_target { req with method := method } fresh.headers _ _ targetText
    refine ⟨{ r with httpVersionMajor := 0, httpVersionMinor := 0 }, rfl, rfl, ?_⟩
    have whole := ((reads_start_method fresh name).trans atVersion).trans (reads_majorStart r)
    simpa [bytes] using whole
  cases versionHead with
  | major name targetText =>
      obtain ⟨r, zero, -, atMajor⟩ := toMajor name targetText
      obtain ⟨p, behind, counts, -⟩ := (majorLoop zero).reads all
      exact ⟨p, atMajor.trans behind, counts⟩
  | @minor _ _ major _ name targetText majorDigits =>
      obtain ⟨r, zero, zero', atMajor⟩ := toMajor name targetText
      obtain ⟨q, behind, -, same⟩ := (majorLoop zero).reads majorDigits.digit
      rw [same majorDigits.nonempty] at behind
      obtain ⟨p, later, counts, -⟩ := (minorLoop (r := (scanMajor r major).req) zero').reads all
      exact ⟨p, ((atMajor.trans behind).trans (Machine.Reads.single (act_dot r major))).trans later, counts⟩

/-- Where a version number is read, the text so far is a head and digits. -/
theorem versionHead_of_reads {req : Request} (fresh : req.Fresh) {u : Bytes} {p : Parsing}
    (reads : parser.Reads (.start req) u p) (inside : p.state_.inVersion = true) :
    ∃ head digits, u = head ++ digits ∧ VersionHead head ∧ (∀ b ∈ digits, isDigit (charInt b) = true) ∧
      Counts digits p := by
  have beyond : p.state_.beforeVersion = false := by
    cases state : p.state_ <;> simp_all [ParserState.inVersion, ParserState.beforeVersion]
  obtain ⟨method, target, params, v, r, rfl, name, targetText, atVersion⟩ :=
    version_of_start fresh reads beyond
  obtain ⟨w, rfl, atMajor⟩ := majorStart_of_reads atVersion inside
  rcases (majorLoop rfl).of_reads atMajor with ⟨all, counts⟩ | ⟨d, x, rfl, majorDigits, tail⟩
  · exact ⟨_, w, by simp [bytes], .major name targetText, all, counts⟩
  · obtain ⟨t, act, later⟩ := tail.cons_inv
    rw [act_dot] at act
    cases act
    rcases (minorLoop rfl).of_reads later with ⟨all, counts⟩ | ⟨e, y, rfl, -, tail⟩
    · exact ⟨_, x, by simp [bytes], .minor name targetText majorDigits, all, counts⟩
    · obtain ⟨t, act, later⟩ := tail.cons_inv
      have next : t.state_ = .expectingNewline1 := by
        simp [parser, switchBody, scanMinor] at act
        rw [← act]
      have outside := not_inVersion_of_reads later (by rw [next]; rfl)
      rw [outside] at inside
      cases inside

/-! ### The countdown of the body

The length is counted down with every byte of the body, and a body with a length of 0 or less never comes
to an end: the count leaves the range of `int` after 2^31 bytes and a little. -/

/-- A wrapped number is in the range. -/
theorem inInt_wrapInt (z : Int) : InInt (wrapInt z) := by
  have low := Int.le_bmod (x := z) (m := 2 ^ 32) (by decide)
  have high := Int.bmod_lt (x := z) (m := 2 ^ 32) (by decide)
  unfold InInt wrapInt
  omega

/-- A number in the range is not changed. -/
theorem wrapInt_of_inInt {z : Int} (fits : InInt z) : wrapInt z = z := by
  have same := wrapInt_emod z
  have range := inInt_wrapInt z
  unfold InInt at fits range
  omega

/-- A POST head with a length is read, up to the body. -/
theorem reads_postText {req : Request} (fresh : req.Fresh) {head v : Bytes} (post : PostText head v)
    (given : v ≠ []) :
    ∃ r, parser.Reads (.start req) head ⟨.contentStart, r⟩ ∧ r.content = [] ∧
      r.contentLength = wrapInt (strtol v) := by
  cases post with
  | @intro line lines target params headers major minor requestLine linesText =>
      have atFinal := reads_head fresh requestLine linesText
      obtain ⟨r, act, content, length⟩ :=
        @act_final_of_present (headRequest req (bytes "POST") target params major minor headers) rfl given
      refine ⟨r, ?_, content.trans fresh.content, length⟩
      have whole := atFinal.trans (Machine.Reads.single act)
      simpa [crlf] using whole

/-- The byte that leads into the body is the final LF of a POST head with a length, or one of the body. -/
theorem act_into_body {p q : Parsing} {b : UInt8} (act : parser.act p b = .read .indeterminate q)
    (inside : q.state_ = .contentStart ∨ q.state_ = .content) :
    (p.state_ = .contentStart ∨ p.state_ = .content) ∨
      p.state_ = .expectingNewline3 ∧ b = '\n'.toUInt8 ∧ p.req.method = bytes "POST" ∧
        (p.req.header (bytes "Content-Length")).1 ≠ [] := by
  refine of_act (P := fun verdict q => verdict = .indeterminate →
    (q.state_ = .contentStart ∨ q.state_ = .content) → (p.state_ = .contentStart ∨ p.state_ = .content) ∨
      p.state_ = .expectingNewline3 ∧ b = '\n'.toUInt8 ∧ p.req.method = bytes "POST" ∧
        (p.req.header (bytes "Content-Length")).1 ≠ []) act ?_ rfl inside
  obtain ⟨state_, req⟩ := p
  cases state_ <;> simp_all [switchBody, headerLength, Request.header]

/-- Where the body is read, the text so far is a POST head with a length and what is read of the body. -/
theorem postText_of_reads {req : Request} (fresh : req.Fresh) {u : Bytes} {p : Parsing}
    (reads : parser.Reads (.start req) u p) (inside : p.state_ = .contentStart ∨ p.state_ = .content) :
    ∃ head v body r, u = head ++ body ∧ PostText head v ∧ v ≠ [] ∧ r.content = [] ∧
      r.contentLength = wrapInt (strtol v) ∧ parser.Reads ⟨.contentStart, r⟩ body p := by
  induction u using List.reverseRecOn generalizing p with
  | nil =>
      obtain ⟨-, rfl, -⟩ := Outcome.mk.inj reads
      rcases inside with same | same <;> cases same
  | append_singleton u b ih =>
      obtain ⟨q, before, last⟩ := reads.append_inv
      obtain ⟨t, act, done⟩ := last.cons_inv
      obtain ⟨-, rfl, -⟩ := Outcome.mk.inj done
      rcases act_into_body act inside with body | ⟨final, rfl, post, given⟩
      · obtain ⟨head, v, body, r, rfl, text, given, empty, length, later⟩ := ih before body
        exact ⟨head, v, body ++ [b], r, by simp, text, given, empty, length, later.trans last⟩
      · obtain ⟨state_, r₀⟩ := q
        subst final
        obtain ⟨line, lines, method, target, params, major, minor, headers, shape, requestLine, linesText,
            rfl⟩ :=
          head_of_reads fresh before
        obtain ⟨r, act', content, length⟩ := act_final_of_present post given
        cases act'.symm.trans act
        have isPost : method = bytes "POST" := post
        subst isPost
        exact ⟨_, _, [], r, by rw [shape, List.append_nil], .intro requestLine linesText, given,
          content.trans fresh.content, length, Machine.Reads.refl _⟩

/-- A byte of the body that is not the last one. -/
theorem act_content {r : Request} {b : UInt8} {q : Parsing}
    (act : parser.act ⟨.content, r⟩ b = .read .indeterminate q) :
    wrapInt (r.contentLength - 1) ≠ 0 ∧
      q = ⟨.content,
        { r with contentLength := wrapInt (r.contentLength - 1), content := r.content ++ [b] }⟩ := by
  by_cases last : wrapInt (r.contentLength - 1) = 0
  · simp [parser, switchBody, last, headerLength, Request.header] at act
  · simp [parser, switchBody, last] at act
    exact ⟨last, act.symm⟩

/-- It does not matter whether a minuend is wrapped first. -/
theorem wrapInt_sub (x y : Int) : wrapInt (wrapInt x - y) = wrapInt (x - y) := by
  unfold wrapInt
  exact Int.bmod_sub_bmod

/-- One byte of a countdown that has not ended, before the others. -/
theorem count_step {count last : Int} {n : Nat} (range : InInt count) (more : wrapInt (count - 1) ≠ 0)
    (counted : last = wrapInt (wrapInt (count - 1) - n))
    (below : 0 < wrapInt (count - 1) → (n : Int) < wrapInt (count - 1)) :
    last = wrapInt (count - (n + 1 : Nat)) ∧ (0 < count → ((n + 1 : Nat) : Int) < count) := by
  constructor
  · rw [counted, wrapInt_sub]
    congr 1
    omega
  · intro positive
    have one : wrapInt (count - 1) = count - 1 := by
      apply wrapInt_of_inInt
      unfold InInt at range ⊢
      omega
    rw [one] at more below
    have rest := below (by omega)
    omega

/-- A positive count is counted down to 1 at the least; any other one goes down modulo 2^32. -/
theorem count_of_reads {r : Request} (range : InInt r.contentLength) {w : Bytes} {p : Parsing}
    (reads : parser.Reads ⟨.content, r⟩ w p) :
    p.req.contentLength = wrapInt (r.contentLength - w.length) ∧
      (0 < r.contentLength → (w.length : Int) < r.contentLength) := by
  induction w generalizing r with
  | nil =>
      obtain ⟨-, rfl, -⟩ := Outcome.mk.inj reads
      exact ⟨by simpa using (wrapInt_of_inInt range).symm, by simp⟩
  | cons b w ih =>
      obtain ⟨t, act, later⟩ := reads.cons_inv
      obtain ⟨more, rfl⟩ := act_content act
      obtain ⟨counted, below⟩ := ih (inInt_wrapInt _) later
      exact count_step range more counted below

/-- The first byte of the body, if it is not the last one. -/
theorem act_contentStart {r : Request} (empty : r.content = []) {b : UInt8} {q : Parsing}
    (act : parser.act ⟨.contentStart, r⟩ b = .read .indeterminate q) :
    isToken b = true ∧ wrapInt (r.contentLength - 1) ≠ 0 ∧
      q = ⟨.content,
        { r with contentLength := wrapInt (r.contentLength - 1), content := r.content ++ [b] }⟩ := by
  cases token : isToken b with
  | false => simp [parser, switchBody, empty, isNotToken_eq, token] at act
  | true =>
      by_cases last : wrapInt (r.contentLength - 1) = 0
      · simp [parser, switchBody, empty, isNotToken_eq, token, last, headerLength, Request.header] at act
      · simp [parser, switchBody, empty, isNotToken_eq, token, last] at act
        exact ⟨rfl, last, by simpa [empty] using act.symm⟩

/-- What is read of a body: nothing, or a token byte and more, counted down. -/
theorem bodyCount_of_reads {r : Request} (empty : r.content = []) (range : InInt r.contentLength)
    {body : Bytes} {p : Parsing} (reads : parser.Reads ⟨.contentStart, r⟩ body p) :
    body = [] ∧ p = ⟨.contentStart, r⟩ ∨
      ∃ b tail, body = b :: tail ∧ isToken b = true ∧
        p.req.contentLength = wrapInt (r.contentLength - body.length) ∧
        (0 < r.contentLength → (body.length : Int) < r.contentLength) := by
  cases body with
  | nil =>
      obtain ⟨-, rfl, -⟩ := Outcome.mk.inj reads
      exact Or.inl ⟨rfl, rfl⟩
  | cons b tail =>
      obtain ⟨t, act, later⟩ := reads.cons_inv
      obtain ⟨token, more, rfl⟩ := act_contentStart empty act
      obtain ⟨counted, below⟩ := count_of_reads (inInt_wrapInt _) later
      exact Or.inr ⟨b, tail, rfl, token, count_step range more counted below⟩

/-- A count of 0 or less is counted down as long as it stays in the range of `int`. -/
theorem reads_content {r : Request} (low : r.contentLength ≤ 0) {w : Bytes}
    (fits : (w.length : Int) ≤ r.contentLength + 2 ^ 31) :
    ∃ q, parser.Reads ⟨.content, r⟩ w ⟨.content, q⟩ ∧ q.contentLength = r.contentLength - w.length := by
  induction w generalizing r with
  | nil => exact ⟨r, Machine.Reads.refl _, by simp⟩
  | cons b w ih =>
      rw [List.length_cons] at fits
      have one : wrapInt (r.contentLength - 1) = r.contentLength - 1 := by
        apply wrapInt_of_inInt
        unfold InInt
        omega
      have act : parser.act ⟨.content, r⟩ b = .read .indeterminate
          ⟨.content, { r with contentLength := r.contentLength - 1, content := r.content ++ [b] }⟩ := by
        have more : r.contentLength - 1 ≠ 0 := by omega
        simp [parser, switchBody, one, more]
      obtain ⟨q, reads, count⟩ :=
        @ih { r with contentLength := r.contentLength - 1, content := r.content ++ [b] } (by simp; omega)
          (by simp; omega)
      refine ⟨q, (Machine.reads_cons_of_indeterminate act).mpr reads, ?_⟩
      rw [count, List.length_cons]
      simp
      omega

/-- The body behind a head that announces 0 or less is read as long as the count stays in the range of `int`.
    -/
theorem reads_postBody {req : Request} (fresh : req.Fresh) {head v : Bytes} (post : PostText head v)
    (given : v ≠ [])
    (low : wrapInt (strtol v) ≤ 0) {body : Bytes} (first : ∀ b ∈ body.head?, isToken b = true)
    (fits : (body.length : Int) ≤ wrapInt (strtol v) + 2 ^ 31) :
    ∃ p, parser.Reads (.start req) (head ++ body) p ∧
      ∀ b, (body = [] → isToken b = true) →
        intValues p.state_ b p.req = [wrapInt (strtol v) - body.length - 1] := by
  obtain ⟨r, atBody, empty, length⟩ := reads_postText fresh post given
  cases body with
  | nil =>
      refine ⟨_, by simpa using atBody, ?_⟩
      intro b token
      simp [intValues, empty, isNotToken_eq, token rfl, length]
  | cons c body =>
      have token : isToken c = true := first c rfl
      rw [List.length_cons] at fits
      have one : wrapInt (r.contentLength - 1) = r.contentLength - 1 := by
        apply wrapInt_of_inInt
        rw [length]
        unfold InInt
        omega
      have act : parser.act ⟨.contentStart, r⟩ c = .read .indeterminate
          ⟨.content, { r with contentLength := r.contentLength - 1, content := r.content ++ [c] }⟩ := by
        have more : r.contentLength - 1 ≠ 0 := by omega
        simp [parser, switchBody, empty, isNotToken_eq, token, one, more]
      obtain ⟨q, later, count⟩ := reads_content
        (r := { r with contentLength := r.contentLength - 1, content := r.content ++ [c] }) (w := body)
        (by simp; omega) (by simp; omega)
      refine ⟨_, atBody.trans ((Machine.reads_cons_of_indeterminate act).mpr later), ?_⟩
      intro b _
      simp only [intValues, count, length, List.length_cons, List.cons.injEq, and_true]
      omega

/-! ### The law -/

/-- What a digit is as a `char`, and what it denotes. -/
theorem charInt_of_isDigit {b : UInt8} (digit : isDigit (charInt b) = true) :
    charInt b = digitNumber b + '0'.toNat ∧ digitNumber b ≤ 9 := by
  have all : ∀ b : UInt8, isDigit (charInt b) = true →
      charInt b = digitNumber b + '0'.toNat ∧ digitNumber b ≤ 9 :=
    forall_byte (by decide +kernel)
  exact all b digit

/-- A digit more is worth ten times the number and the digit. -/
theorem decimalFrom_concat (digits : Bytes) (b : UInt8) :
    decimalFrom 0 (digits ++ [b]) = decimalFrom 0 digits * 10 + digitNumber b := by
  rw [decimalFrom_append, decimalFrom_cons, decimalFrom_nil]

/-- Digits that denote an `int` are added up to what they denote. -/
theorem versionNumber_of_lt {digits : Bytes} (all : ∀ b ∈ digits, isDigit (charInt b) = true)
    (fits : decimalFrom 0 digits < 2 ^ 31) : versionNumber digits = decimalFrom 0 digits := by
  induction digits using List.reverseRecOn with
  | nil => rfl
  | append_singleton digits b ih =>
      rw [decimalFrom_concat] at fits ⊢
      have before := ih (fun c member => all c (by simp [member])) (by omega)
      obtain ⟨char, small⟩ := charInt_of_isDigit (all b (by simp))
      have range : InInt (versionNumber digits * 10 + charInt b - '0'.toNat) := by
        rw [before, char]
        unfold InInt
        omega
      have next : versionNumber (digits ++ [b]) =
          wrapInt (versionNumber digits * 10 + charInt b - '0'.toNat) := by
        simp [versionNumber, pushDigit]
      rw [next, wrapInt_of_inInt range, before, char]
      push_cast
      omega

/-- The values computed for one more digit stay in the range of `int` exactly when the number does, with
    `'0'` added. -/
theorem digitValues_fit_iff {digits : Bytes} (all : ∀ b ∈ digits, isDigit (charInt b) = true)
    (fits : decimalFrom 0 digits < 2 ^ 31) {b : UInt8} (digit : isDigit (charInt b) = true) :
    (∀ z ∈ digitValues (versionNumber digits) b, InInt z) ↔
    decimalFrom 0 (digits ++ [b]) + '0'.toNat < 2 ^ 31 := by
  obtain ⟨char, small⟩ := charInt_of_isDigit digit
  have zero : '0'.toNat = 48 := rfl
  simp only [digitValues, versionNumber_of_lt all fits, char, decimalFrom_concat, List.forall_mem_cons,
    InInt, zero, List.not_mem_nil, false_implies, implies_true, and_true]
  omega

/-- All values that a parser computes in `int` from a text are in its range. -/
def IntsFit (start : Parsing) (blocks : List Bytes) : Prop :=
  ∀ pass ∈ parser.feedPasses start blocks, ∀ z ∈ intValues pass.1.state_ pass.2 pass.1.req, InInt z

instance (start : Parsing) (blocks : List Bytes) : Decidable (IntsFit start blocks) :=
  inferInstanceAs (Decidable (∀ pass ∈ parser.feedPasses start blocks, _))

/-- All values fit when those of every byte do that the run comes to. -/
theorem intsFit_iff {start : Parsing} {blocks : List Bytes} :
    IntsFit start blocks ↔ ∀ u b rest p, blocks.flatten = u ++ b :: rest → parser.Reads start u p →
      ∀ z ∈ intValues p.state_ b p.req, InInt z := by
  unfold IntsFit
  rw [Machine.feedPasses_eq_passes_flatten]
  constructor
  · intro fits u b rest p split reads
    exact fits (p, b) (Machine.mem_passes_iff.mpr ⟨u, rest, split, reads⟩)
  · rintro fits ⟨p, b⟩ member
    obtain ⟨u, rest, split, reads⟩ := Machine.mem_passes_iff.mp member
    exact fits u b rest p split reads

/-- Digit by digit: as long as no value has left the range, the next one is the number so far. -/
theorem versionsFit_of_intsFit {req : Request} (fresh : req.Fresh) {blocks : List Bytes}
    (fits : IntsFit (.start req) blocks) : VersionsFit blocks.flatten := by
  intro head digits
  induction digits using List.reverseRecOn with
  | nil => simp
  | append_singleton digits b ih =>
      intro rest text versionHead all
      have all' : ∀ c ∈ digits, isDigit (charInt c) = true := fun c member => all c (by simp [member])
      have before := ih (b :: rest) (by simp [text]) versionHead all'
      obtain ⟨p, reads, counts⟩ := reads_versionHead fresh versionHead all'
      have digit := all b (by simp)
      have values := intsFit_iff.mp fits _ b rest p (by simp [text]) reads
      rw [counts b digit] at values
      exact (digitValues_fit_iff all' (by omega) digit).mp values

/-- Byte by byte: as long as the count has not left the range, it is what was announced less the bytes so
    far. -/
theorem bodyFits_of_intsFit {req : Request} (fresh : req.Fresh) {blocks : List Bytes}
    (fits : IntsFit (.start req) blocks) : BodyFits blocks.flatten := by
  intro head v c rest text post given token low
  have every (body : Bytes) : ∀ rest', c :: rest = body ++ rest' →
      (body.length : Int) ≤ wrapInt (strtol v) + 2 ^ 31 := by
    induction body using List.reverseRecOn with
    | nil =>
        have range := inInt_wrapInt (strtol v)
        unfold InInt at range
        intro _ _
        simp only [List.length_nil]
        omega
    | append_singleton body b ih =>
        intro rest' split
        have before := ih (b :: rest') (by simp [split])
        have first : ∀ d ∈ (body ++ [b]).head?, isToken d = true := by
          intro d member
          have same : (body ++ [b] ++ rest').head? = (body ++ [b]).head? := by
            cases body <;> rfl
          rw [← same, ← split] at member
          cases Option.some.inj member
          exact token
        have front : ∀ d ∈ body.head?, isToken d = true := by
          intro d member
          apply first
          cases body with
          | nil => simp at member
          | cons e body => exact member
        obtain ⟨p, reads, values⟩ := reads_postBody fresh post given low front before
        have value := intsFit_iff.mp fits _ b rest' p (by rw [text, split]; simp) reads
        rw [values b fun none => first b (by simp [none])] at value
        have range := value _ (List.mem_singleton_self _)
        unfold InInt at range
        simp only [List.length_append, List.length_singleton]
        omega
  exact every (c :: rest) [] (by simp)

/-- Outside the states of the version and the body nothing is computed, and in those of the version only at a
    digit. -/
theorem intValues_cases {p : Parsing} {b : UInt8} {z : Int} (member : z ∈ intValues p.state_ b p.req) :
    p.state_.inVersion = true ∧ isDigit (charInt b) = true ∨
      (p.state_ = .contentStart ∧ isToken b = true ∨ p.state_ = .content) ∧ z = p.req.contentLength - 1 := by
  obtain ⟨state_, req⟩ := p
  cases state_ <;> simp_all [intValues, ParserState.inVersion, isNotToken_eq]

/-- The digits of a text whose numbers fit are added up in the range of `int`. -/
theorem version_inInt {req : Request} (fresh : req.Fresh) {text u rest : Bytes} (fits : VersionsFit text)
    {b : UInt8}
    (split : text = u ++ b :: rest) {p : Parsing} (reads : parser.Reads (.start req) u p)
    (inside : p.state_.inVersion = true) (digit : isDigit (charInt b) = true) :
    ∀ z ∈ intValues p.state_ b p.req, InInt z := by
  obtain ⟨head, digits, rfl, versionHead, all, counts⟩ := versionHead_of_reads fresh reads inside
  have all' : ∀ c ∈ digits ++ [b], isDigit (charInt c) = true := by
    intro c member
    rcases List.mem_append.mp member with before | last
    · exact all c before
    · rw [List.mem_singleton.mp last]
      exact digit
  have number := fits head (digits ++ [b]) rest (by simp [split]) versionHead all'
  have before : decimalFrom 0 digits < 2 ^ 31 := by
    rw [decimalFrom_concat] at number
    omega
  rw [counts b digit]
  exact (digitValues_fit_iff all before digit).mpr number

/-- The count of a body that fits stays in the range of `int`. -/
theorem count_inInt {req : Request} (fresh : req.Fresh) {text u rest : Bytes} (fits : BodyFits text)
    {b : UInt8}
    (split : text = u ++ b :: rest) {p : Parsing} (reads : parser.Reads (.start req) u p)
    (inside : p.state_ = .contentStart ∧ isToken b = true ∨ p.state_ = .content) :
    InInt (p.req.contentLength - 1) := by
  obtain ⟨head, v, body, r, rfl, post, given, empty, length, later⟩ :=
    postText_of_reads fresh reads (inside.imp_left And.left)
  have range : InInt r.contentLength := length ▸ inInt_wrapInt _
  have limits := range
  unfold InInt at limits ⊢
  rcases bodyCount_of_reads empty range later with ⟨rfl, rfl⟩ | ⟨c, tail, rfl, token, count, below⟩
  · have token : isToken b = true := by
      rcases inside with first | later
      · exact first.2
      · cases later
    have law := fits head v b rest (by simp [split]) post given token
    rw [← length, List.length_cons] at law
    simp only
    omega
  · have law := fits head v c (tail ++ b :: rest) (by simp [split]) post given token
    rw [← length] at law
    simp only [List.length_cons, List.length_append] at law below count
    have exact_ : wrapInt (r.contentLength - (tail.length + 1 : Nat)) = r.contentLength -
        (tail.length + 1 : Nat) := by
      apply wrapInt_of_inInt
      unfold InInt
      omega
    rw [count, exact_]
    omega

/-- For every sequence of bytes in any blocks, from the start on a fresh request: all values computed in
    `int` are in its range exactly when the digits of the version numbers and the bytes of the body are
    within it. -/
theorem int_values_fit_iff {req : Request} (fresh : req.Fresh) (blocks : List Bytes) :
    IntsFit (.start req) blocks ↔ VersionsFit blocks.flatten ∧ BodyFits blocks.flatten := by
  constructor
  · intro fits
    exact ⟨versionsFit_of_intsFit fresh fits, bodyFits_of_intsFit fresh fits⟩
  · rintro ⟨versions, body⟩
    apply intsFit_iff.mpr
    intro u b rest p split reads z member
    rcases intValues_cases member with ⟨inside, digit⟩ | ⟨inside, rfl⟩
    · exact version_inInt fresh versions split reads inside digit z member
    · exact count_inInt fresh body split reads inside

/-- A version of ten digits, and a body announced with the least `int`, in two blocks. -/
theorem ints_overflow :
    ¬ IntsFit (.start {}) [bytes "GET / HTTP/2147483600"] ∧
      ¬ IntsFit (.start {}) [bytes "POST / HTTP/1.1\r\nContent-Length: -2147483648\r\n\r\n", bytes "a"] := by
  decide +kernel

/-- A request of the usual version in two blocks. -/
theorem int_values_fit_iff_two_blocks :
    IntsFit (.start {}) [bytes "GET / HTTP/1", bytes ".1\r\n\r\n"] ↔
      VersionsFit (bytes "GET / HTTP/1.1\r\n\r\n") ∧ BodyFits (bytes "GET / HTTP/1.1\r\n\r\n") :=
  int_values_fit_iff Request.fresh_default [bytes "GET / HTTP/1", bytes ".1\r\n\r\n"]

end Waspp
