/-
Module: Waspp.Model.RequestParser
Layer: Model
Purpose: `request_parser::parse` as the source writes it: a loop over the input whose body is a switch on
  `state_`, some of whose cases are do/while loops of their own that run to the end of the block.  One
  pass through a case is `switchBody`; `doWhile` repeats a looping case and `parseLoop` is the outer
  `while (begin != end)`.  `parser` is the same code one byte at a time, as an incremental recogniser, and
  `parse_eq_run` says that the nested loops compute exactly its run.
Imports: Waspp.Foundation.Incremental, Waspp.Model.Request
Trusted boundary: human-reviewed translation of request_parser.hpp and the predicates of
  request_parser.cpp
Main exports: ParserState, isChar, isCtl, isTspecial, isDigit, switchBody, parse, parser, parse_eq_run,
  parse_outside
Open obligations: none
-/
import Waspp.Foundation.Incremental
import Waspp.Model.Request

namespace Waspp

open CString Incremental

/-- The states of the parser. -/
inductive ParserState where
  | methodStart
  | method
  | uri
  | paramNameStart
  | paramName
  | paramValueStart
  | paramValue
  | httpVersionH
  | httpVersionT1
  | httpVersionT2
  | httpVersionP
  | httpVersionSlash
  | httpVersionMajorStart
  | httpVersionMajor
  | httpVersionMinorStart
  | httpVersionMinor
  | expectingNewline1
  | headerLineStart
  | headerLws
  | headerName
  | spaceBeforeHeaderValue
  | headerValue
  | expectingNewline2
  | expectingNewline3
  | contentStart
  | content
deriving DecidableEq, Repr, Inhabited

/-! ### Byte classes -/

/-- Check if a byte is an HTTP character. -/
def isChar (c : Int) : Bool :=
  0 ≤ c && c ≤ 127

/-- Check if a byte is an HTTP control character. -/
def isCtl (c : Int) : Bool :=
  (0 ≤ c && c ≤ 31) || c == 127

/-- Check if a byte is defined as an HTTP tspecial character, in the order of the source's switch. -/
def isTspecial (c : Int) : Bool :=
  ['('.toNat, ')'.toNat, '<'.toNat, '>'.toNat, '@'.toNat, ','.toNat, ';'.toNat, ':'.toNat, '\\'.toNat,
    '"'.toNat, '/'.toNat, '['.toNat, ']'.toNat, '?'.toNat, '='.toNat, '{'.toNat, '}'.toNat, ' '.toNat,
    '\t'.toNat].any fun t => c == (t : Int)

/-- Check if a byte is a digit. -/
def isDigit (c : Int) : Bool :=
  '0'.toNat ≤ c && c ≤ '9'.toNat

/-- The test `!is_char(input) || is_ctl(input) || is_tspecial(input)` shared by the name-like states. -/
def isNotToken (input : UInt8) : Bool :=
  !isChar (charInt input) || isCtl (charInt input) || isTspecial (charInt input)

/-! ### The parser's loops -/

/-- How one pass through a case of the switch ends. -/
inductive Pass where
  /-- `break` with a result, a new `state_` and a new request, one byte read. -/
  | leave (result : Tribool) (state_ : ParserState) (req : Request)
  /-- Back to the `while (begin != end)` of the case's own loop, one byte read. -/
  | again (req : Request)
  /-- The `default` case: `result = false` with no byte read. -/
  | unread

/-- Append a byte to the value of the last entry: `back().value.push_back(input)`. -/
def pushBackValue (entries : List NameValue) (input : UInt8) : List NameValue :=
  match entries.getLast? with
  | some nv => entries.dropLast ++ [{ nv with value := nv.value ++ [input] }]
  | none => entries

/-- Append a byte to the name of the last entry: `back().name.push_back(input)`. -/
def pushBackName (entries : List NameValue) (input : UInt8) : List NameValue :=
  match entries.getLast? with
  | some nv => entries.dropLast ++ [{ nv with name := nv.name ++ [input] }]
  | none => entries

/-- `version * 10 + input - '0'` in `int` arithmetic. -/
def pushDigit (version : Int) (input : UInt8) : Int :=
  wrapInt (version * 10 + charInt input - '0'.toNat)

/-- `strtol(req.header("Content-Length").c_str(), nullptr, 0)` assigned to an `int`. -/
def headerLength (req : Request) : Int × Request :=
  let (length, req) := req.header (bytes "Content-Length")
  (wrapInt (strtol length), req)

/-- One pass through the case of the switch selected by `state_`, on the byte `input = *begin++`. -/
def switchBody (state_ : ParserState) (input : UInt8) (req : Request) : Pass :=
  match state_ with
  | .methodStart =>
      if isNotToken input then .leave .no .methodStart req
      else .leave .indeterminate .method { req with method := req.method ++ [input] }
  | .method =>
      if input == ' '.toUInt8 then .leave .indeterminate .uri req
      else if isNotToken input then .leave .no .method req
      else .again { req with method := req.method ++ [input] }
  | .uri =>
      if input == '?'.toUInt8 then
        .leave .indeterminate .paramNameStart { req with uri := req.uri ++ [input] }
      else if input == ' '.toUInt8 then .leave .indeterminate .httpVersionH req
      else if isCtl (charInt input) then .leave .no .uri req
      else .again { req with uri := req.uri ++ [input] }
  | .paramNameStart =>
      if input == ' '.toUInt8 then .leave .indeterminate .httpVersionH req
      else if isNotToken input then .leave .no .paramNameStart req
      else
        .leave .indeterminate .paramName
          { req with
            uri := req.uri ++ [input]
            params := pushBackName (req.params ++ [{}]) input }
  | .paramName =>
      if input == ' '.toUInt8 then .leave .indeterminate .httpVersionH req
      else if input == '='.toUInt8 then
        .leave .indeterminate .paramValue { req with uri := req.uri ++ [input] }
      else if isNotToken input then .leave .no .paramName req
      else
        .again
          { req with
            uri := req.uri ++ [input]
            params := pushBackName req.params input }
  | .paramValueStart => .unread
  | .paramValue =>
      if input == ' '.toUInt8 then .leave .indeterminate .httpVersionH req
      else if input == '&'.toUInt8 then
        .leave .indeterminate .paramNameStart { req with uri := req.uri ++ [input] }
      else if isNotToken input then .leave .no .paramValue req
      else
        .again
          { req with
            uri := req.uri ++ [input]
            params := pushBackValue req.params input }
  | .httpVersionH =>
      if input == 'H'.toUInt8 then .leave .indeterminate .httpVersionT1 req
      else .leave .no .httpVersionH req
  | .httpVersionT1 =>
      if input == 'T'.toUInt8 then .leave .indeterminate .httpVersionT2 req
      else .leave .no .httpVersionT1 req
  | .httpVersionT2 =>
      if input == 'T'.toUInt8 then .leave .indeterminate .httpVersionP req
      else .leave .no .httpVersionT2 req
  | .httpVersionP =>
      if input == 'P'.toUInt8 then .leave .indeterminate .httpVersionSlash req
      else .leave .no .httpVersionP req
  | .httpVersionSlash =>
      if input == '/'.toUInt8 then
        .leave .indeterminate .httpVersionMajorStart
          { req with httpVersionMajor := 0, httpVersionMinor := 0 }
      else .leave .no .httpVersionSlash req
  | .httpVersionMajorStart =>
      if isDigit (charInt input) then
        .leave .indeterminate .httpVersionMajor
          { req with httpVersionMajor := pushDigit req.httpVersionMajor input }
      else .leave .no .httpVersionMajorStart req
  | .httpVersionMajor =>
      if input == '.'.toUInt8 then .leave .indeterminate .httpVersionMinorStart req
      else if isDigit (charInt input) then
        .leave .indeterminate .httpVersionMajor
          { req with httpVersionMajor := pushDigit req.httpVersionMajor input }
      else .leave .no .httpVersionMajor req
  | .httpVersionMinorStart =>
      if isDigit (charInt input) then
        .leave .indeterminate .httpVersionMinor
          { req with httpVersionMinor := pushDigit req.httpVersionMinor input }
      else .leave .no .httpVersionMinorStart req
  | .httpVersionMinor =>
      if input == '\r'.toUInt8 then .leave .indeterminate .expectingNewline1 req
      else if isDigit (charInt input) then
        .leave .indeterminate .httpVersionMinor
          { req with httpVersionMinor := pushDigit req.httpVersionMinor input }
      else .leave .no .httpVersionMinor req
  | .expectingNewline1 =>
      if input == '\n'.toUInt8 then .leave .indeterminate .headerLineStart req
      else .leave .no .expectingNewline1 req
  | .headerLineStart =>
      if input == '\r'.toUInt8 then .leave .indeterminate .expectingNewline3 req
      else if !req.headers.isEmpty && (input == ' '.toUInt8 || input == '\t'.toUInt8) then
        .leave .indeterminate .headerLws req
      else if isNotToken input then .leave .no .headerLineStart req
      else
        .leave .indeterminate .headerName
          { req with headers := pushBackName (req.headers ++ [{}]) input }
  | .headerLws =>
      if input == '\r'.toUInt8 then .leave .indeterminate .expectingNewline2 req
      else if input == ' '.toUInt8 || input == '\t'.toUInt8 then .leave .indeterminate .headerLws req
      else if isCtl (charInt input) then .leave .no .headerLws req
      else
        .leave .indeterminate .headerValue { req with headers := pushBackValue req.headers input }
  | .headerName =>
      if input == ':'.toUInt8 then .leave .indeterminate .spaceBeforeHeaderValue req
      else if isNotToken input then .leave .no .headerName req
      else .again { req with headers := pushBackName req.headers input }
  | .spaceBeforeHeaderValue =>
      if input == ' '.toUInt8 then .leave .indeterminate .headerValue req
      else .leave .no .spaceBeforeHeaderValue req
  | .headerValue =>
      if input == '\r'.toUInt8 then .leave .indeterminate .expectingNewline2 req
      else if isCtl (charInt input) then .leave .no .headerValue req
      else .again { req with headers := pushBackValue req.headers input }
  | .expectingNewline2 =>
      if input == '\n'.toUInt8 then .leave .indeterminate .headerLineStart req
      else .leave .no .expectingNewline2 req
  | .expectingNewline3 =>
      if req.method == bytes "GET" && input == '\n'.toUInt8 then .leave .yes .expectingNewline3 req
      else if req.method == bytes "POST" && input == '\n'.toUInt8 then
        let (length, req) := req.header (bytes "Content-Length")
        if length.isEmpty then .leave .no .expectingNewline3 req
        else
          let (n, req) := headerLength req
          .leave .indeterminate .contentStart { req with contentLength := n }
      else .leave .no .expectingNewline3 req
  | .contentStart =>
      if !req.content.isEmpty then .leave .no .contentStart req
      else if isNotToken input then .leave .no .contentStart req
      else
        let req :=
          { req with
            contentLength := wrapInt (req.contentLength - 1)
            content := req.content ++ [input] }
        if req.contentLength == 0 then
          let (n, req) := headerLength req
          .leave .yes .contentStart { req with contentLength := n }
        else .leave .indeterminate .content req
  | .content =>
      let req :=
        { req with
          contentLength := wrapInt (req.contentLength - 1)
          content := req.content ++ [input] }
      if req.contentLength == 0 then
        let (n, req) := headerLength req
        .leave .yes .content { req with contentLength := n }
      else .leave .indeterminate .content req

/-- What a call of `parse` works on: the member `state_` and the request. -/
structure Parsing where
  state_ : ParserState
  req : Request
deriving DecidableEq, Repr

/-- The parser after its construction or `reset()`, on a given request. -/
def Parsing.start (req : Request) : Parsing :=
  { state_ := .methodStart, req := req }

/-- One case of the switch with its own loop: the result, what is left of `state_` and the request, and
    the bytes from `begin` on. -/
def doWhile (state_ : ParserState) : Request → Bytes → Tribool × Parsing × Bytes
  | req, [] => (.indeterminate, ⟨state_, req⟩, [])
  | req, input :: rest =>
      match switchBody state_ input req with
      | .leave result next req' => (result, ⟨next, req'⟩, rest)
      | .again req' => doWhile state_ req' rest
      | .unread => (.no, ⟨state_, req⟩, input :: rest)

/-- The loop `while (begin != end)`.  Each round reads a byte or ends the call, so one round a byte is
    enough. -/
def parseLoop : Nat → Parsing → Bytes → Tribool × Parsing × Bytes
  | 0, p, rest => (.indeterminate, p, rest)
  | _ + 1, p, [] => (.indeterminate, p, [])
  | rounds + 1, p, input :: rest =>
      match doWhile p.state_ p.req (input :: rest) with
      | (.indeterminate, p', rest') => parseLoop rounds p' rest'
      | answer => answer

/-- `parse(req, begin, end)`: the tribool returned, what is left of `state_` and the request, and the number
    of bytes by which the returned iterator is past `begin`. -/
def parse (p : Parsing) (data : Bytes) : Outcome Parsing :=
  let (result, p', rest) := parseLoop data.length p data
  ⟨result, p', data.length - rest.length⟩

/-- Calls of `parse` on successive blocks with the same request, up to the first that returns true or
    false. -/
def parseBlocks (p : Parsing) : List Bytes → Outcome Parsing
  | [] => ⟨.indeterminate, p, 0⟩
  | data :: blocks =>
      match parse p data with
      | ⟨.indeterminate, p', n⟩ => (parseBlocks p' blocks).after n
      | answer => answer

/-! ### The parser one byte at a time -/

/-- The same code as an incremental recogniser: a byte that sends a case back to the head of its loop
    leaves `state_` as it is and the verdict open. -/
def parser : Machine Parsing UInt8 where
  act p input :=
    match switchBody p.state_ input p.req with
    | .leave result next req => .read result ⟨next, req⟩
    | .again req => .read .indeterminate ⟨p.state_, req⟩
    | .unread => .refuse

/-- What a pass from this state leaves satisfies `P`. -/
def Pass.Leaves (state_ : ParserState) (P : Tribool → Parsing → Prop) : Pass → Prop
  | leave result next req => P result ⟨next, req⟩
  | again req => P .indeterminate ⟨state_, req⟩
  | unread => True

section Leaves

variable {state_ : ParserState} {P : Tribool → Parsing → Prop}

@[simp] theorem Pass.leaves_leave (result : Tribool) (next : ParserState) (req : Request) :
    (Pass.leave result next req).Leaves state_ P ↔ P result ⟨next, req⟩ := Iff.rfl

@[simp] theorem Pass.leaves_again (req : Request) :
    (Pass.again req).Leaves state_ P ↔ P .indeterminate ⟨state_, req⟩ := Iff.rfl

@[simp] theorem Pass.leaves_unread : Pass.unread.Leaves state_ P := trivial

@[simp] theorem Pass.leaves_ite {c : Prop} [Decidable c] {one two : Pass} :
    (if c then one else two).Leaves state_ P ↔ (c → one.Leaves state_ P) ∧ (¬ c → two.Leaves state_ P) := by
  split <;> simp_all

end Leaves

/-- What a byte leaves is what the pass leaves. -/
theorem of_act {P : Tribool → Parsing → Prop} {p q : Parsing} {b : UInt8} {verdict : Tribool}
    (act : parser.act p b = .read verdict q) (leaves : (switchBody p.state_ b p.req).Leaves p.state_ P) :
    P verdict q := by
  simp only [parser] at act
  cases pass : switchBody p.state_ b p.req with
  | leave result next req =>
      rw [pass] at act leaves
      cases act
      exact leaves
  | again req =>
      rw [pass] at act leaves
      cases act
      exact leaves
  | unread =>
      rw [pass] at act
      cases act

/-- What a pass leaves, with its request mapped. -/
def Pass.mapRequest (f : Request → Request) : Pass → Pass
  | leave result next req => .leave result next (f req)
  | again req => .again (f req)
  | unread => .unread

/-- A byte does to a mapped request what its pass does. -/
theorem act_map {f : Request → Request} {p : Parsing} {b b' : UInt8}
    (same : switchBody p.state_ b' (f p.req) = (switchBody p.state_ b p.req).mapRequest f) :
    parser.act ⟨p.state_, f p.req⟩ b' = (parser.act p b).map fun q => ⟨q.state_, f q.req⟩ := by
  simp only [parser, same]
  cases switchBody p.state_ b p.req <;> rfl

/-- A case's loop that stops with the verdict open has moved the recogniser from the start of the block to
    where it stopped. -/
theorem doWhile_indeterminate {state_ : ParserState} {req : Request} {data rest : Bytes}
    {p' : Parsing} (stopped : doWhile state_ req data = (.indeterminate, p', rest)) :
    rest.length ≤ data.length - 1 ∧
      parser.run ⟨state_, req⟩ data = (parser.run p' rest).after (data.length - rest.length) := by
  induction data generalizing req with
  | nil =>
      simp only [doWhile, Prod.mk.injEq, true_and] at stopped
      obtain ⟨rfl, rfl⟩ := stopped
      exact ⟨by simp, by simp⟩
  | cons input tail ih =>
      rw [doWhile] at stopped
      cases body : switchBody state_ input req with
      | leave result next req' =>
          simp only [body, Prod.mk.injEq] at stopped
          obtain ⟨rfl, rfl, rfl⟩ := stopped
          refine ⟨by simp, ?_⟩
          rw [Machine.run_cons_indeterminate (t := ⟨next, req'⟩) (by simp [parser, body])]
          simp
      | again req' =>
          simp only [body] at stopped
          obtain ⟨len, run⟩ := ih stopped
          refine ⟨by simp; omega, ?_⟩
          rw [Machine.run_cons_indeterminate (t := ⟨state_, req'⟩) (by simp [parser, body]), run,
            Outcome.after_after]
          cases tail with
          | nil =>
              simp only [doWhile, Prod.mk.injEq, true_and] at stopped
              obtain ⟨rfl, rfl⟩ := stopped
              simp
          | cons c tail =>
              simp only [List.length_cons] at len ⊢
              congr 1
              omega
      | unread => simp [body] at stopped

/-- A case's loop that ends with a definite result gives the recogniser's verdict. -/
theorem doWhile_definite {state_ : ParserState} {req : Request} {data rest : Bytes} {p' : Parsing}
    {result : Tribool} (definite : result ≠ .indeterminate)
    (stopped : doWhile state_ req data = (result, p', rest)) :
    rest.length ≤ data.length ∧
      parser.run ⟨state_, req⟩ data = ⟨result, p', data.length - rest.length⟩ := by
  induction data generalizing req with
  | nil =>
      simp only [doWhile, Prod.mk.injEq] at stopped
      exact absurd stopped.1.symm definite
  | cons input tail ih =>
      rw [doWhile] at stopped
      cases body : switchBody state_ input req with
      | leave verdict next req' =>
          simp only [body, Prod.mk.injEq] at stopped
          obtain ⟨rfl, rfl, rfl⟩ := stopped
          refine ⟨by simp, ?_⟩
          cases verdict with
          | indeterminate => exact absurd rfl definite
          | yes => rw [Machine.run_cons_yes (t := ⟨next, req'⟩) (by simp [parser, body])]; simp
          | no => rw [Machine.run_cons_no (t := ⟨next, req'⟩) (by simp [parser, body])]; simp
      | again req' =>
          simp only [body] at stopped
          obtain ⟨len, run⟩ := ih stopped
          refine ⟨by simp; omega, ?_⟩
          rw [Machine.run_cons_indeterminate (t := ⟨state_, req'⟩) (by simp [parser, body]), run]
          simp only [Outcome.after, List.length_cons, Outcome.mk.injEq, true_and]
          omega
      | unread =>
          simp only [body, Prod.mk.injEq] at stopped
          obtain ⟨rfl, rfl, rfl⟩ := stopped
          refine ⟨Nat.le_refl _, ?_⟩
          rw [Machine.run_cons_refuse (by simp [parser, body])]
          simp

/-- With a round for every byte, the outer loop computes the recogniser's run. -/
theorem parseLoop_eq_run {rounds : Nat} {p p' : Parsing} {data rest : Bytes} {result : Tribool}
    (enough : data.length ≤ rounds) (answer : parseLoop rounds p data = (result, p', rest)) :
    parser.run p data = ⟨result, p', data.length - rest.length⟩ ∧ rest.length ≤ data.length := by
  induction rounds generalizing p data with
  | zero =>
      have empty : data = [] := List.length_eq_zero_iff.mp (by omega)
      subst empty
      simp only [parseLoop, Prod.mk.injEq] at answer
      obtain ⟨rfl, rfl, rfl⟩ := answer
      simp
  | succ rounds ih =>
      cases data with
      | nil =>
          simp only [parseLoop, Prod.mk.injEq] at answer
          obtain ⟨rfl, rfl, rfl⟩ := answer
          simp
      | cons input tail =>
          rw [parseLoop] at answer
          cases stopped : doWhile p.state_ p.req (input :: tail) with
          | mk verdict remaining =>
              obtain ⟨q, left⟩ := remaining
              cases verdict with
              | indeterminate =>
                  simp only [stopped] at answer
                  obtain ⟨shorter, run⟩ := doWhile_indeterminate stopped
                  simp only [List.length_cons] at shorter enough
                  obtain ⟨tailRun, fits⟩ := ih (by omega) answer
                  refine ⟨?_, by simp; omega⟩
                  rw [run, tailRun]
                  simp only [Outcome.after, List.length_cons, Outcome.mk.injEq, true_and]
                  omega
              | yes =>
                  simp only [stopped, Prod.mk.injEq] at answer
                  obtain ⟨rfl, rfl, rfl⟩ := answer
                  exact (doWhile_definite (by simp) stopped).symm
              | no =>
                  simp only [stopped, Prod.mk.injEq] at answer
                  obtain ⟨rfl, rfl, rfl⟩ := answer
                  exact (doWhile_definite (by simp) stopped).symm

/-- A call of `parse` is a run of the recogniser. -/
theorem parse_eq_run (p : Parsing) (data : Bytes) : parse p data = parser.run p data := by
  cases answer : parseLoop data.length p data with
  | mk result remaining =>
      obtain ⟨p', rest⟩ := remaining
      rw [(parseLoop_eq_run (Nat.le_refl _) answer).1, parse, answer]

/-- Successive calls of `parse` are the recogniser fed block by block. -/
theorem parseBlocks_eq_feed (p : Parsing) (blocks : List Bytes) :
    parseBlocks p blocks = parser.feed p blocks := by
  induction blocks generalizing p with
  | nil => rfl
  | cons data blocks ih =>
      rw [parseBlocks, parse_eq_run, Machine.feed]
      cases run : parser.run p data with
      | mk verdict q n => cases verdict <;> simp [ih]

/-! ### What the parser leaves alone -/

/-- The members of a request that `parse` does not write are the same. -/
@[mk_iff] structure Request.SameOutside (req req' : Request) : Prop where
  remoteAddr : req'.remoteAddr = req.remoteAddr
  connectionOption : req'.connectionOption = req.connectionOption
  cookies : req'.cookies = req.cookies
  restParams : req'.restParams = req.restParams
  uploads : req'.uploads = req.uploads

/-- What two calls in a row leave alone is left alone. -/
theorem Request.SameOutside.trans {req req' req'' : Request} (one : req.SameOutside req')
    (two : req'.SameOutside req'') :
    req.SameOutside req'' :=
  ⟨two.remoteAddr.trans one.remoteAddr, two.connectionOption.trans one.connectionOption,
    two.cookies.trans one.cookies, two.restParams.trans one.restParams, two.uploads.trans one.uploads⟩

/-- No byte changes what the parser leaves alone. -/
theorem act_outside {p q : Parsing} {b : UInt8} {verdict : Tribool}
    (act : parser.act p b = .read verdict q) :
    p.req.SameOutside q.req := by
  refine of_act (P := fun _ q => p.req.SameOutside q.req) act ?_
  obtain ⟨state_, req⟩ := p
  cases state_ <;> simp [switchBody, headerLength, Request.header, Request.sameOutside_iff]

theorem parse_outside (p : Parsing) (data : Bytes) : p.req.SameOutside (parse p data).state.req := by
  rw [parse_eq_run]
  have reached : parser.Reachable p (parser.run p data).state := Machine.Reachable.refl.run data
  refine reached.invariant (P := fun q => p.req.SameOutside q.req) ⟨rfl, rfl, rfl, rfl, rfl⟩ ?_
  intro t u b verdict same act
  exact same.trans (act_outside act)

end Waspp
