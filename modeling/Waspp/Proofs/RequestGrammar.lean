/-
Module: Waspp.Proofs.RequestGrammar
Layer: Proofs
Purpose: The language of GET requests that `parse` accepts, and what it extracts.  The grammar is stated as
  relations between a text and the pieces it denotes: `QueryText` for a query string and its parameters,
  `FoldText` for the continuation lines of a header, `LinesText` for the header lines, `GetRequest` for a
  whole request.  Each looping state of the parser is cut off at the byte that leaves it
  (`accepts_*_iff`), which unrolls acceptance by one parameter or one header line at a time; soundness is
  then an induction on the length of the input and completeness an induction on the grammar.
Imports: Mathlib.Tactic.MkIffOfInductiveProp, Waspp.Model.RequestParser
Trusted boundary: none (fully proved)
Main exports: isToken, QueryText, FoldText, LinesText, GetRequest, target_of_accepts, parse_get_iff
Open obligations: none
-/
import Mathlib.Tactic.MkIffOfInductiveProp
import Waspp.Model.RequestParser

namespace Waspp

open CString Incremental

/-! ### The grammar

What a request is, as texts: a method, a target with or without a query, two version numbers and header
lines with their continuations.  It names no state of the parser. -/

/-- A token byte. -/
def isToken (b : UInt8) : Bool :=
  isChar (charInt b) && !isCtl (charInt b) && !isTspecial (charInt b)

/-- A byte of a target before its `?`. -/
def isTargetByte (b : UInt8) : Bool :=
  !isCtl (charInt b) && b != ' '.toUInt8 && b != '?'.toUInt8

/-- A byte of a header value. -/
def isTextByte (b : UInt8) : Bool :=
  !isCtl (charInt b)

/-- A blank of a continuation line. -/
def isBlank (b : UInt8) : Bool :=
  b == ' '.toUInt8 || b == '\t'.toUInt8

/-- A nonempty run of token bytes. -/
@[mk_iff] structure Name (n : Bytes) : Prop where
  nonempty : n ≠ []
  token : ∀ b ∈ n, isToken b = true

/-- A possibly empty run of token bytes without `&`. -/
structure ParamValue (v : Bytes) : Prop where
  token : ∀ b ∈ v, isToken b = true ∧ b ≠ '&'.toUInt8

/-- A run of one or more decimal digits. -/
@[mk_iff] structure Digits (d : Bytes) : Prop where
  nonempty : d ≠ []
  digit : ∀ b ∈ d, isDigit (charInt b) = true

/-- The line end. -/
def crlf : Bytes := ['\r'.toUInt8, '\n'.toUInt8]

/-- `(N '=' V '&')* [N ['=' V]]` with the parameters it denotes; a missing value is empty. -/
inductive QueryText : Bytes → List NameValue → Prop where
  | done : QueryText [] []
  | bare {n : Bytes} (name : Name n) : QueryText n [{ name := n, value := [] }]
  | last {n v : Bytes} (name : Name n) (value : ParamValue v) :
      QueryText (n ++ '='.toUInt8 :: v) [{ name := n, value := v }]
  | more {n v rest : Bytes} {params : List NameValue} (name : Name n) (value : ParamValue v)
      (tail : QueryText rest params) :
      QueryText (n ++ '='.toUInt8 :: v ++ '&'.toUInt8 :: rest) ({ name := n, value := v } :: params)

/-- A target: a path, or a path, `?` and a query. -/
inductive TargetText : Bytes → List NameValue → Prop where
  | path {p : Bytes} (path : ∀ b ∈ p, isTargetByte b = true) : TargetText p []
  | query {p q : Bytes} {params : List NameValue} (path : ∀ b ∈ p, isTargetByte b = true)
      (query : QueryText q params) : TargetText (p ++ '?'.toUInt8 :: q) params

/-- Any number of continuation lines, with the bytes they add to the value before them. -/
inductive FoldText : Bytes → Bytes → Prop where
  | done : FoldText [] []
  | fold {blanks text rest added : Bytes} (nonempty : blanks ≠ []) (blank : ∀ b ∈ blanks, isBlank b = true)
      (body : ∀ b ∈ text, isTextByte b = true) (noBlank : text.head? ≠ some ' '.toUInt8)
      (tail : FoldText rest added) :
      FoldText (blanks ++ text ++ crlf ++ rest) (text ++ added)

/-- Any number of header lines, each with its continuation lines, and the headers they denote. -/
inductive LinesText : Bytes → List NameValue → Prop where
  | done : LinesText [] []
  | line {n v folds added rest : Bytes} {headers : List NameValue} (name : Name n)
      (value : ∀ b ∈ v, isTextByte b = true) (folded : FoldText folds added)
      (tail : LinesText rest headers) :
      LinesText (n ++ ':'.toUInt8 :: ' '.toUInt8 :: v ++ crlf ++ folds ++ rest)
        ({ name := n, value := v ++ added } :: headers)

/-- The number that digits denote, accumulated in `int` arithmetic. -/
def versionNumber (digits : Bytes) : Int :=
  digits.foldl pushDigit 0

/-- A whole GET request with the pieces it denotes. -/
inductive GetRequest :
    Bytes → Bytes → List NameValue → Int → Int → List NameValue → Prop where
  | intro {target major minor lines : Bytes} {params headers : List NameValue}
      (targetText : TargetText target params) (majorDigits : Digits major)
      (minorDigits : Digits minor) (linesText : LinesText lines headers) :
      GetRequest
        (bytes "GET " ++ target ++ bytes " HTTP/" ++ major ++ bytes "." ++ minor ++ crlf ++ lines ++ crlf)
        target params (versionNumber major) (versionNumber minor) headers

/-! ### Byte classes -/

/-- The two classes are complements. -/
theorem isNotToken_eq (b : UInt8) : isNotToken b = !isToken b := by
  simp [isNotToken, isToken, Bool.not_and]

/-- A token byte is none of the bytes that are not. -/
theorem ne_of_isToken {b c : UInt8} (token : isToken b = true) (other : isToken c = false) : b ≠ c := by
  rintro rfl
  simp [token] at other

theorem ne_of_isTextByte {b c : UInt8} (text : isTextByte b = true) (other : isTextByte c = false) :
    b ≠ c := by
  rintro rfl
  simp [text] at other

/-- The blanks are two. -/
theorem isBlank_iff {b : UInt8} : isBlank b = true ↔ b = ' '.toUInt8 ∨ b = '\t'.toUInt8 := by
  simp [isBlank]

/-- A blank is no carriage return. -/
theorem ne_cr_of_isBlank {b : UInt8} (blank : isBlank b = true) : b ≠ '\r'.toUInt8 := by
  rintro rfl
  exact absurd blank (by decide)

/-- A digit is none of the bytes that are not. -/
theorem ne_of_isDigit {b c : UInt8} (digit : isDigit (charInt b) = true)
    (other : isDigit (charInt c) = false) : b ≠ c := by
  rintro rfl
  simp [digit] at other

/-! ### The bytes of a target -/

/-- The bytes of a query are token bytes and `=`. -/
theorem QueryText.token {q : Bytes} {params : List NameValue} (query : QueryText q params) :
    ∀ b ∈ q, isToken b = true ∨ b = '='.toUInt8 := by
  have written {n v : Bytes} (name : Name n) (value : ParamValue v) :
      ∀ b ∈ n ++ '='.toUInt8 :: v, isToken b = true ∨ b = '='.toUInt8 := by
    intro b member
    rcases List.mem_append.mp member with inName | member
    · exact Or.inl (name.token b inName)
    · rcases List.mem_cons.mp member with rfl | inValue
      · exact Or.inr rfl
      · exact Or.inl (value.token b inValue).1
  induction query with
  | done => simp
  | bare name => exact fun b member => Or.inl (name.token b member)
  | last name value => exact written name value
  | more name value _ ih =>
      intro b member
      rcases List.mem_append.mp member with here | member
      · exact written name value b here
      · rcases List.mem_cons.mp member with rfl | later
        · exact Or.inl (by decide)
        · exact ih b later

/-- The bytes of a target are text bytes without a blank. -/
theorem TargetText.visible {target : Bytes} {params : List NameValue} (text : TargetText target params) :
    ∀ b ∈ target, isTextByte b = true ∧ b ≠ ' '.toUInt8 := by
  have inPath {b : UInt8} (path : isTargetByte b = true) : isTextByte b = true ∧ b ≠ ' '.toUInt8 := by
    simp only [isTargetByte, Bool.and_eq_true, bne_iff_ne] at path
    exact ⟨path.1.1, path.1.2⟩
  cases text with
  | path path => exact fun b member => inPath (path b member)
  | query path query =>
      intro b member
      rcases List.mem_append.mp member with before | member
      · exact inPath (path b before)
      · rcases List.mem_cons.mp member with rfl | behind
        · decide
        · rcases query.token b behind with token | rfl
          · rw [isToken, Bool.and_eq_true, Bool.and_eq_true] at token
            exact ⟨token.1.2, ne_of_isToken (by simp [isToken, token]) (by decide)⟩
          · decide

/-! ### Building the last entry of a list

The parser appends bytes to the name or the value of the last entry, so its loops are stated with that
entry taken apart. -/

@[simp] theorem pushBackName_append (entries : List NameValue) (nv : NameValue) (input : UInt8) :
    pushBackName (entries ++ [nv]) input = entries ++ [{ nv with name := nv.name ++ [input] }] := by
  simp [pushBackName]

@[simp] theorem pushBackValue_append (entries : List NameValue) (nv : NameValue) (input : UInt8) :
    pushBackValue (entries ++ [nv]) input = entries ++ [{ nv with value := nv.value ++ [input] }] := by
  simp [pushBackValue]

/-- In a state that goes on at one byte and answers false at any other, acceptance unfolds along it. -/
theorem accepts_expect_iff {s t : ParserState} {req req' : Request} {c : UInt8}
    (body : ∀ b, switchBody s b req =
      if b == c then .leave .indeterminate t req' else .leave .no s req)
    (w : Bytes) (p : Parsing) :
    parser.Accepts ⟨s, req⟩ w p ↔ ∃ v, w = c :: v ∧ parser.Accepts ⟨t, req'⟩ v p :=
  Machine.accepts_expect_iff (by simp [parser, body]) (by intro b ne; simp [parser, body, ne]) w p

/-! ### The request line

State by state, from the end of the line to its beginning: what is accepted from a state is a text of the
grammar followed by what is accepted from the next one. -/

section RequestLine

variable (req : Request)

/-- The parser while it collects the method. -/
def scanMethod (collected : Bytes) : Parsing :=
  ⟨.method, { req with method := req.method ++ collected }⟩

/-- The method is a name ended by a blank. -/
theorem accepts_methodStart_iff (w : Bytes) (p : Parsing) :
    parser.Accepts ⟨.methodStart, req⟩ w p ↔
      ∃ n v, w = n ++ ' '.toUInt8 :: v ∧ Name n ∧
        parser.Accepts ⟨.uri, { req with method := req.method ++ n }⟩ v p := by
  rw [Machine.accepts_scan_nonempty_until_iff (scanMethod req) (isToken · = true)
    (fun u => ⟨.uri, { req with method := req.method ++ u }⟩) (c := ' '.toUInt8)]
  · simp only [name_iff, and_assoc]
  · intro b token
    simp [parser, switchBody, scanMethod, isNotToken_eq, token]
  · intro b other
    simp only [Bool.not_eq_true] at other
    simp [parser, switchBody, isNotToken_eq, other]
  · intro u b token
    have ne : b ≠ ' '.toUInt8 := ne_of_isToken token (by decide)
    simp [parser, switchBody, scanMethod, isNotToken_eq, token, ne]
  · intro u
    simp [parser, switchBody, scanMethod]
  · intro u b other stays
    simp only [Bool.not_eq_true] at other
    simp [parser, switchBody, scanMethod, isNotToken_eq, other, stays]

/-- The parser while it collects the path. -/
def scanUri (collected : Bytes) : Parsing :=
  ⟨.uri, { req with uri := req.uri ++ collected }⟩

/-- The path ends at a blank, or at a `?` that begins a query. -/
theorem accepts_uri_iff (w : Bytes) (p : Parsing) :
    parser.Accepts ⟨.uri, req⟩ w p ↔
      ∃ u v, (∀ b ∈ u, isTargetByte b = true) ∧
        (w = u ++ ' '.toUInt8 :: v ∧
            parser.Accepts ⟨.httpVersionH, { req with uri := req.uri ++ u }⟩ v p ∨
          w = u ++ '?'.toUInt8 :: v ∧
            parser.Accepts ⟨.paramNameStart, { req with uri := req.uri ++ u ++ ['?'.toUInt8] }⟩ v p) := by
  have atBlank (u v : Bytes) : parser.Accepts (scanUri req u) (' '.toUInt8 :: v) p ↔
      parser.Accepts ⟨.httpVersionH, { req with uri := req.uri ++ u }⟩ v p :=
    Machine.accepts_cons_of_indeterminate (by
      simp [parser, switchBody, scanUri, show ' '.toUInt8 ≠ '?'.toUInt8 by decide])
  have atQuery (u v : Bytes) : parser.Accepts (scanUri req u) ('?'.toUInt8 :: v) p ↔
      parser.Accepts ⟨.paramNameStart, { req with uri := req.uri ++ u ++ ['?'.toUInt8] }⟩ v p :=
    Machine.accepts_cons_of_indeterminate (by simp [parser, switchBody, scanUri])
  have scan := Machine.accepts_scan_iff (m := parser) (scanUri req) (isTargetByte · = true)
    (fun b => b = ' '.toUInt8 ∨ b = '?'.toUInt8)
    ?collect ?reject [] w p
  case collect =>
    intro u b path
    simp only [isTargetByte, Bool.and_eq_true, Bool.not_eq_true', bne_iff_ne] at path
    simp [parser, switchBody, scanUri, path]
  case reject =>
    intro u b other stays
    simp only [not_or] at stays
    simp only [isTargetByte, Bool.and_eq_true, Bool.not_eq_true', bne_iff_ne, stays, ne_eq,
      not_false_eq_true, and_true, Bool.not_eq_false] at other
    simp [parser, switchBody, scanUri, stays, other]
  have start : (⟨.uri, req⟩ : Parsing) = scanUri req [] := by simp [scanUri]
  rw [start, scan]
  constructor
  · rintro ⟨u, _, v, rfl, all, rfl | rfl, tail⟩
    · exact ⟨u, v, all, Or.inl ⟨rfl, (atBlank _ v).mp tail⟩⟩
    · exact ⟨u, v, all, Or.inr ⟨rfl, (atQuery _ v).mp tail⟩⟩
  · rintro ⟨u, v, all, ⟨rfl, tail⟩ | ⟨rfl, tail⟩⟩
    · exact ⟨u, _, v, rfl, all, Or.inl rfl, (atBlank u v).mpr tail⟩
    · exact ⟨u, _, v, rfl, all, Or.inr rfl, (atQuery u v).mpr tail⟩

/-- The request with `text` added to the uri and one parameter added to the list. -/
def withParam (text n v : Bytes) : Request :=
  { req with uri := req.uri ++ text, params := req.params ++ [{ name := n, value := v }] }

/-- The parser while it collects a parameter's name. -/
def scanParamName (collected : Bytes) : Parsing :=
  ⟨.paramName, withParam req collected collected []⟩

/-- The parser while it collects the value of the parameter named `n`. -/
def scanParamValue (n collected : Bytes) : Parsing :=
  ⟨.paramValue, withParam req (n ++ '='.toUInt8 :: collected) n collected⟩

/-- What is accepted in the name of a parameter. -/
theorem accepts_paramName_iff (done w : Bytes) (p : Parsing) :
    parser.Accepts (scanParamName req done) w p ↔
      ∃ u v, (∀ b ∈ u, isToken b = true) ∧
        (w = u ++ ' '.toUInt8 :: v ∧
            parser.Accepts ⟨.httpVersionH, withParam req (done ++ u) (done ++ u) []⟩ v p ∨
          w = u ++ '='.toUInt8 :: v ∧ parser.Accepts (scanParamValue req (done ++ u) []) v p) := by
  have atBlank (u v : Bytes) : parser.Accepts (scanParamName req u) (' '.toUInt8 :: v) p ↔
      parser.Accepts ⟨.httpVersionH, withParam req u u []⟩ v p :=
    Machine.accepts_cons_of_indeterminate (by simp [parser, switchBody, scanParamName])
  have atEquals (u v : Bytes) : parser.Accepts (scanParamName req u) ('='.toUInt8 :: v) p ↔
      parser.Accepts (scanParamValue req u []) v p :=
    Machine.accepts_cons_of_indeterminate (by
      simp [parser, switchBody, scanParamName, scanParamValue, withParam,
        show '='.toUInt8 ≠ ' '.toUInt8 by decide])
  rw [Machine.accepts_scan_iff (m := parser) (scanParamName req) (isToken · = true)
    (fun b => b = ' '.toUInt8 ∨ b = '='.toUInt8)]
  · constructor
    · rintro ⟨u, _, v, rfl, all, rfl | rfl, tail⟩
      · exact ⟨u, v, all, Or.inl ⟨rfl, (atBlank _ v).mp tail⟩⟩
      · exact ⟨u, v, all, Or.inr ⟨rfl, (atEquals _ v).mp tail⟩⟩
    · rintro ⟨u, v, all, ⟨rfl, tail⟩ | ⟨rfl, tail⟩⟩
      · exact ⟨u, _, v, rfl, all, Or.inl rfl, (atBlank _ v).mpr tail⟩
      · exact ⟨u, _, v, rfl, all, Or.inr rfl, (atEquals _ v).mpr tail⟩
  · intro u b token
    have blank : b ≠ ' '.toUInt8 := ne_of_isToken token (by decide)
    have equals : b ≠ '='.toUInt8 := ne_of_isToken token (by decide)
    simp [parser, switchBody, scanParamName, withParam, isNotToken_eq, token, blank, equals]
  · intro u b other stays
    simp only [Bool.not_eq_true, not_or] at other stays
    simp [parser, switchBody, scanParamName, isNotToken_eq, other, stays]

/-- What is accepted in its value. -/
theorem accepts_paramValue_iff (n done w : Bytes) (p : Parsing) :
    parser.Accepts (scanParamValue req n done) w p ↔
      ∃ u v, (∀ b ∈ u, isToken b = true ∧ b ≠ '&'.toUInt8) ∧
        (w = u ++ ' '.toUInt8 :: v ∧
            parser.Accepts
              ⟨.httpVersionH, withParam req (n ++ '='.toUInt8 :: (done ++ u)) n (done ++ u)⟩ v p ∨
          w = u ++ '&'.toUInt8 :: v ∧
            parser.Accepts
              ⟨.paramNameStart,
                withParam req (n ++ '='.toUInt8 :: (done ++ u) ++ ['&'.toUInt8]) n (done ++ u)⟩ v p) := by
  have atBlank (u v : Bytes) : parser.Accepts (scanParamValue req n u) (' '.toUInt8 :: v) p ↔
      parser.Accepts ⟨.httpVersionH, withParam req (n ++ '='.toUInt8 :: u) n u⟩ v p :=
    Machine.accepts_cons_of_indeterminate (by simp [parser, switchBody, scanParamValue])
  have atAnd (u v : Bytes) : parser.Accepts (scanParamValue req n u) ('&'.toUInt8 :: v) p ↔
      parser.Accepts
        ⟨.paramNameStart, withParam req (n ++ '='.toUInt8 :: u ++ ['&'.toUInt8]) n u⟩ v p :=
    Machine.accepts_cons_of_indeterminate (by
      simp [parser, switchBody, scanParamValue, withParam, show '&'.toUInt8 ≠ ' '.toUInt8 by decide])
  rw [Machine.accepts_scan_iff (m := parser) (scanParamValue req n)
    (fun b => isToken b = true ∧ b ≠ '&'.toUInt8) (fun b => b = ' '.toUInt8 ∨ b = '&'.toUInt8)]
  · constructor
    · rintro ⟨u, _, v, rfl, all, rfl | rfl, tail⟩
      · exact ⟨u, v, all, Or.inl ⟨rfl, (atBlank _ v).mp tail⟩⟩
      · exact ⟨u, v, all, Or.inr ⟨rfl, (atAnd _ v).mp tail⟩⟩
    · rintro ⟨u, v, all, ⟨rfl, tail⟩ | ⟨rfl, tail⟩⟩
      · exact ⟨u, _, v, rfl, all, Or.inl rfl, (atBlank _ v).mpr tail⟩
      · exact ⟨u, _, v, rfl, all, Or.inr rfl, (atAnd _ v).mpr tail⟩
  · rintro u b ⟨token, ampersand⟩
    have blank : b ≠ ' '.toUInt8 := ne_of_isToken token (by decide)
    simp [parser, switchBody, scanParamValue, withParam, isNotToken_eq, token, blank, ampersand]
  · intro u b other stays
    simp only [not_or] at stays
    simp only [stays, ne_eq, not_false_eq_true, and_true, Bool.not_eq_true] at other
    simp [parser, switchBody, scanParamValue, isNotToken_eq, other, stays]

/-- A query unrolled by one parameter: nothing, a name alone, a last pair, or a pair and more. -/
theorem accepts_paramNameStart_iff (w : Bytes) (p : Parsing) :
    parser.Accepts ⟨.paramNameStart, req⟩ w p ↔
      (∃ v, w = ' '.toUInt8 :: v ∧ parser.Accepts ⟨.httpVersionH, req⟩ v p) ∨
      (∃ n v, Name n ∧ w = n ++ ' '.toUInt8 :: v ∧
        parser.Accepts ⟨.httpVersionH, withParam req n n []⟩ v p) ∨
      (∃ n x v, Name n ∧ ParamValue x ∧ w = n ++ '='.toUInt8 :: x ++ ' '.toUInt8 :: v ∧
        parser.Accepts ⟨.httpVersionH, withParam req (n ++ '='.toUInt8 :: x) n x⟩ v p) ∨
      (∃ n x v, Name n ∧ ParamValue x ∧ w = n ++ '='.toUInt8 :: x ++ '&'.toUInt8 :: v ∧
        parser.Accepts
          ⟨.paramNameStart, withParam req (n ++ '='.toUInt8 :: x ++ ['&'.toUInt8]) n x⟩ v p) := by
  have atBlank (v : Bytes) : parser.Accepts ⟨.paramNameStart, req⟩ (' '.toUInt8 :: v) p ↔
      parser.Accepts ⟨.httpVersionH, req⟩ v p :=
    Machine.accepts_cons_of_indeterminate (by simp [parser, switchBody])
  have atToken {b : UInt8} (token : isToken b = true) (v : Bytes) :
      parser.Accepts ⟨.paramNameStart, req⟩ (b :: v) p ↔ parser.Accepts (scanParamName req [b]) v p := by
    have blank : b ≠ ' '.toUInt8 := ne_of_isToken token (by decide)
    exact Machine.accepts_cons_of_indeterminate (by
      simp [parser, switchBody, isNotToken_eq, token, blank, scanParamName, withParam])
  constructor
  · intro accepted
    cases w with
    | nil => exact absurd accepted Machine.not_accepts_nil
    | cons b w =>
        by_cases blank : b = ' '.toUInt8
        · subst blank
          exact Or.inl ⟨w, rfl, (atBlank w).mp accepted⟩
        · by_cases token : isToken b = true
          · obtain ⟨u, v, all, ⟨rfl, tail⟩ | ⟨rfl, tail⟩⟩ :=
              (accepts_paramName_iff req _ _ _).mp ((atToken token w).mp accepted)
            all_goals have name : Name (b :: u) := ⟨by simp, by simpa [token] using all⟩
            · exact Or.inr (Or.inl ⟨b :: u, v, name, rfl, tail⟩)
            · obtain ⟨x, v, value, ⟨rfl, rest⟩ | ⟨rfl, rest⟩⟩ :=
                (accepts_paramValue_iff req _ _ _ _).mp tail
              · exact Or.inr (Or.inr (Or.inl ⟨b :: u, x, v, name, ⟨value⟩, by simp, rest⟩))
              · exact Or.inr (Or.inr (Or.inr ⟨b :: u, x, v, name, ⟨value⟩, by simp, rest⟩))
          · simp only [Bool.not_eq_true] at token
            exact absurd accepted (Machine.not_accepts_cons_of_no (t := ⟨.paramNameStart, req⟩)
              (by simp [parser, switchBody, isNotToken_eq, token, blank]))
  · have atName {n : Bytes} (name : Name n) (v : Bytes)
        (tail : parser.Accepts (scanParamName req (n.take 1)) (n.drop 1 ++ v) p) :
        parser.Accepts ⟨.paramNameStart, req⟩ (n ++ v) p := by
      cases n with
      | nil => exact absurd rfl name.nonempty
      | cons b u => exact (atToken (name.token b (by simp)) _).mpr tail
    have all {n : Bytes} (name : Name n) : ∀ b ∈ n.drop 1, isToken b = true :=
      fun b member => name.token b (List.mem_of_mem_drop member)
    rintro (⟨v, rfl, tail⟩ | ⟨n, v, name, rfl, tail⟩ | ⟨n, x, v, name, value, rfl, tail⟩ |
      ⟨n, x, v, name, value, rfl, tail⟩)
    · exact (atBlank v).mpr tail
    · refine atName name _ ((accepts_paramName_iff req _ _ _).mpr ⟨n.drop 1, v, all name, Or.inl ⟨rfl, ?_⟩⟩)
      rwa [List.take_append_drop]
    · rw [List.append_assoc]
      refine atName name _ ((accepts_paramName_iff req _ _ _).mpr
        ⟨n.drop 1, x ++ ' '.toUInt8 :: v, all name, Or.inr ⟨by simp, ?_⟩⟩)
      rw [List.take_append_drop]
      exact (accepts_paramValue_iff req _ _ _ _).mpr ⟨x, v, value.token, Or.inl ⟨rfl, tail⟩⟩
    · rw [List.append_assoc]
      refine atName name _ ((accepts_paramName_iff req _ _ _).mpr
        ⟨n.drop 1, x ++ '&'.toUInt8 :: v, all name, Or.inr ⟨by simp, ?_⟩⟩)
      rw [List.take_append_drop]
      exact (accepts_paramValue_iff req _ _ _ _).mpr ⟨x, v, value.token, Or.inr ⟨rfl, tail⟩⟩

/-- The query is the longest text of the grammar before the blank, and each of its parameters is added to the
    list in order. -/
theorem accepts_query_iff (w : Bytes) (p : Parsing) :
    parser.Accepts ⟨.paramNameStart, req⟩ w p ↔
      ∃ q params v, w = q ++ ' '.toUInt8 :: v ∧ QueryText q params ∧
        parser.Accepts
          ⟨.httpVersionH, { req with uri := req.uri ++ q, params := req.params ++ params }⟩ v p := by
  constructor
  · -- each parameter shortens the input
    induction len : w.length using Nat.strongRecOn generalizing req w with
    | _ k ih =>
        intro accepted
        rcases (accepts_paramNameStart_iff req w p).mp accepted with
          ⟨v, rfl, tail⟩ | ⟨n, v, name, rfl, tail⟩ | ⟨n, x, v, name, value, rfl, tail⟩ |
          ⟨n, x, v, name, value, rfl, tail⟩
        · exact ⟨[], [], v, rfl, .done, by simpa using tail⟩
        · exact ⟨n, _, v, rfl, .bare name, tail⟩
        · exact ⟨_, _, v, rfl, .last name value, tail⟩
        · obtain ⟨q, params, v', rfl, query, rest⟩ :=
            ih v.length (by rw [← len]; simp; omega) _ v rfl tail
          refine ⟨_, _, v', ?_, .more name value query, by simpa [withParam] using rest⟩
          simp
  · rintro ⟨q, params, v, rfl, query, tail⟩
    induction query generalizing req with
    | done =>
        exact (accepts_paramNameStart_iff req _ p).mpr (Or.inl ⟨v, rfl, by simpa using tail⟩)
    | bare name =>
        exact (accepts_paramNameStart_iff req _ p).mpr (Or.inr (Or.inl ⟨_, v, name, rfl, tail⟩))
    | last name value =>
        exact (accepts_paramNameStart_iff req _ p).mpr
          (Or.inr (Or.inr (Or.inl ⟨_, _, v, name, value, rfl, tail⟩)))
    | @more n x rest params name value _ ih =>
        refine (accepts_paramNameStart_iff req _ p).mpr
          (Or.inr (Or.inr (Or.inr ⟨n, x, rest ++ ' '.toUInt8 :: v, name, value, by simp, ?_⟩)))
        exact ih _ (by simpa [withParam] using tail)

/-- The target is everything up to the blank before the version. -/
theorem accepts_target_iff (w : Bytes) (p : Parsing) :
    parser.Accepts ⟨.uri, req⟩ w p ↔
      ∃ target params v, w = target ++ ' '.toUInt8 :: v ∧ TargetText target params ∧
        parser.Accepts
          ⟨.httpVersionH, { req with uri := req.uri ++ target, params := req.params ++ params }⟩ v p := by
  rw [accepts_uri_iff]
  constructor
  · rintro ⟨u, v, path, ⟨rfl, tail⟩ | ⟨rfl, tail⟩⟩
    · exact ⟨u, [], v, rfl, .path path, by simpa using tail⟩
    · obtain ⟨q, params, v', rfl, query, rest⟩ := (accepts_query_iff _ _ _).mp tail
      exact ⟨_, params, v', by simp, .query path query, by simpa using rest⟩
  · rintro ⟨target, params, v, rfl, text, tail⟩
    cases text with
    | path path => exact ⟨target, v, path, Or.inl ⟨rfl, by simpa using tail⟩⟩
    | @query u q _ path query =>
        refine ⟨u, q ++ ' '.toUInt8 :: v, path, Or.inr ⟨by simp, ?_⟩⟩
        exact (accepts_query_iff _ _ _).mpr ⟨q, params, v, rfl, query, by simpa using tail⟩

/-- The parser while it collects the digits of the major version. -/
def scanMajor (collected : Bytes) : Parsing :=
  ⟨.httpVersionMajor, { req with httpVersionMajor := collected.foldl pushDigit req.httpVersionMajor }⟩

/-- The parser while it collects the digits of the minor version. -/
def scanMinor (collected : Bytes) : Parsing :=
  ⟨.httpVersionMinor, { req with httpVersionMinor := collected.foldl pushDigit req.httpVersionMinor }⟩

/-- One or more digits ended by a dot. -/
theorem accepts_major_iff (w : Bytes) (p : Parsing) :
    parser.Accepts ⟨.httpVersionMajorStart, req⟩ w p ↔
      ∃ d v, w = d ++ '.'.toUInt8 :: v ∧ Digits d ∧
        parser.Accepts
          ⟨.httpVersionMinorStart, { req with httpVersionMajor := d.foldl pushDigit req.httpVersionMajor }⟩
          v p := by
  rw [Machine.accepts_scan_nonempty_until_iff (scanMajor req) (c := '.'.toUInt8)
    (fun b => isDigit (charInt b) = true)
    (fun u => ⟨.httpVersionMinorStart,
      { req with httpVersionMajor := u.foldl pushDigit req.httpVersionMajor }⟩)]
  · simp only [digits_iff, and_assoc]
  · intro b digit
    simp [parser, switchBody, scanMajor, digit]
  · intro b other
    simp only [Bool.not_eq_true] at other
    simp [parser, switchBody, other]
  · intro u b digit
    have dot : b ≠ '.'.toUInt8 := ne_of_isDigit digit (by decide)
    simp [parser, switchBody, scanMajor, digit, dot]
  · intro u
    simp [parser, switchBody, scanMajor]
  · intro u b other stays
    simp only [Bool.not_eq_true] at other
    simp [parser, switchBody, scanMajor, other, stays]

/-- One or more digits ended by a carriage return. -/
theorem accepts_minor_iff (w : Bytes) (p : Parsing) :
    parser.Accepts ⟨.httpVersionMinorStart, req⟩ w p ↔
      ∃ d v, w = d ++ '\r'.toUInt8 :: v ∧ Digits d ∧
        parser.Accepts
          ⟨.expectingNewline1, { req with httpVersionMinor := d.foldl pushDigit req.httpVersionMinor }⟩
          v p := by
  rw [Machine.accepts_scan_nonempty_until_iff (scanMinor req) (c := '\r'.toUInt8)
    (fun b => isDigit (charInt b) = true)
    (fun u => ⟨.expectingNewline1,
      { req with httpVersionMinor := u.foldl pushDigit req.httpVersionMinor }⟩)]
  · simp only [digits_iff, and_assoc]
  · intro b digit
    simp [parser, switchBody, scanMinor, digit]
  · intro b other
    simp only [Bool.not_eq_true] at other
    simp [parser, switchBody, other]
  · intro u b digit
    have cr : b ≠ '\r'.toUInt8 := ne_of_isDigit digit (by decide)
    simp [parser, switchBody, scanMinor, digit, cr]
  · intro u
    simp [parser, switchBody, scanMinor]
  · intro u b other stays
    simp only [Bool.not_eq_true] at other
    simp [parser, switchBody, scanMinor, other, stays]

/-- The version: `HTTP/`, two numbers with a dot between them, and the line end. -/
theorem accepts_version_iff (w : Bytes) (p : Parsing) :
    parser.Accepts ⟨.httpVersionH, req⟩ w p ↔
      ∃ major minor v, w = bytes "HTTP/" ++ major ++ bytes "." ++ minor ++ crlf ++ v ∧
        Digits major ∧ Digits minor ∧
        parser.Accepts
          ⟨.headerLineStart,
            { req with
              httpVersionMajor := versionNumber major
              httpVersionMinor := versionNumber minor }⟩ v p := by
  simp only [
    accepts_expect_iff (s := .httpVersionH) (t := .httpVersionT1) (c := 'H'.toUInt8) fun _ => rfl,
    accepts_expect_iff (s := .httpVersionT1) (t := .httpVersionT2) (c := 'T'.toUInt8) fun _ => rfl,
    accepts_expect_iff (s := .httpVersionT2) (t := .httpVersionP) (c := 'T'.toUInt8) fun _ => rfl,
    accepts_expect_iff (s := .httpVersionP) (t := .httpVersionSlash) (c := 'P'.toUInt8) fun _ => rfl,
    accepts_expect_iff (s := .httpVersionSlash) (t := .httpVersionMajorStart) (c := '/'.toUInt8)
      fun _ => rfl,
    accepts_expect_iff (s := .expectingNewline1) (t := .headerLineStart) (c := '\n'.toUInt8)
      fun _ => rfl,
    accepts_major_iff, accepts_minor_iff]
  have shape (major minor v : Bytes) :
      bytes "HTTP/" ++ major ++ bytes "." ++ minor ++ crlf ++ v =
        'H'.toUInt8 :: 'T'.toUInt8 :: 'T'.toUInt8 :: 'P'.toUInt8 :: '/'.toUInt8 ::
          (major ++ '.'.toUInt8 :: (minor ++ '\r'.toUInt8 :: '\n'.toUInt8 :: v)) := by
    simp [bytes, crlf]
  constructor
  · rintro ⟨_, rfl, _, rfl, _, rfl, _, rfl, _, rfl, major, _, rfl, majorDigits, minor, _, rfl, minorDigits,
      v, rfl, tail⟩
    exact ⟨major, minor, v, (shape major minor v).symm, majorDigits, minorDigits, tail⟩
  · rintro ⟨major, minor, v, rfl, majorDigits, minorDigits, tail⟩
    rw [shape]
    exact ⟨_, rfl, _, rfl, _, rfl, _, rfl, _, rfl, major, _, rfl, majorDigits, minor, _, rfl, minorDigits,
      v, rfl, tail⟩

end RequestLine

/-! ### The header lines

Lines, continuations and the empty line at the end, by induction over the lines. -/

section Headers

variable (req : Request)

/-- The request with one more header. -/
def withHeader (n v : Bytes) : Request :=
  { req with headers := req.headers ++ [{ name := n, value := v }] }

/-- The parser while it collects a header's name. -/
def scanHeaderName (collected : Bytes) : Parsing :=
  ⟨.headerName, withHeader req collected []⟩

/-- The parser while it collects the value of the header named `n`. -/
def scanHeaderValue (n collected : Bytes) : Parsing :=
  ⟨.headerValue, withHeader req n collected⟩

/-- A value runs to the line end. -/
theorem accepts_headerValue_iff (n done w : Bytes) (p : Parsing) :
    parser.Accepts (scanHeaderValue req n done) w p ↔
      ∃ u v, w = u ++ crlf ++ v ∧ (∀ b ∈ u, isTextByte b = true) ∧
        parser.Accepts ⟨.headerLineStart, withHeader req n (done ++ u)⟩ v p := by
  rw [Machine.accepts_scan_until_iff (scanHeaderValue req n) (c := '\r'.toUInt8)
    (isTextByte · = true) (fun u => ⟨.expectingNewline2, withHeader req n u⟩)]
  · simp only [accepts_expect_iff (s := .expectingNewline2) (t := .headerLineStart)
      (c := '\n'.toUInt8) fun _ => rfl]
    constructor
    · rintro ⟨u, _, rfl, all, v, rfl, tail⟩
      exact ⟨u, v, by simp [crlf], all, tail⟩
    · rintro ⟨u, v, rfl, all, tail⟩
      exact ⟨u, _, by simp [crlf], all, v, rfl, tail⟩
  · intro u b text
    have cr : b ≠ '\r'.toUInt8 := ne_of_isTextByte text (by decide)
    simp only [isTextByte, Bool.not_eq_true'] at text
    simp [parser, switchBody, scanHeaderValue, withHeader, text, cr]
  · intro u
    simp [parser, switchBody, scanHeaderValue]
  · intro u b other stays
    simp only [isTextByte, Bool.not_eq_true', Bool.not_eq_false] at other
    simp [parser, switchBody, scanHeaderValue, other, stays]

/-- A header's name runs to the colon, and a blank follows it. -/
theorem accepts_headerName_iff (done w : Bytes) (p : Parsing) :
    parser.Accepts (scanHeaderName req done) w p ↔
      ∃ u v, w = u ++ ':'.toUInt8 :: ' '.toUInt8 :: v ∧ (∀ b ∈ u, isToken b = true) ∧
        parser.Accepts (scanHeaderValue req (done ++ u) []) v p := by
  rw [Machine.accepts_scan_until_iff (scanHeaderName req) (c := ':'.toUInt8)
    (isToken · = true) (fun u => ⟨.spaceBeforeHeaderValue, withHeader req u []⟩)]
  · simp only [accepts_expect_iff (s := .spaceBeforeHeaderValue) (t := .headerValue)
      (c := ' '.toUInt8) fun _ => rfl]
    constructor
    · rintro ⟨u, _, rfl, all, v, rfl, tail⟩
      exact ⟨u, v, rfl, all, tail⟩
    · rintro ⟨u, v, rfl, all, tail⟩
      exact ⟨u, _, rfl, all, v, rfl, tail⟩
  · intro u b token
    have colon : b ≠ ':'.toUInt8 := ne_of_isToken token (by decide)
    simp [parser, switchBody, scanHeaderName, withHeader, isNotToken_eq, token, colon]
  · intro u
    simp [parser, switchBody, scanHeaderName]
  · intro u b other stays
    simp only [Bool.not_eq_true] at other
    simp [parser, switchBody, scanHeaderName, isNotToken_eq, other, stays]

/-- The blanks of a continuation line run to its text or to its line end. -/
theorem accepts_headerLws_iff (n x w : Bytes) (p : Parsing) :
    parser.Accepts ⟨.headerLws, withHeader req n x⟩ w p ↔
      ∃ blanks text v, w = blanks ++ text ++ crlf ++ v ∧ (∀ b ∈ blanks, isBlank b = true) ∧
        (∀ b ∈ text, isTextByte b = true) ∧ text.head? ≠ some ' '.toUInt8 ∧
        parser.Accepts ⟨.headerLineStart, withHeader req n (x ++ text)⟩ v p := by
  have atCr (v : Bytes) : parser.Accepts ⟨.headerLws, withHeader req n x⟩ ('\r'.toUInt8 :: v) p ↔
      parser.Accepts ⟨.expectingNewline2, withHeader req n x⟩ v p :=
    Machine.accepts_cons_of_indeterminate (by simp [parser, switchBody])
  have atText {b : UInt8} (text : isTextByte b = true) (blank : isBlank b = false) (v : Bytes) :
      parser.Accepts ⟨.headerLws, withHeader req n x⟩ (b :: v) p ↔
        parser.Accepts (scanHeaderValue req n (x ++ [b])) v p := by
    have cr : b ≠ '\r'.toUInt8 := ne_of_isTextByte text (by decide)
    simp only [isTextByte, Bool.not_eq_true'] at text
    rw [← Bool.not_eq_true, isBlank_iff] at blank
    exact Machine.accepts_cons_of_indeterminate (by
      simp [parser, switchBody, scanHeaderValue, withHeader, text, blank, cr])
  have newline (v : Bytes) : parser.Accepts ⟨.expectingNewline2, withHeader req n x⟩ v p ↔
      ∃ v', v = '\n'.toUInt8 :: v' ∧ parser.Accepts ⟨.headerLineStart, withHeader req n x⟩ v' p :=
    accepts_expect_iff (fun _ => rfl) v p
  refine (Machine.accepts_scan_iff (m := parser)
    (fun _ => (⟨.headerLws, withHeader req n x⟩ : Parsing)) (isBlank · = true)
    (fun b => b = '\r'.toUInt8 ∨ isTextByte b = true ∧ isBlank b = false)
    ?collect ?reject [] w p).trans ?_
  case collect =>
    intro _ b blank
    have cr : b ≠ '\r'.toUInt8 := ne_cr_of_isBlank blank
    simp [parser, switchBody, isBlank_iff.mp blank, cr]
  case reject =>
    intro _ b other stays
    simp only [Bool.not_eq_true] at other
    simp only [other, and_true, not_or, isTextByte, Bool.not_eq_true', Bool.not_eq_false] at stays
    rw [← Bool.not_eq_true, isBlank_iff] at other
    simp [parser, switchBody, other, stays]
  · constructor
    · rintro ⟨blanks, e, v, rfl, all, rfl | ⟨text, blank⟩, tail⟩
      · obtain ⟨v, rfl, rest⟩ := (newline _).mp ((atCr v).mp tail)
        exact ⟨blanks, [], v, by simp [crlf], all, by simp, by simp, by simpa using rest⟩
      · obtain ⟨t, v, rfl, body, rest⟩ :=
          (accepts_headerValue_iff req n _ _ p).mp ((atText text blank v).mp tail)
        refine ⟨blanks, e :: t, v, by simp, all, by simpa [text] using body, ?_, by simpa using rest⟩
        rintro head
        simp only [List.head?_cons, Option.some.injEq] at head
        simp [head, isBlank] at blank
    · rintro ⟨blanks, text, v, rfl, all, body, noBlank, rest⟩
      cases text with
      | nil =>
          refine ⟨blanks, '\r'.toUInt8, '\n'.toUInt8 :: v, by simp [crlf], all, Or.inl rfl, ?_⟩
          exact (atCr _).mpr ((newline _).mpr ⟨v, rfl, by simpa using rest⟩)
      | cons b t =>
          have text : isTextByte b = true := body b (by simp)
          have blank : isBlank b = false := by
            have space : b ≠ ' '.toUInt8 := by simpa using noBlank
            have tab : b ≠ '\t'.toUInt8 := ne_of_isTextByte text (by decide)
            simp [isBlank, space, tab]
          refine ⟨blanks, b, t ++ crlf ++ v, by simp, all, Or.inr ⟨text, blank⟩, ?_⟩
          refine (atText text blank _).mpr ((accepts_headerValue_iff req n _ _ p).mpr
            ⟨t, v, rfl, fun c member => body c (by simp [member]), by simpa using rest⟩)

/-- No other byte than an LF ends a head. -/
theorem act_expectingNewline3_of_ne {req : Request} {b : UInt8} (other : b ≠ '\n'.toUInt8) :
    parser.act ⟨.expectingNewline3, req⟩ b = .read .no ⟨.expectingNewline3, req⟩ := by
  simp [parser, switchBody, other]

/-- The empty line ends a GET. -/
theorem act_expectingNewline3_get {req : Request} (get : req.method = bytes "GET") :
    parser.act ⟨.expectingNewline3, req⟩ '\n'.toUInt8 = .read .yes ⟨.expectingNewline3, req⟩ := by
  simp [parser, switchBody, get]

/-- A GET ends at the LF of its empty line. -/
theorem accepts_expectingNewline3_iff {req : Request} (get : req.method = bytes "GET") (w : Bytes)
    (p : Parsing) :
    parser.Accepts ⟨.expectingNewline3, req⟩ w p ↔ w = ['\n'.toUInt8] ∧ p = ⟨.expectingNewline3, req⟩ := by
  cases w with
  | nil => simp [Machine.not_accepts_nil]
  | cons b w =>
      by_cases lf : b = '\n'.toUInt8
      · subst lf
        rw [Machine.accepts_cons_of_yes (act_expectingNewline3_get get)]
        simp
      · have no := Machine.not_accepts_cons_of_no (@act_expectingNewline3_of_ne req b lf) (w := w) (r := p)
        simp [no, lf]

/-- A carriage return begins the empty line. -/
theorem act_headerLineStart_cr :
    parser.act ⟨.headerLineStart, req⟩ '\r'.toUInt8 = .read .indeterminate ⟨.expectingNewline3, req⟩ := by
  simp [parser, switchBody]

/-- A blank continues the last header, if there is one. -/
theorem act_headerLineStart_blank {n x : Bytes} {b : UInt8} (blank : isBlank b = true) :
    parser.act ⟨.headerLineStart, withHeader req n x⟩ b =
      .read .indeterminate ⟨.headerLws, withHeader req n x⟩ := by
  have cr : b ≠ '\r'.toUInt8 := ne_cr_of_isBlank blank
  simp [parser, switchBody, isBlank_iff.mp blank, cr, withHeader]

/-- A token byte begins a header. -/
theorem act_headerLineStart_token {b : UInt8} (token : isToken b = true) :
    parser.act ⟨.headerLineStart, req⟩ b = .read .indeterminate (scanHeaderName req [b]) := by
  have cr : b ≠ '\r'.toUInt8 := ne_of_isToken token (by decide)
  have space : b ≠ ' '.toUInt8 := ne_of_isToken token (by decide)
  have tab : b ≠ '\t'.toUInt8 := ne_of_isToken token (by decide)
  simp [parser, switchBody, isNotToken_eq, token, cr, space, tab, scanHeaderName, withHeader]

/-- Any other byte is rejected, if it does not continue a line. -/
theorem act_headerLineStart_other {b : UInt8} (cr : b ≠ '\r'.toUInt8)
    (folded : ¬ (req.headers ≠ [] ∧ isBlank b = true)) (token : isToken b = false) :
    parser.act ⟨.headerLineStart, req⟩ b = .read .no ⟨.headerLineStart, req⟩ := by
  rw [isBlank_iff] at folded
  simp [parser, switchBody, isNotToken_eq, token, folded, cr]

/-- A list that is not empty has a last header. -/
theorem exists_withHeader {req : Request} (nonempty : req.headers ≠ []) :
    ∃ r n x, req = withHeader r n x := by
  let last := req.headers.getLast nonempty
  refine ⟨{ req with headers := req.headers.dropLast }, last.name, last.value, ?_⟩
  simp only [withHeader]
  rw [List.dropLast_append_getLast nonempty]

/-- A head that continues at a line start, unrolled by one line: the empty line, a continuation of the last
    header, or a new header. -/
theorem accepts_headerLineStart_iff (get : req.method = bytes "GET") (w : Bytes) (p : Parsing) :
    parser.Accepts ⟨.headerLineStart, req⟩ w p ↔
      (w = crlf ∧ p = ⟨.expectingNewline3, req⟩) ∨
      (∃ r n x blanks text v, req = withHeader r n x ∧ w = blanks ++ text ++ crlf ++ v ∧ blanks ≠ [] ∧
        (∀ b ∈ blanks, isBlank b = true) ∧ (∀ b ∈ text, isTextByte b = true) ∧
        text.head? ≠ some ' '.toUInt8 ∧
        parser.Accepts ⟨.headerLineStart, withHeader r n (x ++ text)⟩ v p) ∨
      (∃ n x v, w = n ++ ':'.toUInt8 :: ' '.toUInt8 :: x ++ crlf ++ v ∧ Name n ∧
        (∀ b ∈ x, isTextByte b = true) ∧
        parser.Accepts ⟨.headerLineStart, withHeader req n x⟩ v p) := by
  have atCr (v : Bytes) : parser.Accepts ⟨.headerLineStart, req⟩ ('\r'.toUInt8 :: v) p ↔
      v = ['\n'.toUInt8] ∧ p = ⟨.expectingNewline3, req⟩ := by
    rw [Machine.accepts_cons_of_indeterminate (act_headerLineStart_cr req),
      accepts_expectingNewline3_iff get]
  have atBlank {r : Request} {n x : Bytes} {b : UInt8} (same : req = withHeader r n x)
      (blank : isBlank b = true) (v : Bytes) :
      parser.Accepts ⟨.headerLineStart, req⟩ (b :: v) p ↔
        parser.Accepts ⟨.headerLws, withHeader r n x⟩ v p := by
    rw [same, Machine.accepts_cons_of_indeterminate (act_headerLineStart_blank r blank)]
  have atToken {b : UInt8} (token : isToken b = true) (v : Bytes) :
      parser.Accepts ⟨.headerLineStart, req⟩ (b :: v) p ↔
        parser.Accepts (scanHeaderName req [b]) v p :=
    Machine.accepts_cons_of_indeterminate (act_headerLineStart_token req token)
  constructor
  · intro accepted
    cases w with
    | nil => exact absurd accepted Machine.not_accepts_nil
    | cons b w =>
        by_cases cr : b = '\r'.toUInt8
        · subst cr
          obtain ⟨rfl, rfl⟩ := (atCr w).mp accepted
          exact Or.inl ⟨rfl, rfl⟩
        · by_cases folded : req.headers ≠ [] ∧ isBlank b = true
          · obtain ⟨r, n, x, same⟩ := exists_withHeader folded.1
            obtain ⟨blanks, text, v, rfl, all, body, noBlank, rest⟩ :=
              (accepts_headerLws_iff _ _ _ _ p).mp ((atBlank same folded.2 w).mp accepted)
            exact Or.inr (Or.inl ⟨_, _, _, b :: blanks, text, v, same, by simp, by simp,
              by simpa [folded.2] using all, body, noBlank, rest⟩)
          · by_cases token : isToken b = true
            · obtain ⟨u, v, rfl, all, tail⟩ :=
                (accepts_headerName_iff req _ _ p).mp ((atToken token w).mp accepted)
              obtain ⟨x, v, rfl, text, rest⟩ := (accepts_headerValue_iff req _ _ _ p).mp tail
              exact Or.inr (Or.inr ⟨b :: u, x, v, by simp, ⟨by simp, by simpa [token] using all⟩, text,
                rest⟩)
            · simp only [Bool.not_eq_true] at token
              exact absurd accepted (Machine.not_accepts_cons_of_no
                (act_headerLineStart_other req cr folded token))
  · rintro (⟨rfl, rfl⟩ | ⟨r, n, x, blanks, text, v, same, rfl, nonempty, all, body, noBlank, rest⟩ |
      ⟨n, x, v, rfl, name, text, rest⟩)
    · exact (atCr _).mpr ⟨rfl, rfl⟩
    · cases blanks with
      | nil => exact absurd rfl nonempty
      | cons b blanks =>
          exact (atBlank same (all b (by simp)) _).mpr ((accepts_headerLws_iff r n x _ p).mpr
            ⟨blanks, text, v, by simp, fun c member => all c (by simp [member]), body, noBlank, rest⟩)
    · cases n with
      | nil => exact absurd rfl name.nonempty
      | cons b u =>
          refine (atToken (name.token b (by simp)) _).mpr ((accepts_headerName_iff req _ _ p).mpr
            ⟨u, x ++ crlf ++ v, by simp, fun c member => name.token c (by simp [member]), ?_⟩)
          exact (accepts_headerValue_iff req _ _ _ p).mpr ⟨x, v, rfl, text, rest⟩

/-- Continuation lines take the parser back to a line start with their bytes added to the last value. -/
theorem FoldText.accepts {folds added : Bytes} (folded : FoldText folds added) (r : Request)
    (get : r.method = bytes "GET") (n x v : Bytes) (p : Parsing)
    (rest : parser.Accepts ⟨.headerLineStart, withHeader r n (x ++ added)⟩ v p) :
    parser.Accepts ⟨.headerLineStart, withHeader r n x⟩ (folds ++ v) p := by
  induction folded generalizing x with
  | done => simpa using rest
  | @fold blanks text folds added nonempty blank body noBlank _ ih =>
      refine (accepts_headerLineStart_iff (withHeader r n x) get _ p).mpr (Or.inr (Or.inl
        ⟨r, n, x, blanks, text, folds ++ v, rfl, by simp, nonempty, blank, body, noBlank, ?_⟩))
      exact ih (x ++ text) (by simpa using rest)

/-- Header lines and the empty line complete a GET request. -/
theorem LinesText.accepts {lines : Bytes} {headers : List NameValue} (text : LinesText lines headers)
    (req : Request) (get : req.method = bytes "GET") :
    parser.Accepts ⟨.headerLineStart, req⟩ (lines ++ crlf)
      ⟨.expectingNewline3, { req with headers := req.headers ++ headers }⟩ := by
  induction text generalizing req with
  | done => exact (accepts_headerLineStart_iff req get _ _).mpr (Or.inl ⟨rfl, by simp⟩)
  | @line n v folds added rest headers name value folded _ ih =>
      refine (accepts_headerLineStart_iff req get _ _).mpr (Or.inr (Or.inr
        ⟨n, v, folds ++ (rest ++ crlf), by simp, name, value, folded.accepts req get _ _ _ _ ?_⟩))
      have tail := ih (withHeader req n (v ++ added)) get
      simpa [withHeader] using tail

/-- What is accepted from a line start after a header is continuation lines, header lines and the empty
    line; from a first line start it is header lines and the empty line. -/
theorem lines_of_accepts (req : Request) (get : req.method = bytes "GET") (w : Bytes) (p : Parsing)
    (accepted : parser.Accepts ⟨.headerLineStart, req⟩ w p) :
    (∀ r n x, req = withHeader r n x → ∃ folds added lines headers,
        w = folds ++ lines ++ crlf ∧ FoldText folds added ∧ LinesText lines headers ∧
          p = ⟨.expectingNewline3,
            { withHeader r n (x ++ added) with
              headers := (withHeader r n (x ++ added)).headers ++ headers }⟩) ∧
      (req.headers = [] → ∃ lines headers, w = lines ++ crlf ∧ LinesText lines headers ∧
        p = ⟨.expectingNewline3, { req with headers := headers }⟩) := by
  -- each line shortens the input
  induction len : w.length using Nat.strongRecOn generalizing req w with
  | _ k ih =>
      rcases (accepts_headerLineStart_iff req get w p).mp accepted with
        ⟨rfl, rfl⟩ | ⟨r, n, x, blanks, text, v, same, rfl, nonempty, blank, body, noBlank, rest⟩ |
        ⟨n, x, v, rfl, name, value, rest⟩
      · refine ⟨?_, fun empty => ⟨[], [], rfl, .done, by rw [← empty]⟩⟩
        rintro r n x rfl
        exact ⟨[], [], [], [], rfl, .done, .done, by simp [withHeader]⟩
      · have shorter : v.length < k := by
          rw [← len]
          simp [crlf]
          omega
        have get' : r.method = bytes "GET" := by rw [← get, same]; rfl
        obtain ⟨folds, added, lines, headers, rfl, folded, linesText, final⟩ :=
          (ih _ shorter (withHeader r n (x ++ text)) get' v rest rfl).1 _ _ _ rfl
        refine ⟨?_, fun empty => absurd empty (by simp [same, withHeader])⟩
        intro r' n' x' same'
        have heads : r.headers = r'.headers ∧ n = n' ∧ x = x' := by
          have := congrArg Request.headers (same.symm.trans same')
          simpa [withHeader] using this
        obtain ⟨base, rfl, rfl⟩ := heads
        have other : ∀ y, withHeader r n y = withHeader r' n y := by
          intro y
          have := congrArg
            (fun q => Request.mk q.remoteAddr q.remotePort q.connectionOption q.method q.uri
              q.httpVersionMajor q.httpVersionMinor (r.headers ++ [{ name := n, value := y }]) q.content
              q.contentLength q.cookies q.params q.restParams q.uploads)
            (same.symm.trans same')
          simpa [withHeader, base] using this
        refine ⟨_, _, lines, headers, ?_, .fold nonempty blank body noBlank folded, linesText, ?_⟩
        · simp
        · rw [final, ← other]
          simp
      · have shorter : v.length < k := by
          rw [← len]
          simp [crlf]
          omega
        obtain ⟨folds, added, lines, headers, rfl, folded, linesText, final⟩ :=
          (ih _ shorter (withHeader req n x) get v rest rfl).1 _ _ _ rfl
        have text := LinesText.line name value folded linesText
        refine ⟨?_, fun empty => ⟨_, _, by simp, text, by rw [final]; simp [withHeader, empty]⟩⟩
        rintro r n' x' rfl
        exact ⟨[], [], _, _, by simp, .done, text, by rw [final]; simp [withHeader]⟩

end Headers

/-! ### The whole request -/

/-- Behind the request line's first blank no byte changes the method. -/
theorem switchBody_keeps_method {p q : Parsing} {input : UInt8} {verdict : Tribool}
    (act : parser.act p input = .read verdict q)
    (behind : p.state_ ≠ .methodStart ∧ p.state_ ≠ .method) :
    q.req.method = p.req.method ∧ q.state_ ≠ .methodStart ∧ q.state_ ≠ .method := by
  refine of_act
    (P := fun _ q => q.req.method = p.req.method ∧ q.state_ ≠ .methodStart ∧ q.state_ ≠ .method) act ?_
  obtain ⟨state_, req⟩ := p
  cases state_ <;> simp_all [switchBody, headerLength, Request.header]

/-- The method a request is accepted with is the name that its request line began with. -/
theorem method_of_accepts {req : Request} {w : Bytes} {p : Parsing}
    (accepted : parser.Accepts ⟨.uri, req⟩ w p) : p.req.method = req.method := by
  have kept : p.req.method = req.method ∧ p.state_ ≠ .methodStart ∧ p.state_ ≠ .method := by
    refine accepted.reachable.invariant
      (P := fun q => q.req.method = req.method ∧ q.state_ ≠ .methodStart ∧ q.state_ ≠ .method)
      ⟨rfl, by simp, by simp⟩ ?_
    rintro q q' input verdict ⟨same, behind⟩ act
    obtain ⟨step, behind'⟩ := switchBody_keeps_method act behind
    exact ⟨step.trans same, behind'⟩
  exact kept.1

/-- The states that collect the method and the target. -/
def ParserState.beforeVersion : ParserState → Bool
  | methodStart | method | uri | paramNameStart | paramName | paramValueStart | paramValue => true
  | _ => false

/-- Behind the target no byte changes the uri or its parameters. -/
theorem switchBody_keeps_target {p q : Parsing} {input : UInt8} {verdict : Tribool}
    (act : parser.act p input = .read verdict q) (behind : p.state_.beforeVersion = false) :
    q.req.uri = p.req.uri ∧ q.req.params = p.req.params ∧ q.state_.beforeVersion = false := by
  refine of_act
    (P := fun _ q => q.req.uri = p.req.uri ∧ q.req.params = p.req.params ∧ q.state_.beforeVersion = false)
      act ?_
  obtain ⟨state_, req⟩ := p
  cases state_ <;> simp_all [switchBody, headerLength, Request.header, ParserState.beforeVersion]

/-- A request is accepted with the uri and the parameters that its target denotes. -/
theorem target_of_accepts {req : Request} (fresh : req.Fresh) {w : Bytes} {p : Parsing}
    (accepted : parser.Accepts (.start req) w p) :
    ∃ method target params v, w = method ++ ' '.toUInt8 :: (target ++ ' '.toUInt8 :: v) ∧ Name method ∧
      TargetText target params ∧ p.req.uri = target ∧ p.req.params = params := by
  obtain ⟨method, _, rfl, name, atTarget⟩ := (accepts_methodStart_iff req w p).mp accepted
  obtain ⟨target, params, v, rfl, text, atVersion⟩ := (accepts_target_iff _ _ p).mp atTarget
  refine ⟨method, target, params, v, rfl, name, text, ?_⟩
  have kept := atVersion.reachable.invariant
    (P := fun q => q.req.uri = req.uri ++ target ∧ q.req.params = req.params ++ params ∧
      q.state_.beforeVersion = false) ⟨rfl, rfl, rfl⟩ ?_
  · rw [fresh.uri, fresh.params] at kept
    exact ⟨kept.1, kept.2.1⟩
  · rintro q q' input verdict ⟨uri, same, behind⟩ act
    obtain ⟨uri', same', behind'⟩ := switchBody_keeps_target act behind
    exact ⟨uri'.trans uri, same'.trans same, behind'⟩

/-- The request that `parse` leaves behind for a GET request with the given pieces. -/
def getRequest (req : Request) (target : Bytes) (params : List NameValue) (major minor : Int)
    (headers : List NameValue) : Request :=
  { req with
    method := bytes "GET"
    uri := target
    params := params
    httpVersionMajor := major
    httpVersionMinor := minor
    headers := headers }

/-- The request line of a fresh request, up to the first header line. -/
theorem accepts_requestLine_iff {req : Request} (fresh : req.Fresh) (w : Bytes) (p : Parsing) :
    parser.Accepts ⟨.uri, { req with method := bytes "GET" }⟩ w p ↔
      ∃ target params major minor v,
        w = target ++ bytes " HTTP/" ++ major ++ bytes "." ++ minor ++ crlf ++ v ∧
        TargetText target params ∧ Digits major ∧ Digits minor ∧
        parser.Accepts
          ⟨.headerLineStart, getRequest req target params (versionNumber major) (versionNumber minor) []⟩
          v p := by
  have shape (target v : Bytes) : target ++ bytes " HTTP/" ++ v =
      target ++ ' '.toUInt8 :: (bytes "HTTP/" ++ v) := by simp [bytes]
  rw [accepts_target_iff]
  simp only [accepts_version_iff, fresh.uri, fresh.params, List.nil_append]
  constructor
  · rintro ⟨target, params, _, rfl, targetText, major, minor, v, rfl, majorDigits, minorDigits, tail⟩
    refine ⟨target, params, major, minor, v, by simp [bytes], targetText, majorDigits, minorDigits, ?_⟩
    rwa [getRequest, ← fresh.headers]
  · rintro ⟨target, params, major, minor, v, rfl, targetText, majorDigits, minorDigits, tail⟩
    refine ⟨target, params, _, by simp [bytes]; rfl, targetText, major, minor, v, by simp [bytes],
      majorDigits, minorDigits, ?_⟩
    rwa [getRequest, ← fresh.headers] at tail

/-- The accepted GET requests are the texts of the grammar, each with its pieces. -/
theorem accepts_get_iff {req : Request} (fresh : req.Fresh) (w : Bytes) (p : Parsing) :
    (parser.Accepts (.start req) w p ∧ p.req.method = bytes "GET") ↔
      ∃ target params major minor headers, GetRequest w target params major minor headers ∧
        p = ⟨.expectingNewline3, getRequest req target params major minor headers⟩ := by
  have noMethod : ∀ n, { req with method := req.method ++ n } = { req with method := n } := by
    simp [fresh.method]
  constructor
  · rintro ⟨accepted, get⟩
    obtain ⟨n, v, rfl, name, atTarget⟩ := (accepts_methodStart_iff req w p).mp accepted
    rw [noMethod] at atTarget
    have isGet : n = bytes "GET" := (method_of_accepts atTarget).symm.trans get
    subst isGet
    obtain ⟨target, params, major, minor, v, rfl, targetText, majorDigits, minorDigits, atLines⟩ :=
      (accepts_requestLine_iff fresh v p).mp atTarget
    obtain ⟨lines, headers, rfl, linesText, rfl⟩ :=
      (lines_of_accepts (getRequest req target params _ _ []) rfl _ p atLines).2 rfl
    refine ⟨target, params, versionNumber major, versionNumber minor, headers, ?_, rfl⟩
    have text := GetRequest.intro targetText majorDigits minorDigits linesText
    simpa [bytes] using text
  · rintro ⟨target, params, _, _, headers, @⟨_, major, minor, lines, _, _, targetText, majorDigits,
      minorDigits, linesText⟩, rfl⟩
    refine ⟨?_, rfl⟩
    have name : Name (bytes "GET") := ⟨by decide, by decide +kernel⟩
    refine (accepts_methodStart_iff req _ _).mpr
      ⟨bytes "GET", target ++ bytes " HTTP/" ++ major ++ bytes "." ++ minor ++ crlf ++ (lines ++ crlf),
        by simp [bytes], name, ?_⟩
    rw [noMethod]
    exact (accepts_requestLine_iff fresh _ _).mpr ⟨target, params, major, minor, lines ++ crlf, rfl,
      targetText, majorDigits, minorDigits, linesText.accepts _ rfl⟩

/-- A call of `parse` on a fresh request returns true on a GET after exactly `n` bytes if and only if those
    `n` bytes are a GET request of the grammar, and it leaves exactly the pieces of that text behind. -/
theorem parse_get_iff {req : Request} (fresh : req.Fresh) (b : Bytes) (n : Nat) (p : Parsing) :
    (parse (.start req) b = ⟨.yes, p, n⟩ ∧ p.req.method = bytes "GET") ↔
      n ≤ b.length ∧ ∃ target params major minor headers,
        GetRequest (b.take n) target params major minor headers ∧
        p = ⟨.expectingNewline3, getRequest req target params major minor headers⟩ := by
  rw [parse_eq_run, Machine.run_eq_yes_iff, and_assoc, accepts_get_iff fresh]

/-- `GET /?a HTTP/1.1` with no headers, followed by another byte: the request is accepted without it. -/
theorem parse_get_iff_bare :
    parse (.start {}) (bytes "GET /?a HTTP/1.1\r\n\r\nX") =
      ⟨.yes, ⟨.expectingNewline3,
        getRequest {} (bytes "/?a") [{ name := bytes "a", value := [] }] 1 1 []⟩, 20⟩ := by
  have target : TargetText (bytes "/?a") [{ name := bytes "a", value := [] }] :=
    @TargetText.query (bytes "/") (bytes "a") _ (by decide +kernel) (.bare ⟨by decide, by decide +kernel⟩)
  have text : GetRequest (bytes "GET /?a HTTP/1.1\r\n\r\n") (bytes "/?a")
      [{ name := bytes "a", value := [] }] 1 1 [] :=
    @GetRequest.intro (bytes "/?a") (bytes "1") (bytes "1") [] _ _ target
      ⟨by decide, by decide +kernel⟩ ⟨by decide, by decide +kernel⟩ .done
  exact ((parse_get_iff Request.fresh_default (bytes "GET /?a HTTP/1.1\r\n\r\nX") 20 _).mpr
    ⟨by decide, bytes "/?a", [{ name := bytes "a", value := [] }], 1, 1, [], text, rfl⟩).1

end Waspp
