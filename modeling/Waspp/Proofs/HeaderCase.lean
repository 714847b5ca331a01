/-
Module: Waspp.Proofs.HeaderCase
Layer: Proofs
Purpose: Whether the case of header names, and of the options `close` and `keep-alive`, makes a difference.
  `request::header` compares names byte by byte, so a head is handled alike in every spelling exactly when no
  header it has, under any spelling of its name, could change what is looked up.
Imports: Waspp.Proofs.HeadReading, Waspp.Proofs.SameMachine, Waspp.Proofs.ContentLength,
  Waspp.Proofs.Cookies
Trusted boundary: none (fully proved)
Main exports: SameLetters, Recased, handling, CaseLaw, CaseBlind, case_law_iff
Open obligations: none
-/
import Waspp.Proofs.HeadReading
import Waspp.Proofs.SameMachine
import Waspp.Proofs.ContentLength
import Waspp.Proofs.Cookies

namespace Waspp

open CString Incremental

/-! ### Spellings

Two texts are equal but for case when they are equal in capitals.  Two header lines differ in spelling when
their names do so, and of a Connection header the value may, too. -/

/-- Two texts that differ in the case of letters only. -/
def SameLetters (u u' : Bytes) : Prop := u.map toupper = u'.map toupper

instance (u u' : Bytes) : Decidable (SameLetters u u') := inferInstanceAs (Decidable (_ = _))

/-- A Connection header that holds an option. -/
def IsOption (h : NameValue) : Prop :=
  SameLetters h.name (bytes "Connection") ∧
    (SameLetters h.value (bytes "close") ∨ SameLetters h.value (bytes "keep-alive"))

/-- Two headers that differ in the case of the name, and of the value when it is an option. -/
structure SameHeader (h h' : NameValue) : Prop where
  name : SameLetters h.name h'.name
  letters : SameLetters h.value h'.value
  value : ¬ IsOption h → h'.value = h.value

/-- Two streams of bytes that differ in the case of header names and of the options of Connection
    headers.  A head that is malformed or not yet complete has no headers; there the case of any letter
    behind the first line may differ. -/
inductive Recased : Bytes → Bytes → Prop where
  | same (text : Bytes) : Recased text text
  | head {line lines lines' rest : Bytes} {headers headers' : List NameValue}
      (noNewline : '\n'.toUInt8 ∉ line)
      (linesText : LinesText lines headers) (linesText' : LinesText lines' headers')
      (letters : SameLetters lines lines') (same : List.Forall₂ SameHeader headers headers') :
      Recased (line ++ crlf ++ lines ++ crlf ++ rest) (line ++ crlf ++ lines' ++ crlf ++ rest)
  | unfinished {line x x' : Bytes} (noNewline : '\n'.toUInt8 ∉ line) (letters : SameLetters x x')
      (open_ : ∀ lines headers rest, LinesText lines headers → x ≠ lines ++ crlf ++ rest) :
      Recased (line ++ crlf ++ x) (line ++ crlf ++ x')

/-! ### What a connection makes of a stream

The parser, the calls in front of the handler and the option that decides whether the connection is
closed: all that is seen of a stream up to its first request. -/

/-- The decision of `do_write` to close the connection. -/
def closes (request : Request) : Bool :=
  decide ((doWrite (⟨(), ⟨.methodStart, request, {}⟩, .reading⟩ : Serving Unit)).phase = .closed)

/-- What comes of the bytes given to `parse`. -/
inductive Treatment where
  /-- An accepted request, as the calls before the handler leave it, and whether the connection is closed
      behind it. -/
  | handled (cookies params : List NameValue) (uploads : List MultipartContent) (closes : Bool)
  /-- An accepted request on which one of these calls faults. -/
  | failed (fault : Fault)
  /-- A rejected message, and whether the connection is closed behind it. -/
  | rejected (closes : Bool)
  /-- More bytes are waited for. -/
  | pending
deriving DecidableEq, Repr

/-- The treatment of a result of `parse`. -/
def treatment (endpoint : Endpoint) (req : Request) : Tribool → Treatment
  | .yes =>
      match prepare endpoint req with
      | .ok request => .handled request.cookies request.params request.uploads (closes request)
      | .error fault => .failed fault
  | .no => .rejected (closes req)
  | .indeterminate => .pending

/-- The treatment of a stream, with the number of bytes that `parse` took of it. -/
def handling (endpoint : Endpoint) (req : Request) (text : Bytes) : Treatment × Nat :=
  let o := parse (.start req) text
  (treatment endpoint o.state.req o.verdict, o.consumed)

/-- The case of headers makes no difference to a stream. -/
def CaseLaw (endpoint : Endpoint) (req : Request) (text : Bytes) : Prop :=
  ∀ text', Recased text text' → handling endpoint req text' = handling endpoint req text

/-- No header, under any spelling of its name, is one whose value matters to a request of this method, target
    and version. -/
structure Caseless (method target : Bytes) (major minor : Int) (headers : List NameValue) : Prop where
  lengths : method = bytes "POST" → ∀ h ∈ headers, SameLetters h.name (bytes "Content-Length") → h.value = []
  cookies : method = bytes "GET" → target ≠ [] → ∀ h ∈ headers, SameLetters h.name (bytes "Cookie") →
    '='.toUInt8 ∉ h.value
  connections : method = bytes "GET" → target ≠ [] → ∀ h ∈ headers, SameLetters h.name (bytes "Connection") →
    h.value = [] ∨ (h.value.head? = some 'c'.toUInt8 ↔ major = 1 ∧ minor = 0) ∧
    ¬ SameLetters h.value (bytes "close")

/-- The stream begins with no head in which the case of a header matters. -/
def CaseBlind (text : Bytes) : Prop :=
  ∀ line method target params major minor lines headers rest, text = line ++ crlf ++ lines ++ crlf ++ rest →
    RequestLine line method target params major minor → LinesText lines headers →
      Caseless method target major minor headers

/-! ### One run -/

/-- A connection is closed on the option's first letter. -/
theorem closes_eq (request : Request) : closes request = (request.connectionOption == 'c'.toUInt8) := by
  unfold closes doWrite
  cases close : request.connectionOption == 'c'.toUInt8 <;> simp

/-- Two streams of which `parse` accepts none are handled alike when it gives one result after one number of
    bytes. -/
theorem handling_eq_of_unaccepted {endpoint : Endpoint} {req : Request} {text text' : Bytes}
    (unaccepted : (parse (.start req) text).verdict ≠ .yes)
    (verdict : (parse (.start req) text').verdict = (parse (.start req) text).verdict)
    (consumed : (parse (.start req) text').consumed = (parse (.start req) text).consumed) :
    handling endpoint req text' = handling endpoint req text := by
  have option : closes (parse (.start req) text').state.req =
      closes (parse (.start req) text).state.req := by
    simp only [closes_eq, (parse_outside (.start req) _).connectionOption]
  simp only [handling, verdict, consumed]
  cases result : (parse (.start req) text).verdict with
  | yes => exact absurd result unaccepted
  | no => simp only [treatment, option]
  | indeterminate => rfl

/-- What the calls before the handler make of a request without a body. -/
theorem calls_of_empty {req : Request} (content : req.content = []) (rest : req.restParams = []) :
    (do
      let request ← parseParams req.parseConnectionHeader
      let request ← parseCookies request
      parseContent request) =
      match splitFrom '/'.toUInt8 [] (percentDecode req.uri) with
      | [] => .error .undefinedBehaviour
      | _ :: items =>
          .ok { req with
            connectionOption := askedOption req
            headers := NameValue.ensure (NameValue.ensure req.headers (bytes "Connection")) (bytes "Cookie")
            restParams := items
            params := req.params.map fun nv => ⟨percentDecode nv.name, percentDecode nv.value⟩
            cookies := req.cookies ++ readCookies (NameValue.valueOf req.headers (bytes "Cookie")) } := by
  rw [parseConnectionHeader_eq]
  unfold parseParams split
  simp only [Request.rehead, rest, List.nil_append]
  cases splitFrom '/'.toUInt8 [] (percentDecode req.uri) with
  | nil => rfl
  | cons first items => simp [parseCookies_eq, parseContent, content, bind, Except.bind]

/-- How such a request is treated when it is accepted. -/
theorem treatment_of_empty (endpoint : Endpoint) {req : Request} (content : req.content = [])
    (rest : req.restParams = []) :
    treatment endpoint req .yes =
      if req.uri = [] then .failed .undefinedBehaviour
      else
        .handled (req.cookies ++ readCookies (NameValue.valueOf req.headers (bytes "Cookie")))
          (req.params.map fun nv => ⟨percentDecode nv.name, percentDecode nv.value⟩) req.uploads
          (askedOption req == 'c'.toUInt8) := by
  have items : splitFrom '/'.toUInt8 [] (percentDecode req.uri) = [] ↔ req.uri = [] := by
    rw [splitFrom_eq_nil_iff, percentDecode_eq_nil_iff]
    simp
  have calls :=
    @calls_of_empty { req with remoteAddr := endpoint.address, remotePort := endpoint.port } content rest
  unfold treatment prepare
  rw [calls]
  dsimp only
  cases cut : splitFrom '/'.toUInt8 [] (percentDecode req.uri) with
  | nil => rw [if_pos (items.mp cut)]
  | cons first others =>
      rw [if_neg (fun none => by simp [items.mpr none] at cut)]
      simp only [closes_eq]
      rfl

/-- Whether a Connection header of this value asks to close in this version. -/
def asksClose (value : Bytes) (major minor : Int) : Bool :=
  match value with
  | [] => decide (major = 1 ∧ minor = 0)
  | first :: _ => first == 'c'.toUInt8

/-- The option of a request is the first letter that its Connection header and its version ask for. -/
theorem askedOption_headRequest (req : Request) (method target : Bytes) (params : List NameValue)
    (major minor : Int) (headers : List NameValue) :
    (askedOption (headRequest req method target params major minor headers) == 'c'.toUInt8) =
      asksClose (NameValue.valueOf headers (bytes "Connection")) major minor := by
  simp only [askedOption, headRequest, getRequest, asksClose]
  cases NameValue.valueOf headers (bytes "Connection") with
  | nil =>
      have other : 'K'.toUInt8 ≠ 'c'.toUInt8 := by decide
      by_cases old : major = 1 ∧ minor = 0 <;> simp [old, other]
  | cons first rest => rfl

/-- A header that is there decides by its first letter. -/
theorem asksClose_of_ne_nil {value : Bytes} (nonempty : value ≠ []) (major minor : Int) :
    asksClose value major minor = decide (value.head? = some 'c'.toUInt8) := by
  cases value with
  | nil => exact absurd rfl nonempty
  | cons first rest => by_cases same : first = 'c'.toUInt8 <;> simp [asksClose, same]

/-- How a request is treated, from its parts. -/
theorem treatment_headRequest (endpoint : Endpoint) {req : Request} (fresh : req.Fresh)
    (method target : Bytes) (params : List NameValue) (major minor : Int) (headers : List NameValue) :
    treatment endpoint (headRequest req method target params major minor headers) .yes =
      if target = [] then .failed .undefinedBehaviour
      else
        .handled (readCookies (NameValue.valueOf headers (bytes "Cookie")))
          (params.map fun nv => ⟨percentDecode nv.name, percentDecode nv.value⟩) []
          (asksClose (NameValue.valueOf headers (bytes "Connection")) major minor) := by
  have content : (headRequest req method target params major minor headers).content = [] := fresh.content
  have rest : (headRequest req method target params major minor headers).restParams = [] := fresh.restParams
  rw [treatment_of_empty endpoint content rest, askedOption_headRequest]
  simp only [headRequest, getRequest, fresh.cookies, fresh.uploads, List.nil_append]

/-! ### Respelling a head

A spelling rewrites the names of headers and the bytes of their values.  It keeps the grammar of the lines,
so a respelled head is read as far as the head is. -/

/-- Capitals are in capitals. -/
theorem toupper_toupper (b : UInt8) : toupper (toupper b) = toupper b := by
  have all : ∀ b, toupper (toupper b) = toupper b := forall_byte (by decide +kernel)
  exact all b

/-- In capitals the case is lost. -/
theorem toupper_tolower (b : UInt8) : toupper (tolower b) = toupper b := by
  have all : ∀ b, toupper (tolower b) = toupper b := forall_byte (by decide +kernel)
  exact all b

/-- In small letters, too. -/
theorem tolower_toupper (b : UInt8) : tolower (toupper b) = tolower b := by
  have all : ∀ b, tolower (toupper b) = tolower b := forall_byte (by decide +kernel)
  exact all b

/-- The classes of bytes do not look at the case: token bytes. -/
theorem isToken_toupper (b : UInt8) : isToken (toupper b) = isToken b := by
  have all : ∀ b, isToken (toupper b) = isToken b := forall_byte (by decide +kernel)
  exact all b

theorem isTextByte_toupper (b : UInt8) : isTextByte (toupper b) = isTextByte b := by
  have all : ∀ b, isTextByte (toupper b) = isTextByte b := forall_byte (by decide +kernel)
  exact all b

/-- A text has its own letters. -/
theorem SameLetters.refl (u : Bytes) : SameLetters u u := rfl

/-- Texts with the same letters are joined to such texts. -/
theorem SameLetters.append {u u' v v' : Bytes} (one : SameLetters u u') (two : SameLetters v v') :
    SameLetters (u ++ v) (u' ++ v') := by
  rw [SameLetters, List.map_append, List.map_append, one, two]

/-- They have one length. -/
theorem SameLetters.length {u u' : Bytes} (same : SameLetters u u') : u'.length = u.length := by
  simpa using (congrArg List.length same).symm

/-- The empty text has no other spelling. -/
theorem SameLetters.eq_nil {u u' : Bytes} (same : SameLetters u u') (empty : u = []) : u' = [] := by
  have length := same.length
  rwa [empty, List.length_nil, List.length_eq_zero_iff] at length

/-- A text keeps a class of bytes that does not look at the case. -/
theorem SameLetters.all {u u' : Bytes} (same : SameLetters u u') {c : UInt8 → Bool}
    (blind : ∀ b, c (toupper b) = c b) (all : ∀ b ∈ u, c b = true) : ∀ b ∈ u', c b = true := by
  intro b member
  have upper : toupper b ∈ u.map toupper := same ▸ List.mem_map_of_mem member
  obtain ⟨b', member', byte⟩ := List.mem_map.mp upper
  rw [← blind, ← byte, blind]
  exact all b' member'

/-- A spelling of a header name is one. -/
theorem SameLetters.name {n n' : Bytes} (same : SameLetters n n') (name : Name n) : Name n' := by
  constructor
  · intro empty
    exact name.nonempty (SameLetters.eq_nil (Eq.symm same) empty)
  · exact same.all isToken_toupper name.token

/-- What keeps the letters of each byte keeps those of a text. -/
theorem sameLetters_map {g : UInt8 → UInt8} (kept : ∀ b, toupper (g b) = toupper b) (u : Bytes) :
    SameLetters u (u.map g) := by
  rw [SameLetters, List.map_map]
  exact List.map_congr_left fun b _ => (kept b).symm

/-- Continuation lines with the letters of what they add respelled. -/
theorem FoldText.respell {folds added : Bytes} (folded : FoldText folds added) {g : UInt8 → UInt8}
    (kept : ∀ b, toupper (g b) = toupper b) :
    ∃ folds', FoldText folds' (added.map g) ∧ SameLetters folds folds' := by
  induction folded with
  | done => exact ⟨[], .done, .refl []⟩
  | @fold blanks text rest added nonempty blank body noBlank tail ih =>
      obtain ⟨rest', tail', letters⟩ := ih
      refine ⟨blanks ++ text.map g ++ crlf ++ rest', ?_, ?_⟩
      · have body' := (sameLetters_map kept text).all isTextByte_toupper body
        have noBlank' : (text.map g).head? ≠ some ' '.toUInt8 := by
          cases text with
          | nil => simp
          | cons b text =>
              intro here
              simp only [List.map_cons, List.head?_cons, Option.some.injEq] at here
              have space := (spelling_facts b).2.2.2.2.1
              rw [← kept, here, show (toupper ' '.toUInt8 == ' '.toUInt8) = true by decide, eq_comm,
                beq_iff_eq] at space
              simp [space] at noBlank
        have whole := FoldText.fold nonempty blank body' noBlank' tail'
        rwa [← List.map_append] at whole
      · exact (((SameLetters.refl blanks).append (sameLetters_map kept text)).append (.refl crlf)).append
          letters

/-- A way to spell the headers of a head: their names, and the values of their options. -/
structure Spelling where
  name : NameValue → Bytes
  byte : NameValue → UInt8 → UInt8
  names : ∀ h, SameLetters h.name (name h)
  bytes_ : ∀ h b, toupper (byte h b) = toupper b
  options : ∀ h, ¬ IsOption h → byte h = id

/-- The header in that spelling. -/
def Spelling.spell (s : Spelling) (h : NameValue) : NameValue := ⟨s.name h, h.value.map (s.byte h)⟩

/-- A spelling gives a header that differs in spelling only. -/
theorem Spelling.sameHeader (s : Spelling) (h : NameValue) : SameHeader h (s.spell h) where
  name := s.names h
  letters := sameLetters_map (s.bytes_ h) h.value
  value := by
    intro other
    simp [Spelling.spell, s.options h other]

/-- Header lines can be written in any spelling. -/
theorem LinesText.respell {lines : Bytes} {headers : List NameValue} (text : LinesText lines headers)
    (s : Spelling) :
    ∃ lines', LinesText lines' (headers.map s.spell) ∧ SameLetters lines lines' := by
  induction text with
  | done => exact ⟨[], .done, .refl []⟩
  | @line n v folds added rest headers name value folded tail ih =>
      obtain ⟨rest', tail', letters⟩ := ih
      have kept := s.bytes_ ⟨n, v ++ added⟩
      obtain ⟨folds', folded', foldLetters⟩ := folded.respell kept
      have names := s.names ⟨n, v ++ added⟩
      have values := sameLetters_map kept v
      refine ⟨s.name ⟨n, v ++ added⟩ ++ ':'.toUInt8 :: ' '.toUInt8 :: v.map (s.byte ⟨n, v ++ added⟩) ++
        crlf ++ folds' ++ rest', ?_, ?_⟩
      · have whole := LinesText.line (names.name name) (values.all isTextByte_toupper value) folded' tail'
        rwa [← List.map_append] at whole
      · have colon := (SameLetters.refl (bytes ": ")).append values
        exact (((names.append colon).append (.refl crlf)).append foldLetters).append letters

instance (h : NameValue) : Decidable (IsOption h) := inferInstanceAs (Decidable (_ ∧ _))

/-- The spelling that leaves the name `key` to the headers of that name that `p` picks, and takes it from the
    others. -/
def Spelling.only (key : Bytes) (p : NameValue → Bool) (g : UInt8 → UInt8)
    (kept : ∀ b, toupper (g b) = toupper b) :
    Spelling where
  name h := if SameLetters h.name key then if p h then key else h.name.map toupper else h.name
  byte h := if IsOption h then g else id
  names h := by
    split
    · rename_i same
      split
      · exact same
      · exact sameLetters_map toupper_toupper _
    · rfl
  bytes_ h b := by
    split
    · exact kept b
    · rfl
  options h other := if_neg other

section Lookups

variable {key : Bytes} (mixed : key.map toupper ≠ key) (p : NameValue → Bool) {g : UInt8 → UInt8}
  (kept : ∀ b, toupper (g b) = toupper b)

include mixed

/-- The spelling leaves the name to the headers that are picked. -/
theorem name_spell_only_iff (h : NameValue) :
    ((Spelling.only key p g kept).spell h).name = key ↔ SameLetters h.name key ∧ p h = true := by
  simp only [Spelling.spell, Spelling.only]
  split_ifs with same picked
  · simp [same, picked]
  · rw [show h.name.map toupper = key.map toupper from same]
    simp [mixed, picked]
  · constructor
    · intro here
      exact absurd (here ▸ SameLetters.refl _) same
    · intro here
      exact absurd here.1 same

/-- What is looked up under the key is the first header that was picked. -/
theorem valueOf_only (headers : List NameValue) :
    NameValue.valueOf (headers.map (Spelling.only key p g kept).spell) key =
      match headers.find? fun h => decide (SameLetters h.name key) && p h with
      | some h => h.value.map (if IsOption h then g else id)
      | none => [] := by
  induction headers with
  | nil => rfl
  | cons h headers ih =>
      rw [List.map_cons, NameValue.valueOf_cons, List.find?_cons]
      by_cases picked : SameLetters h.name key ∧ p h = true
      · rw [if_pos ((name_spell_only_iff mixed p kept h).mpr picked)]
        simp [picked, Spelling.spell, Spelling.only]
      · rw [if_neg (fun here => picked ((name_spell_only_iff mixed p kept h).mp here)), ih]
        have skipped : (decide (SameLetters h.name key) && p h) = false := by simpa using picked
        rw [skipped]

/-- When a header is picked, the lookup shows the value of one that is. -/
theorem valueOf_only_of_mem {headers : List NameValue} {h : NameValue} (member : h ∈ headers)
    (named : SameLetters h.name key) (picked : p h = true) :
    ∃ h', SameLetters h'.name key ∧ p h' = true ∧
      NameValue.valueOf (headers.map (Spelling.only key p g kept).spell) key =
        h'.value.map (if IsOption h' then g else id) := by
  rw [valueOf_only mixed p kept]
  cases found : headers.find? fun h => decide (SameLetters h.name key) && p h with
  | none => exact absurd (List.find?_eq_none.mp found h member) (by simp [named, picked])
  | some h' =>
      have here := List.find?_some found
      simp only [Bool.and_eq_true, decide_eq_true_eq] at here
      exact ⟨h', here.1, here.2, rfl⟩

/-- When none is, it shows the empty string. -/
theorem valueOf_only_none (headers : List NameValue) :
    NameValue.valueOf (headers.map (Spelling.only key (fun _ => false) g kept).spell) key = [] := by
  rw [valueOf_only mixed _ kept, List.find?_eq_none.mpr (by simp)]

end Lookups

/-! ### How a head is handled -/

section Heads

variable (endpoint : Endpoint) {req : Request} (fresh : req.Fresh) {line method target : Bytes}
  {params : List NameValue}
  {major minor : Int} (requestLine : RequestLine line method target params major minor) {lines : Bytes}
  {headers : List NameValue} (linesText : LinesText lines headers) (rest : Bytes)
include fresh requestLine linesText

/-- At the final LF the parser has the request that the head denotes. -/
theorem parse_head :
    parse (.start req) (line ++ crlf ++ lines ++ crlf ++ rest) =
      (parser.run ⟨.expectingNewline3, headRequest req method target params major minor headers⟩
        ('\n'.toUInt8 :: rest)).after (line ++ crlf ++ lines ++ ['\r'.toUInt8]).length := by
  have reads := reads_head fresh requestLine linesText
  have open_ : (parser.run (.start req) (line ++ crlf ++ lines ++ ['\r'.toUInt8])).verdict =
      .indeterminate := by
    rw [reads]
  have shape : line ++ crlf ++ lines ++ crlf ++ rest =
      (line ++ crlf ++ lines ++ ['\r'.toUInt8]) ++ '\n'.toUInt8 :: rest := by
    simp [crlf]
  rw [parse_eq_run, shape, Machine.run_append_of_indeterminate open_, reads]

/-- A GET is handled by its head alone. -/
theorem handling_of_get (get : method = bytes "GET") :
    handling endpoint req (line ++ crlf ++ lines ++ crlf ++ rest) =
      (treatment endpoint (headRequest req method target params major minor headers) .yes,
        (line ++ crlf ++ lines ++ crlf).length) := by
  have act : parser.act ⟨.expectingNewline3,
      headRequest req method target params major minor headers⟩ '\n'.toUInt8 =
      .read .yes ⟨.expectingNewline3, headRequest req method target params major minor headers⟩ := by
    simp [parser, switchBody, headRequest, get]
  simp only [handling, parse_head fresh requestLine linesText, Machine.run_cons_yes act, Outcome.after]
  simp [crlf, Nat.add_assoc]

/-- A head that is rejected at its end. -/
theorem handling_of_no {q : Parsing}
    (act : parser.act ⟨.expectingNewline3,
      headRequest req method target params major minor headers⟩ '\n'.toUInt8 =
      .read .no q) :
    handling endpoint req (line ++ crlf ++ lines ++ crlf ++ rest) =
      (.rejected (closes req), (line ++ crlf ++ lines ++ crlf).length) := by
  have option : closes q.req = closes req := by
    rw [closes_eq, closes_eq, (act_outside act).connectionOption]
    rfl
  simp only [handling, parse_head fresh requestLine linesText, Machine.run_cons_no act, Outcome.after,
    treatment, option]
  simp [crlf, Nat.add_assoc]

/-- A method that is neither is rejected at the end of the head. -/
theorem handling_of_other (get : method ≠ bytes "GET") (post : method ≠ bytes "POST") :
    handling endpoint req (line ++ crlf ++ lines ++ crlf ++ rest) =
      (.rejected (closes req), (line ++ crlf ++ lines ++ crlf).length) := by
  refine handling_of_no endpoint fresh requestLine linesText rest
    (q := ⟨.expectingNewline3, headRequest req method target params major minor headers⟩) ?_
  simp [parser, switchBody, headRequest, get, post]

/-- A POST without a length is rejected at the end of its head. -/
theorem handling_of_post (post : method = bytes "POST")
    (absent : NameValue.valueOf headers (bytes "Content-Length") = []) :
    handling endpoint req (line ++ crlf ++ lines ++ crlf ++ rest) =
      (.rejected (closes req), (line ++ crlf ++ lines ++ crlf).length) := by
  exact handling_of_no endpoint fresh requestLine linesText rest (act_final_of_missing post absent)

/-- A POST with a length is not. -/
theorem handling_ne_of_post (post : method = bytes "POST")
    (present : NameValue.valueOf headers (bytes "Content-Length") ≠ []) (close : Bool) :
    handling endpoint req (line ++ crlf ++ lines ++ crlf ++ rest) ≠
      (.rejected close, (line ++ crlf ++ lines ++ crlf).length) := by
  obtain ⟨q, act, -, -⟩ := @act_final_of_present
    (headRequest req method target params major minor headers) post present
  have whole := parse_head fresh requestLine linesText rest
  rw [Machine.run_cons_indeterminate act] at whole
  intro same
  obtain ⟨treated, consumed⟩ := Prod.mk.inj same
  -- a rejection takes at least one byte of the body
  have taken : (parser.run ⟨.contentStart, q⟩ rest).consumed = 0 := by
    simp only [whole, Outcome.after] at consumed
    simp [crlf] at consumed
    omega
  cases rest with
  | nil =>
      rw [whole] at treated
      simp [treatment] at treated
  | cons b rest =>
      cases next : parser.act ⟨.contentStart, q⟩ b with
      | refuse => exact HasCase.act_ne_refuse (by simp [HasCase]) b next
      | read verdict t =>
          cases verdict with
          | indeterminate => simp [Machine.run_cons_indeterminate next] at taken
          | yes => simp [Machine.run_cons_yes next] at taken
          | no => simp [Machine.run_cons_no next] at taken

end Heads

/-- No byte of a request line is an LF. -/
theorem RequestLine.noNewline {line method target : Bytes} {params : List NameValue} {major minor : Int}
    (requestLine : RequestLine line method target params major minor) : '\n'.toUInt8 ∉ line := by
  cases requestLine with
  | @intro _ _ major minor _ name targetText majorDigits minorDigits =>
      have inName : '\n'.toUInt8 ∉ method := fun member => absurd (name.token _ member) (by decide)
      have inTarget : '\n'.toUInt8 ∉ target :=
        fun member => absurd (targetText.visible _ member).1 (by decide)
      have inMajor : '\n'.toUInt8 ∉ major := fun member => absurd (majorDigits.digit _ member) (by decide)
      have inMinor : '\n'.toUInt8 ∉ minor := fun member => absurd (minorDigits.digit _ member) (by decide)
      simp only [List.mem_append, List.mem_cons, inName, inTarget, inMajor, inMinor, false_or, or_false]
      decide

/-! ### A head in which the case matters

Three lookups go by name: the length of a POST, the cookies and the Connection header of a GET.  When one
of them finds a header under some spelling, two spellings tell the difference. -/

section Variants

variable {endpoint : Endpoint} {req : Request} (fresh : req.Fresh) {line method target : Bytes}
  {params : List NameValue}
  {major minor : Int} (requestLine : RequestLine line method target params major minor) {lines : Bytes}
  {headers : List NameValue} (linesText : LinesText lines headers) {rest : Bytes}
  (law : CaseLaw endpoint req (line ++ crlf ++ lines ++ crlf ++ rest))
include requestLine linesText law

/-- Under the law, two spellings of a head are handled alike. -/
theorem CaseLaw.spellings (s t : Spelling) :
    ∃ one two, LinesText one (headers.map s.spell) ∧ LinesText two (headers.map t.spell) ∧
      one.length = two.length ∧ handling endpoint req (line ++ crlf ++ one ++ crlf ++ rest) =
        handling endpoint req (line ++ crlf ++ two ++ crlf ++ rest) := by
  have spelled (s : Spelling) : ∃ one, LinesText one (headers.map s.spell) ∧ one.length = lines.length ∧
      handling endpoint req (line ++ crlf ++ one ++ crlf ++ rest) =
        handling endpoint req (line ++ crlf ++ lines ++ crlf ++ rest) := by
    obtain ⟨one, oneText, letters⟩ := linesText.respell s
    have same : List.Forall₂ SameHeader headers (headers.map s.spell) := by
      rw [List.forall₂_map_right_iff, List.forall₂_same]
      exact fun h _ => s.sameHeader h
    exact ⟨one, oneText, letters.length, law _ (.head requestLine.noNewline linesText oneText letters same)⟩
  obtain ⟨one, oneText, oneLength, oneHandled⟩ := spelled s
  obtain ⟨two, twoText, twoLength, twoHandled⟩ := spelled t
  exact ⟨one, two, oneText, twoText, oneLength.trans twoLength.symm, oneHandled.trans twoHandled.symm⟩

include fresh

/-- No header spelled like Content-Length has a value. -/
theorem CaseLaw.lengths (post : method = bytes "POST") :
    ∀ h ∈ headers, SameLetters h.name (bytes "Content-Length") → h.value = [] := by
  intro h member named
  by_contra value
  have mixed : (bytes "Content-Length").map toupper ≠ bytes "Content-Length" := by decide
  obtain ⟨one, two, oneText, twoText, length, same⟩ := law.spellings requestLine linesText
    (.only (bytes "Content-Length") (fun h => decide (h.value ≠ [])) id fun _ => rfl)
    (.only (bytes "Content-Length") (fun _ => false) id fun _ => rfl)
  obtain ⟨h', -, picked, shown⟩ :=
    valueOf_only_of_mem mixed (fun h => decide (h.value ≠ [])) (g := id) (fun _ => rfl)
    member named (decide_eq_true value)
  have present : NameValue.valueOf
      (headers.map (Spelling.only (bytes "Content-Length") (fun h => decide (h.value ≠ [])) id
      fun _ => rfl).spell) (bytes "Content-Length") ≠ [] := by
    rw [shown]
    simpa using picked
  refine handling_ne_of_post endpoint fresh requestLine oneText rest post present (closes req) ?_
  rw [same, handling_of_post endpoint fresh requestLine twoText rest post
    (valueOf_only_none mixed _ headers)]
  simp [length]

/-- Two spellings of a GET show the same cookies and ask for the same. -/
theorem CaseLaw.lookups (get : method = bytes "GET") (nonempty : target ≠ []) (s t : Spelling) :
    readCookies (NameValue.valueOf (headers.map s.spell) (bytes "Cookie")) =
        readCookies (NameValue.valueOf (headers.map t.spell) (bytes "Cookie")) ∧
      asksClose (NameValue.valueOf (headers.map s.spell) (bytes "Connection")) major minor =
        asksClose (NameValue.valueOf (headers.map t.spell) (bytes "Connection")) major minor := by
  obtain ⟨one, two, oneText, twoText, -, same⟩ := law.spellings requestLine linesText s t
  rw [handling_of_get endpoint fresh requestLine oneText rest get,
    handling_of_get endpoint fresh requestLine twoText rest get] at same
  have treated := (Prod.mk.inj same).1
  rw [treatment_headRequest endpoint fresh, treatment_headRequest endpoint fresh, if_neg nonempty,
    if_neg nonempty] at treated
  obtain ⟨cookies, -, -, close⟩ := Treatment.handled.inj treated
  exact ⟨cookies, close⟩

/-- No header spelled like Cookie has a cookie. -/
theorem CaseLaw.cookies (get : method = bytes "GET") (nonempty : target ≠ []) :
    ∀ h ∈ headers, SameLetters h.name (bytes "Cookie") → '='.toUInt8 ∉ h.value := by
  intro h member named cookie
  have mixed : (bytes "Cookie").map toupper ≠ bytes "Cookie" := by decide
  have same := (law.lookups fresh requestLine linesText get nonempty
    (.only (bytes "Cookie") (fun h => decide ('='.toUInt8 ∈ h.value)) id fun _ => rfl)
    (.only (bytes "Cookie") (fun _ => false) id fun _ => rfl)).1
  obtain ⟨h', -, picked, shown⟩ :=
    valueOf_only_of_mem mixed (fun h => decide ('='.toUInt8 ∈ h.value)) (g := id)
    (fun _ => rfl) member named (decide_eq_true cookie)
  rw [valueOf_only_none mixed, shown, show readCookies [] = [] by decide, readCookies_eq_nil_iff] at same
  simp at same picked
  exact same picked

/-- No header spelled like Connection asks for other than what the version asks for. -/
theorem CaseLaw.asks (get : method = bytes "GET") (nonempty : target ≠ []) {h : NameValue}
    (member : h ∈ headers) (named : SameLetters h.name (bytes "Connection")) (value : h.value ≠ []) :
    h.value.head? = some 'c'.toUInt8 ↔ major = 1 ∧ minor = 0 := by
  have mixed : (bytes "Connection").map toupper ≠ bytes "Connection" := by decide
  by_contra differs
  have asks := (law.lookups fresh requestLine linesText get nonempty
    (.only (bytes "Connection")
      (fun h => decide (h.value ≠ [] ∧ ¬ (h.value.head? = some 'c'.toUInt8 ↔ major = 1 ∧ minor = 0))) id
      fun _ => rfl)
    (.only (bytes "Connection") (fun _ => false) id fun _ => rfl)).2
  obtain ⟨h', -, picked, shown⟩ := valueOf_only_of_mem mixed
    (fun h => decide (h.value ≠ [] ∧ ¬ (h.value.head? = some 'c'.toUInt8 ↔ major = 1 ∧ minor = 0))) (g := id)
    (fun _ => rfl) member named (decide_eq_true ⟨value, differs⟩)
  rw [decide_eq_true_eq] at picked
  rw [valueOf_only_none mixed, shown, ite_self, List.map_id, asksClose_of_ne_nil picked.1] at asks
  exact picked.2 (decide_eq_decide.mp asks)

/-- None asks to close in so many letters. -/
theorem CaseLaw.not_close (get : method = bytes "GET") (nonempty : target ≠ []) {h : NameValue}
    (member : h ∈ headers)
    (named : SameLetters h.name (bytes "Connection")) : ¬ SameLetters h.value (bytes "close") := by
  have mixed : (bytes "Connection").map toupper ≠ bytes "Connection" := by decide
  intro close
  have asks := (law.lookups fresh requestLine linesText get nonempty
    (.only (bytes "Connection") (fun h => decide (SameLetters h.value (bytes "close"))) tolower
      toupper_tolower)
    (.only (bytes "Connection") (fun h => decide (SameLetters h.value (bytes "close"))) toupper
      toupper_toupper)).2
  obtain ⟨low, lowNamed, lowPicked, lowShown⟩ := valueOf_only_of_mem mixed
    (fun h => decide (SameLetters h.value (bytes "close"))) toupper_tolower member named
      (decide_eq_true close)
  obtain ⟨high, highNamed, highPicked, highShown⟩ := valueOf_only_of_mem mixed
    (fun h => decide (SameLetters h.value (bytes "close"))) toupper_toupper member named
      (decide_eq_true close)
  rw [decide_eq_true_eq] at lowPicked highPicked
  have lower : low.value.map tolower = bytes "close" := by
    have back (u : Bytes) : u.map tolower = (u.map toupper).map tolower := by
      simp [List.map_map, Function.comp_def, tolower_toupper]
    rw [back, show low.value.map toupper = (bytes "close").map toupper from lowPicked]
    decide
  have higher : high.value.map toupper = bytes "CLOSE" := by
    rw [show high.value.map toupper = (bytes "close").map toupper from highPicked]
    decide
  rw [lowShown, highShown, if_pos ⟨lowNamed, Or.inl lowPicked⟩, if_pos ⟨highNamed, Or.inl highPicked⟩, lower,
    higher, asksClose_of_ne_nil (by decide), asksClose_of_ne_nil (by decide)] at asks
  exact absurd asks (by decide)

/-- Under the law no header matters, whatever its spelling. -/
theorem CaseLaw.caseless : Caseless method target major minor headers where
  lengths := law.lengths fresh requestLine linesText
  cookies := law.cookies fresh requestLine linesText
  connections get nonempty h member named := by
    by_cases value : h.value = []
    · exact Or.inl value
    · exact Or.inr ⟨law.asks fresh requestLine linesText get nonempty member named value,
        law.not_close fresh requestLine linesText get nonempty member named⟩

end Variants

/-! ### A head in which it does not

When no spelling of a name is looked up with a value that counts, all lookups come out empty, or alike, in
every spelling. -/

/-- A respelled header comes from one of the headers. -/
theorem SameHeader.of_mem {headers headers' : List NameValue}
    (same : List.Forall₂ SameHeader headers headers')
    {h' : NameValue} (member : h' ∈ headers') : ∃ h ∈ headers, SameHeader h h' := by
  induction same with
  | nil => cases member
  | @cons h₁ h₁' _ _ here _ ih =>
      rcases List.mem_cons.mp member with rfl | later
      · exact ⟨h₁, List.mem_cons_self .., here⟩
      · obtain ⟨h, before, header⟩ := ih later
        exact ⟨h, List.mem_cons_of_mem _ before, header⟩

/-- `keep-alive` does not begin with the letter that closes. -/
theorem head?_of_keepAlive {v : Bytes} (same : SameLetters v (bytes "keep-alive")) :
    v.head? ≠ some 'c'.toUInt8 := by
  intro here
  have upper : (v.map toupper).head? = ((bytes "keep-alive").map toupper).head? := congrArg List.head? same
  rw [List.head?_map, here] at upper
  exact absurd upper (by decide)

/-- Another spelling of headers whose case does not matter is one, too. -/
theorem Caseless.of_sameHeader {method target : Bytes} {major minor : Int}
    {headers headers' : List NameValue} (caseless : Caseless method target major minor headers)
    (same : List.Forall₂ SameHeader headers headers') :
    Caseless method target major minor headers' := by
  constructor
  · intro post h' member named
    obtain ⟨h, before, header⟩ := SameHeader.of_mem same member
    exact header.letters.eq_nil (caseless.lengths post h before (header.name.trans named))
  · intro get nonempty h' member named
    obtain ⟨h, before, header⟩ := SameHeader.of_mem same member
    have plain : ¬ IsOption h := by
      intro option
      exact absurd ((header.name.trans named).symm.trans option.1) (by decide)
    rw [header.value plain]
    exact caseless.cookies get nonempty h before (header.name.trans named)
  · intro get nonempty h' member named
    obtain ⟨h, before, header⟩ := SameHeader.of_mem same member
    rcases caseless.connections get nonempty h before (header.name.trans named) with empty | ⟨asks, open_⟩
    · exact Or.inl (header.letters.eq_nil empty)
    · right
      by_cases option : IsOption h
      · have keepAlive := option.2.resolve_left open_
        have keepAlive' : SameLetters h'.value (bytes "keep-alive") := header.letters.symm.trans keepAlive
        have newer : ¬ (major = 1 ∧ minor = 0) := fun old => head?_of_keepAlive keepAlive (asks.mpr old)
        exact ⟨iff_of_false (head?_of_keepAlive keepAlive') newer,
          fun close => open_ (header.letters.trans close)⟩
      · rw [header.value option]
        exact ⟨asks, open_⟩

/-- A lookup shows the empty string or the value of a header of that name. -/
theorem valueOf_cases (headers : List NameValue) (name : Bytes) :
    NameValue.valueOf headers name = [] ∨ ∃ h ∈ headers, h.name = name ∧
      NameValue.valueOf headers name = h.value := by
  unfold NameValue.valueOf NameValue.lookup
  cases found : headers.find? fun nv => nv.name == name with
  | none => exact Or.inl rfl
  | some h =>
      have named := List.find?_some found
      exact Or.inr ⟨h, List.mem_of_find?_eq_some found, eq_of_beq named, rfl⟩

section Blind

variable {method target : Bytes} {major minor : Int} {headers : List NameValue}
  (caseless : Caseless method target major minor headers)
include caseless

/-- No length is found in such a head. -/
theorem Caseless.valueOf_length (post : method = bytes "POST") :
    NameValue.valueOf headers (bytes "Content-Length") = [] := by
  rcases valueOf_cases headers (bytes "Content-Length") with empty | ⟨h, member, named, shown⟩
  · exact empty
  · rw [shown]
    exact caseless.lengths post h member (named ▸ SameLetters.refl _)

theorem Caseless.readCookies_cookie (get : method = bytes "GET") (nonempty : target ≠ []) :
    readCookies (NameValue.valueOf headers (bytes "Cookie")) = [] := by
  rw [readCookies_eq_nil_iff]
  rcases valueOf_cases headers (bytes "Cookie") with empty | ⟨h, member, named, shown⟩
  · simp [empty]
  · rw [shown]
    exact caseless.cookies get nonempty h member (named ▸ SameLetters.refl _)

/-- The version alone decides on closing. -/
theorem Caseless.asksClose_connection (get : method = bytes "GET") (nonempty : target ≠ []) :
    asksClose (NameValue.valueOf headers (bytes "Connection")) major minor =
      decide (major = 1 ∧ minor = 0) := by
  by_cases empty : NameValue.valueOf headers (bytes "Connection") = []
  · rw [empty]
    rfl
  · rw [asksClose_of_ne_nil empty, decide_eq_decide]
    rcases valueOf_cases headers (bytes "Connection") with none | ⟨h, member, named, shown⟩
    · exact absurd none empty
    · rw [shown] at empty ⊢
      exact ((caseless.connections get nonempty h member (named ▸ SameLetters.refl _)).resolve_left empty).1

/-- A head in which the case does not matter is handled as one without headers. -/
theorem Caseless.handling_eq (endpoint : Endpoint) {req : Request} (fresh : req.Fresh) {line lines : Bytes}
    {params : List NameValue} (requestLine : RequestLine line method target params major minor)
    (linesText : LinesText lines headers) (rest : Bytes) :
    handling endpoint req (line ++ crlf ++ lines ++ crlf ++ rest) =
      (if method = bytes "GET" then treatment endpoint (headRequest req method target params major minor [])
        .yes
        else .rejected (closes req), (line ++ crlf ++ lines ++ crlf).length) := by
  by_cases get : method = bytes "GET"
  · rw [handling_of_get endpoint fresh requestLine linesText rest get, if_pos get,
      treatment_headRequest endpoint fresh, treatment_headRequest endpoint fresh]
    by_cases empty : target = []
    · rw [if_pos empty, if_pos empty]
    · rw [if_neg empty, if_neg empty, caseless.readCookies_cookie get empty,
        caseless.asksClose_connection get empty]
      rfl
  · rw [if_neg get]
    by_cases post : method = bytes "POST"
    · exact handling_of_post endpoint fresh requestLine linesText rest post (caseless.valueOf_length post)
    · exact handling_of_other endpoint fresh requestLine linesText rest get post

end Blind

/-! ### The law -/

/-- What follows a text on which `parse` has made up its mind makes no difference. -/
theorem handling_append_of_definite (endpoint : Endpoint) {req : Request} {u : Bytes}
    (definite : (parser.run (.start req) u).verdict ≠ .indeterminate) (v v' : Bytes) :
    handling endpoint req (u ++ v) = handling endpoint req (u ++ v') := by
  simp only [handling, parse_eq_run, Machine.run_append_of_definite definite]

/-- Behind a first line, the case of a head that is malformed or not yet complete makes no difference. -/
theorem handling_unfinished (endpoint : Endpoint) {req : Request} (fresh : req.Fresh) {line x x' : Bytes}
    (noNewline : '\n'.toUInt8 ∉ line) (letters : SameLetters x x')
    (open_ : ∀ lines headers rest, LinesText lines headers → x ≠ lines ++ crlf ++ rest) :
    handling endpoint req (line ++ crlf ++ x') = handling endpoint req (line ++ crlf ++ x) := by
  by_cases definite : (parser.run (.start req) (line ++ crlf)).verdict ≠ .indeterminate
  · exact handling_append_of_definite endpoint definite x' x
  rw [not_not] at definite
  obtain ⟨start, none⟩ := state_of_reads_line noNewline (Machine.reads_of_indeterminate definite)
  have whole (v : Bytes) := Machine.run_append_of_indeterminate definite v
  generalize (parser.run (.start req) (line ++ crlf)).state = p at start none whole
  obtain ⟨state_, r⟩ := p
  simp only at start none
  subst start
  rcases run_headers_respelled letters (Or.inl rfl)
      (rfl : (⟨.headerLineStart, r⟩ : Parsing).respelled = _) with
    ⟨unaccepted, verdict, consumed⟩ | ⟨before, rest, r', rfl, reads⟩
  · apply handling_eq_of_unaccepted <;> rw [parse_eq_run, whole]
    · exact unaccepted
    · rw [parse_eq_run, whole]
      exact verdict
    · rw [parse_eq_run, whole]
      exact congrArg (_ + ·) consumed
  · obtain ⟨lines, headers, shape, linesText⟩ := lines_of_reads (none.trans fresh.headers) reads
    refine absurd ?_ (open_ lines headers rest linesText)
    rw [← shape]
    simp

/-- The case of headers makes no difference to a stream exactly when it begins with no head in which it
    matters. -/
theorem case_law_iff (endpoint : Endpoint) {req : Request} (fresh : req.Fresh) (text : Bytes) :
    CaseLaw endpoint req text ↔ CaseBlind text := by
  constructor
  · intro law line method target params major minor lines headers rest shape requestLine linesText
    subst shape
    exact law.caseless fresh requestLine linesText
  · intro blind text' recased
    cases recased with
    | same => rfl
    | @head line lines lines' rest headers headers' noNewline linesText linesText' letters same =>
        by_cases definite : (parser.run (.start req) (line ++ crlf)).verdict ≠ .indeterminate
        · have cut (lines : Bytes) : line ++ crlf ++ lines ++ crlf ++ rest = line ++ crlf ++
              (lines ++ crlf ++ rest) := by
            simp only [List.append_assoc]
          rw [cut, cut]
          exact handling_append_of_definite endpoint definite _ _
        rw [not_not] at definite
        obtain ⟨method, target, params, major, minor, requestLine⟩ :=
          requestLine_of_reads fresh noNewline (Machine.reads_of_indeterminate definite)
        have caseless := blind _ _ _ _ _ _ _ _ _ rfl requestLine linesText
        rw [caseless.handling_eq endpoint fresh requestLine linesText,
          (caseless.of_sameHeader same).handling_eq endpoint fresh requestLine linesText']
        simp [letters.length]
    | unfinished noNewline letters open_ => exact handling_unfinished endpoint fresh noNewline letters open_

/-- A head with one header. -/
def headWith (line name value rest : Bytes) : Bytes :=
  line ++ crlf ++ (name ++ ':'.toUInt8 :: ' '.toUInt8 :: value ++ crlf) ++ crlf ++ rest

/-- A head with one header line may spell it in two ways. -/
theorem recased_headWith {line n n' v v' rest : Bytes} (noNewline : '\n'.toUInt8 ∉ line) (name : Name n)
    (value : ∀ b ∈ v, isTextByte b = true) (same : SameHeader ⟨n, v⟩ ⟨n', v'⟩) :
    Recased (headWith line n v rest) (headWith line n' v' rest) := by
  have text {n v : Bytes} (name : Name n) (value : ∀ b ∈ v, isTextByte b = true) :
      LinesText (n ++ ':'.toUInt8 :: ' '.toUInt8 :: v ++ crlf) [⟨n, v⟩] := by
    simpa using LinesText.line name value .done .done
  have letters := ((same.name.append (.refl (bytes ": "))).append same.letters).append (.refl crlf)
  refine .head noNewline (text name value)
    (text (same.name.name name) (same.letters.all isTextByte_toupper value)) ?_
    (.cons same .nil)
  simpa [bytes] using letters

theorem case_law_iff_default :
    CaseLaw localEndpoint {} (headWith (bytes "GET / HTTP/1.1") (bytes "cookie") (bytes "a=b") []) ↔
      CaseBlind (headWith (bytes "GET / HTTP/1.1") (bytes "cookie") (bytes "a=b") []) :=
  case_law_iff localEndpoint Request.fresh_default _

/-- A cookie, a body and a closing of the connection that another spelling takes away. -/
theorem case_matters :
    (¬ ∀ text, CaseLaw localEndpoint {} text) ∧
    (Recased (headWith (bytes "GET / HTTP/1.1") (bytes "Cookie") (bytes "a=b") [])
        (headWith (bytes "GET / HTTP/1.1") (bytes "cookie") (bytes "a=b") []) ∧
      handling localEndpoint {} (headWith (bytes "GET / HTTP/1.1") (bytes "Cookie") (bytes "a=b") []) =
        (.handled [⟨bytes "a", bytes "b"⟩] [] [] false, 31) ∧
      handling localEndpoint {} (headWith (bytes "GET / HTTP/1.1") (bytes "cookie") (bytes "a=b") []) =
        (.handled [] [] [] false, 31)) ∧
    (Recased (headWith (bytes "POST / HTTP/1.1") (bytes "Content-Length") (bytes "1") (bytes "a"))
        (headWith (bytes "POST / HTTP/1.1") (bytes "content-length") (bytes "1") (bytes "a")) ∧
      handling localEndpoint {}
        (headWith (bytes "POST / HTTP/1.1") (bytes "Content-Length") (bytes "1") (bytes "a")) =
        (.handled [] [] [] false, 39) ∧
      handling localEndpoint {}
        (headWith (bytes "POST / HTTP/1.1") (bytes "content-length") (bytes "1") (bytes "a")) =
        (.rejected false, 38)) ∧
    (Recased (headWith (bytes "GET / HTTP/1.1") (bytes "Connection") (bytes "close") [])
        (headWith (bytes "GET / HTTP/1.1") (bytes "Connection") (bytes "Close") []) ∧
      handling localEndpoint {} (headWith (bytes "GET / HTTP/1.1") (bytes "Connection") (bytes "close") []) =
        (.handled [] [] [] true, 37) ∧
      handling localEndpoint {} (headWith (bytes "GET / HTTP/1.1") (bytes "Connection") (bytes "Close") []) =
        (.handled [] [] [] false, 37)) := by
  have cookie : Recased (headWith (bytes "GET / HTTP/1.1") (bytes "Cookie") (bytes "a=b") [])
      (headWith (bytes "GET / HTTP/1.1") (bytes "cookie") (bytes "a=b") []) :=
    recased_headWith (by decide) ⟨by decide, by decide +kernel⟩ (by decide +kernel)
      ⟨by decide, by decide, fun _ => rfl⟩
  have length : Recased (headWith (bytes "POST / HTTP/1.1") (bytes "Content-Length") (bytes "1") (bytes "a"))
      (headWith (bytes "POST / HTTP/1.1") (bytes "content-length") (bytes "1") (bytes "a")) :=
    recased_headWith (by decide) ⟨by decide, by decide +kernel⟩ (by decide +kernel)
      ⟨by decide, by decide, fun _ => rfl⟩
  have close : Recased (headWith (bytes "GET / HTTP/1.1") (bytes "Connection") (bytes "close") [])
      (headWith (bytes "GET / HTTP/1.1") (bytes "Connection") (bytes "Close") []) :=
    recased_headWith (by decide) ⟨by decide, by decide +kernel⟩ (by decide +kernel)
      ⟨by decide, by decide, fun other => absurd (by decide) other⟩
  refine ⟨?_, ⟨cookie, by decide +kernel, by decide +kernel⟩, ⟨length, by decide +kernel, by decide +kernel⟩,
    close, by decide +kernel, by decide +kernel⟩
  intro law
  exact absurd (law _ _ cookie) (by decide +kernel)

end Waspp
