/-
Module: Waspp.Proofs.QueryTravel
Layer: Proofs
Purpose: Parameters that travel in a url.  `percent_encode` leaves some marks as they are, and the parser's
  states for a query take token bytes only; the two agree on every byte but the parentheses.  So a list of
  parameters is read back from the url that it is written into exactly when no name and no value has a
  parenthesis.
Imports: Waspp.Proofs.PercentCoding, Waspp.Proofs.RequestGrammar, Waspp.Proofs.ContentFaults
Trusted boundary: none (fully proved)
Main exports: urlRequest, TravelsInUrl, NoParenthesis, queryText_writeParams, travels_in_url_iff
Open obligations: none
-/
import Waspp.Proofs.PercentCoding
import Waspp.Proofs.RequestGrammar
import Waspp.Proofs.ContentFaults

namespace Waspp

open CString Incremental

/-- A GET request with a list of parameters in its url. -/
def urlRequest (params : List NameValue) : Bytes :=
  bytes "GET /?" ++ writeParams params ++ bytes " HTTP/1.1" ++ crlf ++ crlf

/-- `parse` accepts the request, and after `parse_params` it has these parameters. -/
def TravelsInUrl (params : List NameValue) : Prop :=
  ∃ p req, parse (.start {}) (urlRequest params) = ⟨.yes, p, (urlRequest params).length⟩ ∧
    parseParams p.req = .ok req ∧ req.params = params

/-- The text has no parenthesis. -/
def NoParenthesis (text : Bytes) : Prop := '('.toUInt8 ∉ text ∧ ')'.toUInt8 ∉ text

instance (text : Bytes) : Decidable (NoParenthesis text) := inferInstanceAs (Decidable (_ ∧ _))

/-! ### Coded text in a query -/

/-- The bytes that coding leaves or makes are token bytes but for the parentheses. -/
theorem isToken_of_isUnreserved {b : UInt8} (unreserved : isUnreserved b = true ∨ b = '%'.toUInt8)
    (left : b ≠ '('.toUInt8) (right : b ≠ ')'.toUInt8) : isToken b = true ∧ b ≠ '&'.toUInt8 := by
  have all : ∀ b : UInt8, isUnreserved b = true ∨ b = '%'.toUInt8 → b ≠ '('.toUInt8 → b ≠ ')'.toUInt8 →
      isToken b = true ∧ b ≠ '&'.toUInt8 := forall_byte (by decide +kernel)
  exact all b unreserved left right

/-- Coded text without parentheses is text of tokens. -/
theorem isToken_of_mem_percentEncode {text : Bytes} (plain : NoParenthesis text) {b : UInt8}
    (member : b ∈ percentEncode text) : isToken b = true ∧ b ≠ '&'.toUInt8 := by
  have outside {c : UInt8} (absent : c ∉ text) (noDigit : isxdigit c = false) (noPercent : c ≠ '%'.toUInt8) :
      b ≠ c := by
    rintro rfl
    rcases mem_percentEncode_cases member with ⟨inside, -⟩ | percent | ⟨digit, -⟩
    · exact absent inside
    · exact noPercent percent
    · simp [noDigit] at digit
  apply isToken_of_isUnreserved (mem_percentEncode member)
  · exact outside plain.1 (by decide) (by decide)
  · exact outside plain.2 (by decide) (by decide)

/-- Only the empty text is coded to nothing. -/
theorem percentEncode_eq_nil_iff {text : Bytes} : percentEncode text = [] ↔ text = [] := by
  constructor
  · intro empty
    rw [← percentDecode_percentEncode text, empty]
    rfl
  · rintro rfl
    rfl

/-- A coded name without parentheses is a name of the grammar. -/
theorem name_percentEncode {name : Bytes} (nonempty : name ≠ []) (plain : NoParenthesis name) :
    Name (percentEncode name) :=
  ⟨mt percentEncode_eq_nil_iff.mp nonempty, fun _ member => (isToken_of_mem_percentEncode plain member).1⟩

/-- A coded value may stand in a query. -/
theorem paramValue_percentEncode {value : Bytes} (plain : NoParenthesis value) :
    ParamValue (percentEncode value) :=
  ⟨fun _ member => isToken_of_mem_percentEncode plain member⟩

/-- A parameter with its name and its value coded. -/
def codedParam (nv : NameValue) : NameValue :=
  { name := percentEncode nv.name, value := percentEncode nv.value }

/-- A written list is a query of the grammar, with the coded parameters. -/
theorem queryText_writeParams {params : List NameValue} (named : ∀ nv ∈ params, nv.name ≠ [])
    (plain : ∀ nv ∈ params, NoParenthesis nv.name ∧ NoParenthesis nv.value) :
    QueryText (writeParams params) (params.map codedParam) := by
  induction params with
  | nil => exact .done
  | cons nv rest ih =>
      have name : Name (percentEncode nv.name) :=
        name_percentEncode (named nv (by simp)) (plain nv (by simp)).1
      have value : ParamValue (percentEncode nv.value) := paramValue_percentEncode (plain nv (by simp)).2
      cases rest with
      | nil => exact .last name value
      | cons next rest =>
          have tail :=
            ih (fun nv member => named nv (by simp [member])) (fun nv member => plain nv (by simp [member]))
          exact .more name value tail

/-- A parenthesis of a parameter is one of the written list. -/
theorem mem_writeParams {params : List NameValue} {nv : NameValue} (member : nv ∈ params) {b : UInt8}
    (inside : b ∈ percentEncode nv.name ∨ b ∈ percentEncode nv.value) : b ∈ writeParams params := by
  have here : b ∈ writeParam nv := by
    rcases inside with name | value
    · exact List.mem_append_left _ name
    · exact List.mem_append_right _ (List.mem_cons_of_mem _ value)
  induction params with
  | nil => cases member
  | cons first rest ih =>
      cases rest with
      | nil =>
          obtain rfl := List.mem_singleton.mp member
          exact here
      | cons next rest =>
          rcases List.mem_cons.mp member with rfl | later
          · exact List.mem_append_left _ here
          · exact List.mem_append_right _ (List.mem_cons_of_mem _ (ih later))

/-! ### Through `parse`

The parser takes the names and values of a query without decoding them. -/

/-- What `parse` has made of the text before the query. -/
def beforeQuery : Request :=
  { method := bytes "GET", uri := bytes "/?" }

/-- The text in front of the query. -/
theorem reads_beforeQuery : parser.Reads (.start {}) (bytes "GET /?") ⟨.paramNameStart, beforeQuery⟩ := by
  rw [Machine.Reads]
  decide +kernel

/-- A written list has no blank. -/
theorem blank_not_mem_writeParams (params : List NameValue) : ' '.toUInt8 ∉ writeParams params := by
  have coded (text : Bytes) : ' '.toUInt8 ∉ percentEncode text := by
    intro member
    rcases mem_percentEncode member with unreserved | percent
    · exact absurd unreserved (by decide)
    · exact absurd percent (by decide)
  have written (nv : NameValue) : ' '.toUInt8 ∉ writeParam nv := by
    intro member
    rcases List.mem_append.mp member with name | member
    · exact coded _ name
    · rcases List.mem_cons.mp member with equals | value
      · exact absurd equals (by decide)
      · exact coded _ value
  induction params with
  | nil => simp [writeParams]
  | cons nv rest ih =>
      cases rest with
      | nil => exact written nv
      | cons next rest =>
          intro member
          rcases List.mem_append.mp member with here | member
          · exact written nv here
          · rcases List.mem_cons.mp member with and_ | later
            · exact absurd and_ (by decide)
            · exact ih later

/-- A parameter with its name and its value decoded. -/
def decodedParam (nv : NameValue) : NameValue :=
  { name := percentDecode nv.name, value := percentDecode nv.value }

/-- `parse_params` decodes the parameters. -/
theorem parseParams_params {req : Request} (fresh : req.restParams = []) (nonempty : req.uri ≠ []) :
    ∃ req', parseParams req = .ok req' ∧ req'.params = req.params.map decodedParam := by
  rcases (parseParams_ok_iff fresh).mpr nonempty with ⟨req', parsed⟩
  refine ⟨req', parsed, ?_⟩
  unfold parseParams at parsed
  split at parsed
  · cases parsed
  · cases parsed
    rfl

/-- A list of named parameters travels in a url exactly when no name and no value has a parenthesis. -/
theorem travels_in_url_iff {params : List NameValue} (named : ∀ nv ∈ params, nv.name ≠ []) :
    TravelsInUrl params ↔ ∀ nv ∈ params, NoParenthesis nv.name ∧ NoParenthesis nv.value := by
  constructor
  · rintro ⟨p, req, accepted, -, -⟩
    have shape : urlRequest params =
        bytes "GET /?" ++ (writeParams params ++ ' '.toUInt8 :: (bytes "HTTP/1.1" ++ crlf ++ crlf)) := by
      simp [urlRequest, bytes]
    rw [parse_eq_run, shape] at accepted
    obtain ⟨q, _, v, cut, query, -⟩ :=
      (accepts_query_iff _ _ _).mp (reads_beforeQuery.accepts_append_iff.mp accepted)
    have rest : ' '.toUInt8 ∉ bytes "HTTP/1.1" ++ crlf ++ crlf := by decide
    obtain ⟨rfl, -, -⟩ := (List.append_cons_inj_of_notMem (blank_not_mem_writeParams params) rest).mp cut
    have outside {nv : NameValue} (member : nv ∈ params) {b : UInt8} (unreserved : isUnreserved b = true)
        (token : isToken b = false) (equals : b ≠ '='.toUInt8) : b ∉ nv.name ∧ b ∉ nv.value := by
      have absent : b ∉ writeParams params := by
        intro inside
        rcases query.token b inside with isToken | isEquals
        · simp [token] at isToken
        · exact equals isEquals
      constructor
      · exact fun name => absent (mem_writeParams member (.inl (mem_percentEncode_of_mem name unreserved)))
      · exact fun value => absent (mem_writeParams member (.inr (mem_percentEncode_of_mem value unreserved)))
    intro nv member
    have left := outside member (b := '('.toUInt8) (by decide) (by decide) (by decide)
    have right := outside member (b := ')'.toUInt8) (by decide) (by decide) (by decide)
    exact ⟨⟨left.1, right.1⟩, left.2, right.2⟩
  · intro plain
    have target : TargetText (bytes "/?" ++ writeParams params) (params.map codedParam) :=
      .query (p := bytes "/") (by decide +kernel) (queryText_writeParams named plain)
    have text : GetRequest (urlRequest params) (bytes "/?" ++ writeParams params) (params.map codedParam) 1 1
        [] := by
      have digits : Digits (bytes "1") := ⟨by decide, by decide +kernel⟩
      have one : versionNumber (bytes "1") = 1 := by decide
      have request := GetRequest.intro target digits digits .done
      rw [one] at request
      simpa [urlRequest, bytes] using request
    have accepted := (parse_get_iff Request.fresh_default (urlRequest params) (urlRequest params).length
      ⟨.expectingNewline3, _⟩).mpr ⟨Nat.le_refl _, _, _, _, _, _, by rwa [List.take_length], rfl⟩
    obtain ⟨req, parsed, decoded⟩ := @parseParams_params
      (getRequest {} (bytes "/?" ++ writeParams params) (params.map codedParam) 1 1 []) rfl
        (by simp [getRequest, bytes])
    refine ⟨_, req, accepted.1, parsed, ?_⟩
    rw [decoded]
    simp [getRequest, codedParam, decodedParam, Function.comp_def, percentDecode_percentEncode]

/-- A parameter with a blank in its name, and reserved bytes and a byte above 127 in its value. -/
def reservedParam : NameValue :=
  { name := bytes "a b", value := bytes "c&d=" ++ [233] }

/-- Behind it a parameter with an ampersand in its name and without a value. -/
def emptyParam : NameValue :=
  { name := bytes "&", value := [] }

/-- Neither has a parenthesis, and both travel, in their order. -/
theorem travels_in_url_iff_reserved : TravelsInUrl [reservedParam, emptyParam, reservedParam] :=
  (travels_in_url_iff (by decide)).mpr (by decide)

/-- A parameter with parentheses in its value. -/
def parenthesisParam : NameValue :=
  { name := bytes "f", value := bytes "(1)" }

/-- `GET /?f=(1) HTTP/1.1` is what its url is written as, and `parse` refuses it. -/
theorem parenthesis_refused :
    (∀ nv ∈ [parenthesisParam], nv.name ≠ []) ∧ ¬ TravelsInUrl [parenthesisParam] := by
  refine ⟨by decide, ?_⟩
  rintro ⟨p, req, accepted, -, -⟩
  have refused : (parse (.start {}) (urlRequest [parenthesisParam])).verdict = .no := by decide +kernel
  rw [accepted] at refused
  cases refused

end Waspp
