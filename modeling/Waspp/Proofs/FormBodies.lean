/-
Module: Waspp.Proofs.FormBodies
Layer: Proofs
Purpose: Form bodies.  `readForm` says what a form body means, one byte after the other; `parse_content`
  computes it with positions (`parseFormFrom_eq`), and cutting the body at its separators gives the same
  (`formTokens_eq`). A list of parameters is read back from the body it is written into
  (`form_round_trip`), and a query that `parse` accepts means the same as a body exactly when each of its
  pieces between the `&` has an `=` (`query_as_form_iff`).
Imports: Waspp.Foundation.Search, Waspp.Proofs.QueryTravel
Trusted boundary: none (fully proved)
Main exports: Field, readForm, parseFormFrom_eq, FormType, formTokens, parseContent_tokens, form_round_trip,
  query_as_form_iff
Open obligations: none
-/
import Waspp.Foundation.Search
import Waspp.Proofs.QueryTravel

namespace Waspp

open CString Incremental

/-! ### What a form body means

`readForm` reads a body byte by byte: a name up to the equals sign, a value up to the separator.  The names
and values that the parser finds with `find` and cuts with `substr` are compared with it. -/

/-- The field of a form that is being read. -/
inductive Field where
  | name (name : Bytes)
  | value (name value : Bytes)

/-- A field without `=`: nothing when it is empty, else a name with an empty value. -/
def bareField (name : Bytes) : List NameValue :=
  if name = [] then [] else [decodedParam { name := name, value := [] }]

/-- The parameters of a form body.  A field ends at `&`, a value also at `;`; a field without `=` at the end
    of the body is dropped. -/
def readForm : Field → Bytes → List NameValue
  | .name _, [] => []
  | .value name value, [] => [decodedParam { name := name, value := value }]
  | .name name, b :: rest =>
      if b = '&'.toUInt8 then bareField name ++ readForm (.name []) rest
      else if b = '='.toUInt8 then readForm (.value name []) rest
      else readForm (.name (name ++ [b])) rest
  | .value name value, b :: rest =>
      if b = ';'.toUInt8 ∨ b = '&'.toUInt8 then
        decodedParam { name := name, value := value } :: readForm (.name []) rest
      else readForm (.value name (value ++ [b])) rest

/-- A byte that a name runs over. -/
def InName (b : UInt8) : Prop := b ≠ '&'.toUInt8 ∧ b ≠ '='.toUInt8

/-- A byte that a value runs over. -/
def InValue (b : UInt8) : Prop := b ≠ ';'.toUInt8 ∧ b ≠ '&'.toUInt8

instance : DecidablePred InName := fun _ => inferInstanceAs (Decidable (_ ∧ _))

instance : DecidablePred InValue := fun _ => inferInstanceAs (Decidable (_ ∧ _))

/-- Bytes of a name are read into the name. -/
theorem readForm_name_append {piece : Bytes} (inside : ∀ b ∈ piece, InName b) (name rest : Bytes) :
    readForm (.name name) (piece ++ rest) = readForm (.name (name ++ piece)) rest := by
  induction piece generalizing name with
  | nil => simp
  | cons b piece ih =>
      have here := inside b (by simp)
      rw [List.cons_append, readForm, if_neg here.1, if_neg here.2,
        ih (fun c member => inside c (by simp [member])),
        List.append_assoc, List.singleton_append]

/-- Bytes of a value are read into the value. -/
theorem readForm_value_append {piece : Bytes} (inside : ∀ b ∈ piece, InValue b) (name value rest : Bytes) :
    readForm (.value name value) (piece ++ rest) = readForm (.value name (value ++ piece)) rest := by
  induction piece generalizing value with
  | nil => simp
  | cons b piece ih =>
      have here := inside b (by simp)
      rw [List.cons_append, readForm, if_neg (not_or.mpr here),
        ih (fun c member => inside c (by simp [member])),
        List.append_assoc, List.singleton_append]

/-- The end of a form in a name. -/
theorem readForm_name_end {piece : Bytes} (inside : ∀ b ∈ piece, InName b) :
    readForm (.name []) piece = [] := by
  have read := readForm_name_append inside [] []
  rw [List.append_nil] at read
  rw [read, readForm]

/-- A field without `=`, and more. -/
theorem readForm_bare {piece : Bytes} (inside : ∀ b ∈ piece, InName b) (rest : Bytes) :
    readForm (.name []) (piece ++ '&'.toUInt8 :: rest) = bareField piece ++ readForm (.name []) rest := by
  rw [readForm_name_append inside, List.nil_append, readForm, if_pos rfl]

/-- A field with its value at the end of the form. -/
theorem readForm_last {name value : Bytes} (inName : ∀ b ∈ name, InName b)
    (inValue : ∀ b ∈ value, InValue b) :
    readForm (.name []) (name ++ '='.toUInt8 :: value) =
      [decodedParam { name := name, value := value }] := by
  have read := readForm_value_append inValue name [] []
  rw [List.append_nil, List.nil_append] at read
  rw [readForm_name_append inName, List.nil_append, readForm, if_neg (by decide), if_pos rfl, read, readForm]

/-- A field with its value, and more. -/
theorem readForm_more {name value : Bytes} (inName : ∀ b ∈ name, InName b) (inValue : ∀ b ∈ value, InValue b)
    {separator : UInt8} (ends : ¬ InValue separator) (rest : Bytes) :
    readForm (.name []) (name ++ '='.toUInt8 :: value ++ separator :: rest) =
      decodedParam { name := name, value := value } :: readForm (.name []) rest := by
  have between : separator = ';'.toUInt8 ∨ separator = '&'.toUInt8 := by
    simpa [InValue, or_iff_not_imp_left] using ends
  rw [List.append_assoc, readForm_name_append inName, List.nil_append, List.cons_append, readForm,
    if_neg (by decide), if_pos rfl, readForm_value_append inValue, List.nil_append, readForm, if_pos between]

/-! ### What `parse_content` makes of it -/

/-- A parameter is appended as it is decoded. -/
theorem pushParam_params (req : Request) (name value : Bytes) :
    pushParam req (percentDecode name) (percentDecode value) =
      { req with params := req.params ++ [decodedParam { name := name, value := value }] } := rfl

/-- The loop over positions appends what the body means. -/
theorem parseFormFrom_eq {rounds oldPos : Nat} {req : Request} (inside : oldPos ≤ req.content.length)
    (enough : req.content.length < rounds + oldPos) :
    parseFormFrom rounds oldPos req =
      .ok { req with params := req.params ++ readForm (.name []) (req.content.drop oldPos) } := by
  induction rounds generalizing oldPos req with
  | zero => omega
  | succ rounds ih =>
      unfold parseFormFrom
      cases found : findIf req.content (fun b => b == '&'.toUInt8 || b == '='.toUInt8) oldPos with
      | none =>
          have name : ∀ b ∈ req.content.drop oldPos, InName b := by
            simpa [InName] using no_match_of_findIf found
          rw [readForm_name_end name, List.append_nil]
      | some pos =>
          obtain ⟨piece, b, rest, cut, piece_, hit, at_, here, behind⟩ := cut_of_findIf found
          have name : ∀ b ∈ piece, InName b := by simpa [InName] using piece_
          have bound : pos < req.content.length := (List.getElem?_eq_some_iff.mp here).1
          have nameText : substrOrThrow req.content oldPos (sizeSub pos oldPos) = .ok piece :=
            substrOrThrow_piece inside cut at_
          simp only [here]
          by_cases ampersand : b = '&'.toUInt8
          · subst ampersand
            rw [if_pos (by simp), cut, readForm_bare name]
            cases piece with
            | nil =>
                have skipped : oldPos + ((req.content.drop oldPos).takeWhile (· == '&'.toUInt8)).length ≥
                    pos := by
                  simp only [List.length_nil] at at_
                  omega
                rw [← cut]
                simp only [skipped, if_true]
                rw [ih (by omega) (by omega), behind, bareField, if_pos rfl, List.nil_append]
            | cons c piece =>
                have kept : ((req.content.drop oldPos).takeWhile (· == '&'.toUInt8)).length = 0 := by
                  rw [cut, List.cons_append,
                    List.takeWhile_cons_of_neg (by simpa using (name c (by simp)).1), List.length_nil]
                have before : ¬ oldPos ≥ pos := by
                  simp only [List.length_cons] at at_
                  omega
                rw [← cut]
                simp only [kept, Nat.add_zero, before, if_false, nameText]
                rw [bareField, if_neg (by simp), ← behind, ← List.append_assoc]
                exact ih (by simp; omega) (by simp; omega)
          · have equals : b = '='.toUInt8 := by simpa [ampersand] using hit
            subst equals
            rw [if_neg (by simpa using ampersand), cut]
            simp only [nameText]
            cases next : findIf req.content (fun b => b == ';'.toUInt8 || b == '&'.toUInt8) (pos + 1) with
            | none =>
                have value : ∀ b ∈ rest, InValue b := by
                  rw [← behind]
                  simpa [InValue] using no_match_of_findIf next
                rw [readForm_last name value]
                simp only [substrOrThrow_of_le (show pos + 1 ≤ req.content.length by omega), takeCount_none,
                  behind]
                rfl
            | some pos' =>
                obtain ⟨piece', b', rest', cut', piece_', hit', at_', here', behind'⟩ := cut_of_findIf next
                have value : ∀ b ∈ piece', InValue b := by simpa [InValue] using piece_'
                have ends : ¬ InValue b' := by simpa [InValue, or_iff_not_imp_left] using hit'
                have bound' : pos' < req.content.length := (List.getElem?_eq_some_iff.mp here').1
                have valueText : substrOrThrow req.content (pos + 1) (sizeSub pos' (pos + 1)) = .ok piece' :=
                  substrOrThrow_piece (by omega) cut' at_'
                have whole : piece ++ '='.toUInt8 :: rest = piece ++ '='.toUInt8 :: piece' ++
                    b' :: rest' := by
                  rw [← behind, cut', List.append_assoc, List.cons_append]
                rw [whole, readForm_more name value ends]
                simp only [valueText]
                have tail := @ih (pos' + 1) (pushParam req (percentDecode piece) (percentDecode piece'))
                  (by simp; omega) (by simp; omega)
                rw [pushParam_content, behind', pushParam_params, List.append_assoc] at tail
                exact tail

/-! ### Round trips -/

/-- The request is one whose body `parse_content` reads as an urlencoded form: its Content-Type is absent, or
    begins with the standard type in some letter case. -/
def FormType (req : Request) : Prop :=
  let contentType := NameValue.valueOf req.headers (bytes "Content-Type")
  contentType = [] ∨ (contentType.take standardType.length).map toupper = standardType.map toupper

/-- `strings_are_equal` compares the beginning of a text in any case. -/
theorem stringsAreEqual_of_take {text start : Bytes}
    (same : (text.take start.length).map toupper = start.map toupper) :
    stringsAreEqual text start start.length = true := by
  have long : start.length ≤ text.length := by
    have lengths := congrArg List.length same
    simp only [List.length_map, List.length_take] at lengths
    omega
  exact stringsAreEqual_iff.mpr ⟨long, Nat.le_refl _, by rw [List.take_length, same]⟩

/-- `parse_content` appends what the body means. -/
theorem parseContent_form {req : Request} (form : FormType req) :
    ∃ req', parseContent req = .ok req' ∧ req'.params = req.params ++ readForm (.name []) req.content := by
  unfold parseContent
  by_cases empty : req.content = []
  · exact ⟨req, by simp [empty], by simp [empty, readForm]⟩
  · have standard : ((req.header (bytes "Content-Type")).1.isEmpty ||
        stringsAreEqual (req.header (bytes "Content-Type")).1 standardType standardType.length) = true := by
      rcases form with absent | same
      · simp [Request.header, absent]
      · simp [Request.header, stringsAreEqual_of_take same]
    have read := @parseFormFrom_eq (req.content.length + 1) 0 (req.header (bytes "Content-Type")).2
      (Nat.zero_le _) (Nat.lt_succ_self _)
    simp only [List.isEmpty_iff, empty, if_false, standard, if_true]
    exact ⟨_, read, rfl⟩

/-! ### The tokens of a form body

The loop as a function of the bytes alone: it takes the tokens in turn, and each step uses up at least one
byte, so the rounds it has are enough. -/

/-- The parameters of a form body, cut at its separators: a leading `&` is dropped; otherwise the first `&`
    or `=` ends a name, at `&` the value is empty, and at `=` it reaches up to the next `;` or `&` or the
    end. -/
def formTokens : Bytes → List NameValue
  | [] => []
  | b :: rest =>
      if b = '&'.toUInt8 then formTokens rest
      else
        let name := (b :: rest).takeWhile (InName ·)
        match _cut : (b :: rest).dropWhile (InName ·) with
        | [] => []
        | separator :: behind =>
            if separator = '&'.toUInt8 then { name := percentDecode name, value := [] } :: formTokens behind
            else
              let value := behind.takeWhile (InValue ·)
              let after := behind.dropWhile (InValue ·)
              { name := percentDecode name, value := percentDecode value } :: formTokens after.tail
termination_by content => content.length
decreasing_by
  · simp
  all_goals
    have shorter := (List.dropWhile_suffix (decide <| InName ·) (l := b :: rest)).length_le
    rw [_cut] at shorter
    simp only [List.length_cons] at shorter ⊢
  · omega
  · have shorter' := (List.dropWhile_suffix (decide <| InValue ·) (l := behind)).length_le
    simp only [List.length_tail]
    omega

/-- A text is what its predicate takes, and behind it a byte that it does not take. -/
theorem cut_of_dropWhile {p : UInt8 → Bool} {text rest : Bytes} {b : UInt8}
    (cut : text.dropWhile p = b :: rest) :
    text = text.takeWhile p ++ b :: rest ∧ p b = false := by
  have split := List.takeWhile_append_dropWhile (p := p) (l := text)
  have head := List.head?_dropWhile_not p text
  rw [cut] at split head
  exact ⟨split.symm, by simpa using head⟩

/-- What drops nothing is taken whole. -/
theorem whole_of_dropWhile {p : UInt8 → Bool} {text : Bytes} (cut : text.dropWhile p = []) :
    text.takeWhile p = text := by
  have split := List.takeWhile_append_dropWhile (p := p) (l := text)
  rwa [cut, List.append_nil] at split

/-- Cutting at the separators gives what the body means. -/
theorem formTokens_eq (content : Bytes) : formTokens content = readForm (.name []) content := by
  have inName (text : Bytes) : ∀ b ∈ text.takeWhile (InName ·), InName b :=
    fun b member => of_decide_eq_true (List.all_eq_true.mp List.all_takeWhile b member)
  have inValue (text : Bytes) : ∀ b ∈ text.takeWhile (InValue ·), InValue b :=
    fun b member => of_decide_eq_true (List.all_eq_true.mp List.all_takeWhile b member)
  fun_induction formTokens content with
  | case1 => rfl
  | case2 rest ih => rw [ih, readForm, if_pos rfl, bareField, if_pos rfl, List.nil_append]
  | case3 b rest other cut =>
      rw [← whole_of_dropWhile cut, readForm_name_end (inName _)]
  | case4 b rest other name behind cut ih =>
      obtain ⟨whole, -⟩ := cut_of_dropWhile cut
      -- The first byte is no `&`, so the name is not empty.
      have nonempty : name ≠ [] := by
        intro empty
        rw [show (b :: rest).takeWhile (InName ·) = [] from empty] at whole
        exact other (List.cons.inj whole).1
      rw [whole, readForm_bare (inName _), bareField, if_neg nonempty, ih]
      rfl
  | case5 b rest other name separator behind cut noAmpersand value after ih =>
      obtain ⟨whole, ends⟩ := cut_of_dropWhile cut
      have equals : separator = '='.toUInt8 := by simpa [InName, noAmpersand] using ends
      subst equals
      have split : value ++ after = behind := List.takeWhile_append_dropWhile
      rw [whole, ih, ← split]
      cases cut' : after with
      | nil =>
          rw [List.append_nil, readForm_last (inName _) (inValue behind)]
          rfl
      | cons separator' behind' =>
          have ends' : ¬ InValue separator' := by simpa using (cut_of_dropWhile cut').2
          rw [← List.cons_append, ← List.append_assoc, readForm_more (inName _) (inValue behind) ends']
          rfl

/-- `parse_content` returns on every urlencoded body and appends its tokens. -/
theorem parseContent_tokens {req : Request} (form : FormType req) :
    ∃ req', parseContent req = .ok req' ∧ req'.params = req.params ++ formTokens req.content := by
  rw [formTokens_eq]
  exact parseContent_form form

/-- A body with runs of separators at its start, inside and at its end. -/
def separatorsRequest : Request :=
  { headers := [{ name := bytes "Content-Type", value := standardType }]
    content := bytes "&&a&=;b=1;&+c=2=3&d" }

theorem parseContent_tokens_separators :
    ∃ req', parseContent separatorsRequest = .ok req' ∧ req'.params =
      [{ name := bytes "a", value := [] }, { name := [], value := [] },
        { name := bytes "b", value := bytes "1" }, { name := bytes " c", value := bytes "2=3" }] := by
  obtain ⟨req', parsed, appended⟩ := @parseContent_tokens separatorsRequest (Or.inr (by decide +kernel))
  rw [formTokens_eq] at appended
  exact ⟨req', parsed, appended.trans (by decide +kernel)⟩

/-- The bytes of coded text belong to no separator. -/
theorem inField_of_mem_percentEncode {text : Bytes} {b : UInt8} (member : b ∈ percentEncode text) :
    InName b ∧ InValue b := by
  have all : ∀ b : UInt8, isUnreserved b = true ∨ b = '%'.toUInt8 →
      (b ≠ '&'.toUInt8 ∧ b ≠ '='.toUInt8) ∧ b ≠ ';'.toUInt8 ∧ b ≠ '&'.toUInt8 :=
      forall_byte (by decide +kernel)
  exact all b (mem_percentEncode member)

/-- A coded parameter is decoded to itself. -/
theorem decodedParam_codedParam (nv : NameValue) : decodedParam (codedParam nv) = nv := by
  simp [codedParam, decodedParam, percentDecode_percentEncode]

/-- A written list means the list. -/
theorem readForm_writeParams (params : List NameValue) :
    readForm (.name []) (writeParams params) = params := by
  have name (nv : NameValue) : ∀ b ∈ percentEncode nv.name, InName b :=
    fun _ member => (inField_of_mem_percentEncode member).1
  have value (nv : NameValue) : ∀ b ∈ percentEncode nv.value, InValue b :=
    fun _ member => (inField_of_mem_percentEncode member).2
  induction params with
  | nil => rfl
  | cons nv rest ih =>
      cases rest with
      | nil =>
          have last := readForm_last (name nv) (value nv)
          rwa [show decodedParam { name := percentEncode nv.name, value := percentEncode nv.value } = nv
            from decodedParam_codedParam nv] at last
      | cons next rest =>
          have ends : ¬ InValue '&'.toUInt8 := by simp [InValue]
          have more := readForm_more (name nv) (value nv) ends (writeParams (next :: rest))
          rw [ih, show decodedParam { name := percentEncode nv.name, value := percentEncode nv.value } = nv
            from decodedParam_codedParam nv] at more
          exact more

/-- `parse_content` appends to the parameters exactly the list that its body was written from. -/
theorem form_round_trip (params : List NameValue) {req : Request} (form : FormType req)
    (content : req.content = writeParams params) :
    ∃ req', parseContent req = .ok req' ∧ req'.params = req.params ++ params := by
  obtain ⟨req', parsed, appended⟩ := parseContent_form form
  rw [content, readForm_writeParams] at appended
  exact ⟨req', parsed, appended⟩

/-- A request with a parameter, whose body is an empty pair and a pair of reserved bytes. -/
def formRequest : Request :=
  { headers :=
    [{ name := bytes "Content-Type", value := bytes "Application/X-WWW-Form-urlencoded; charset=utf-8" }]
    params := [{ name := bytes "k", value := bytes "v" }]
    content := bytes "=&a%20b=%26%3D" }

theorem form_round_trip_reserved :
    ∃ req', parseContent formRequest = .ok req' ∧ req'.params =
      formRequest.params ++ [{ name := [], value := [] }, { name := bytes "a b", value := bytes "&=" }] :=
  form_round_trip [{ name := [], value := [] }, { name := bytes "a b", value := bytes "&=" }]
    (Or.inr (by decide +kernel)) (by decide +kernel)

/-! ### Queries as form bodies

The parser cuts a query in its states, `parse_content` cuts a body with `find`.  Both give the same
parameters when each piece of the query has its equals sign. -/

/-- The value of a field, wherever it ends, comes with the field's name. -/
theorem readForm_value_head (name value rest : Bytes) :
    ∃ nv more, readForm (.value name value) rest = nv :: more ∧ nv.name = percentDecode name := by
  induction rest generalizing value with
  | nil => exact ⟨_, _, by rw [readForm], rfl⟩
  | cons b rest ih =>
      rw [readForm]
      split
      · exact ⟨_, _, rfl, rfl⟩
      · exact ih _

/-- What may stand behind the name of a query: nothing, or `=` and more. -/
def AfterName (rest : Bytes) : Prop := rest = [] ∨ ∃ more, rest = '='.toUInt8 :: more

/-- A name without separators is read as one. -/
theorem inName_of_name {name : Bytes} (noEquals : '='.toUInt8 ∉ name) (noAmpersand : '&'.toUInt8 ∉ name) :
    ∀ b ∈ name, InName b := by
  intro b member
  exact ⟨fun same => noAmpersand (same ▸ member), fun same => noEquals (same ▸ member)⟩

/-- As a form, a name with `&` in it does not begin with a field of that name: the first field is shorter. -/
theorem head_of_readForm_lt {name rest : Bytes} (noEquals : '='.toUInt8 ∉ name)
    (ampersand : '&'.toUInt8 ∈ name) (after : AfterName rest) :
    ∀ nv ∈ (readForm (.name []) (name ++ rest)).head?, nv.name.length < (percentDecode name).length := by
  induction len : name.length using Nat.strongRecOn generalizing name with
  | _ k ih =>
      obtain ⟨piece, later, rfl, absent⟩ := List.eq_append_cons_of_mem ampersand
      have inside : ∀ b ∈ piece, InName b :=
        inName_of_name (fun member => noEquals (List.mem_append_left _ member)) absent
      have noEquals' : '='.toUInt8 ∉ later :=
        fun member => noEquals (List.mem_append_right _ (List.mem_cons_of_mem _ member))
      have longer : (percentDecode (piece ++ '&'.toUInt8 :: later)).length =
          (percentDecode piece).length + (percentDecode later).length + 1 := by
        rw [percentDecode_append_stop (by decide) (by decide) (by decide)]
        simp
        omega
      rw [longer, List.append_assoc, List.cons_append, readForm_bare inside, bareField]
      intro nv head
      split at head
      · by_cases again : '&'.toUInt8 ∈ later
        · have shorter := ih later.length (by rw [← len]; simp; omega) noEquals' again rfl nv
              (by simpa using head)
          omega
        · have name' : ∀ b ∈ later, InName b := inName_of_name noEquals' again
          rcases after with rfl | ⟨more, rfl⟩
          · rw [List.append_nil, readForm_name_end name'] at head
            simp at head
          · rw [readForm_name_append name', List.nil_append, List.nil_append, readForm, if_neg (by decide),
              if_pos rfl] at head
            obtain ⟨first, others, read, same⟩ := readForm_value_head later [] more
            rw [read] at head
            obtain rfl := Option.mem_some.mp head
            rw [same]
            omega
      · obtain rfl := Option.mem_some.mp head
        change (percentDecode piece).length < _
        omega

/-- Every piece of the text between the `&` has an `=`; behind a last `&` there may be nothing. -/
def PiecesHaveEquals (q : Bytes) : Prop := ∀ piece ∈ split q '&'.toUInt8 [], '='.toUInt8 ∈ piece

/-- A name of a query has no equals sign. -/
theorem Name.noEquals {n : Bytes} (name : Name n) : '='.toUInt8 ∉ n :=
  fun member => absurd (name.token _ member) (by decide)

/-- With a `&` in its name, the first parameter is not read as such, and there is a piece without `=`. -/
theorem not_same_of_ampersand {n rest : Bytes} (name : Name n) (ampersand : '&'.toUInt8 ∈ n)
    (after : AfterName rest) (value : Bytes) (params : List NameValue) :
    readForm (.name []) (n ++ rest) ≠ decodedParam { name := n, value := value } :: params ∧
      ¬ PiecesHaveEquals (n ++ rest) := by
  constructor
  · intro same
    have shorter :=
      head_of_readForm_lt name.noEquals ampersand after (decodedParam { name := n, value := value })
      (by rw [same]; rfl)
    exact Nat.lt_irrefl _ shorter
  · intro pieces
    obtain ⟨piece, later, rfl, absent⟩ := List.eq_append_cons_of_mem ampersand
    rw [PiecesHaveEquals, split, List.nil_append, List.append_assoc, List.cons_append,
      splitFrom_append absent] at pieces
    exact name.noEquals (List.mem_append_left _ (pieces piece (by simp)))

/-- Behind a pair, the rest decides. -/
theorem piecesHaveEquals_pair_iff {n v : Bytes} (name : '&'.toUInt8 ∉ n) (value : '&'.toUInt8 ∉ v)
    (rest : Bytes) :
    PiecesHaveEquals (n ++ '='.toUInt8 :: v) ∧
      (PiecesHaveEquals (n ++ '='.toUInt8 :: v ++ '&'.toUInt8 :: rest) ↔ PiecesHaveEquals rest) := by
  have absent : '&'.toUInt8 ∉ n ++ '='.toUInt8 :: v := by
    intro member
    rcases List.mem_append.mp member with inName | member
    · exact name inName
    · rcases List.mem_cons.mp member with equals | inValue
      · exact absurd equals (by decide)
      · exact value inValue
  constructor
  · rw [PiecesHaveEquals, split, List.nil_append, splitFrom_single absent (by simp)]
    simp
  · rw [PiecesHaveEquals, split, List.nil_append, splitFrom_append absent]
    simp [PiecesHaveEquals, split]

/-- A query means the same as a form exactly when each of its pieces has an `=`. -/
theorem readForm_query_iff {q : Bytes} {params : List NameValue} (query : QueryText q params) :
    readForm (.name []) q = params.map decodedParam ↔ PiecesHaveEquals q := by
  have pair {v : Bytes} (value : ParamValue v) : '&'.toUInt8 ∉ v ∧ ∀ b ∈ v, InValue b := by
    constructor
    · exact fun member => (value.token _ member).2 rfl
    · exact fun b member => ⟨ne_of_isToken (value.token b member).1 (by decide), (value.token b member).2⟩
  induction query with
  | done => simp [readForm, PiecesHaveEquals, split, splitFrom]
  | @bare n name =>
      by_cases ampersand : '&'.toUInt8 ∈ n
      · have different := not_same_of_ampersand name ampersand (.inl rfl) [] []
        rw [List.append_nil] at different
        exact iff_of_false different.1 different.2
      · apply iff_of_false
        · rw [readForm_name_end (inName_of_name name.noEquals ampersand)]
          simp
        · rw [PiecesHaveEquals, split, List.nil_append,
            splitFrom_single ampersand (by simpa using name.nonempty)]
          simpa using name.noEquals
  | @last n v name value =>
      by_cases ampersand : '&'.toUInt8 ∈ n
      · have different := not_same_of_ampersand name ampersand (.inr ⟨v, rfl⟩) v []
        exact iff_of_false different.1 different.2
      · have read := readForm_last (inName_of_name name.noEquals ampersand) (pair value).2
        exact iff_of_true read (piecesHaveEquals_pair_iff ampersand (pair value).1 []).1
  | @more n v rest params name value _ ih =>
      by_cases ampersand : '&'.toUInt8 ∈ n
      · have different := not_same_of_ampersand name ampersand (.inr ⟨v ++ '&'.toUInt8 :: rest, rfl⟩) v
          (params.map decodedParam)
        simp only [List.append_assoc, List.cons_append]
        exact iff_of_false different.1 different.2
      · have ends : ¬ InValue '&'.toUInt8 := by simp [InValue]
        rw [readForm_more (inName_of_name name.noEquals ampersand) (pair value).2 ends, List.map_cons,
          List.cons_inj_right]
        exact ih.trans (piecesHaveEquals_pair_iff ampersand (pair value).1 rest).2.symm

/-- The target of a request is a target text. -/
theorem GetRequest.targetText {text target : Bytes} {params headers : List NameValue} {major minor : Int}
    (request : GetRequest text target params major minor headers) : TargetText target params := by
  cases request with
  | intro targetText _ _ _ => exact targetText

/-- What follows the `?` of a target is its query. -/
theorem TargetText.queryText {target q : Bytes} {params : List NameValue} (text : TargetText target params)
    (shape : target = '/'.toUInt8 :: '?'.toUInt8 :: q) : QueryText q params := by
  cases text with
  | path path =>
      subst shape
      exact absurd (path '?'.toUInt8 (by simp)) (by decide)
  | @query before q' _ path query =>
      cases before with
      | nil => exact absurd (List.cons.inj shape).1 (by decide)
      | cons a before =>
          obtain ⟨-, shape⟩ := List.cons.inj shape
          cases before with
          | nil =>
              obtain ⟨-, rfl⟩ := List.cons.inj shape
              exact query
          | cons b before =>
              obtain ⟨rfl, -⟩ := List.cons.inj shape
              exact absurd (path '?'.toUInt8 (by simp)) (by decide)

/-- The parameters that `parse_params` makes of a request's query are those that `parse_content` appends to
    another request. -/
def SameAsForm (queryReq formReq : Request) : Prop :=
  ∃ req req', parseParams queryReq = .ok req ∧ parseContent formReq = .ok req' ∧
    req'.params = formReq.params ++ req.params

/-- A query of a GET request that `parse` accepts means the same as a form body exactly when each of its
    pieces between the `&` has an `=`. -/
theorem query_as_form_iff {text q : Bytes} {p : Parsing} {n : Nat} {formReq : Request}
    (accepted : parse (.start {}) text = ⟨.yes, p, n⟩) (get : p.req.method = bytes "GET")
    (target : p.req.uri = bytes "/?" ++ q) (form : FormType formReq) (content : formReq.content = q) :
    SameAsForm p.req formReq ↔ PiecesHaveEquals q := by
  obtain ⟨-, target', params, major, minor, headers, request, rfl⟩ :=
    (parse_get_iff Request.fresh_default text n p).mp ⟨accepted, get⟩
  have query : QueryText q params := request.targetText.queryText target
  obtain ⟨req, parsed, decoded⟩ := @parseParams_params (getRequest {} target' params major minor headers) rfl
    (by rw [target]; simp [bytes])
  obtain ⟨req', read, appended⟩ := parseContent_form form
  rw [content] at appended
  have same : SameAsForm (getRequest {} target' params major minor headers) formReq ↔
      readForm (.name []) q = params.map decodedParam := by
    constructor
    · rintro ⟨r, r', parsed', read', equal⟩
      rw [parsed] at parsed'
      rw [read] at read'
      cases parsed'
      cases read'
      rw [appended, decoded, List.append_cancel_left_eq] at equal
      exact equal
    · intro equal
      exact ⟨req, req', parsed, read, by rw [appended, equal, decoded]; rfl⟩
  exact same.trans (readForm_query_iff query)

/-- A form request with this body. -/
def formWith (q : Bytes) : Request :=
  { headers := [{ name := bytes "Content-Type", value := standardType }]
    content := q }

/-- A GET request with this query, and what the parser makes of it. -/
def getWith (q : Bytes) : Bytes := bytes "GET /?" ++ q ++ bytes " HTTP/1.1\r\n\r\n"

theorem query_as_form_iff_pairs :
    SameAsForm (parse (.start {}) (getWith (bytes "a=1&b=+%41&"))).state.req
      (formWith (bytes "a=1&b=+%41&")) ↔ PiecesHaveEquals (bytes "a=1&b=+%41&") := by
  have accepted : parse (.start {}) (getWith (bytes "a=1&b=+%41&")) =
      ⟨.yes, (parse (.start {}) (getWith (bytes "a=1&b=+%41&"))).state, 30⟩ := by
    decide +kernel
  exact query_as_form_iff accepted (by decide +kernel) (by decide +kernel) (Or.inr (by decide +kernel)) rfl

/-- `a=1&b` has two parameters as a query and one as a form, and `a&b=1` has one parameter of the name `a&b`
    as a query and two as a form. -/
theorem queries_not_as_forms :
    ((parse (.start {}) (getWith (bytes "a=1&b"))).verdict = .yes ∧
      ¬ SameAsForm (parse (.start {}) (getWith (bytes "a=1&b"))).state.req (formWith (bytes "a=1&b"))) ∧
    (parse (.start {}) (getWith (bytes "a&b=1"))).verdict = .yes ∧
      ¬ SameAsForm (parse (.start {}) (getWith (bytes "a&b=1"))).state.req (formWith (bytes "a&b=1")) := by
  have different (q : Bytes)
      (unequal : ∀ req ∈ (parseParams (parse (.start {}) (getWith q)).state.req).toOption,
      ∀ req' ∈ (parseContent (formWith q)).toOption, req'.params ≠ req.params) :
      ¬ SameAsForm (parse (.start {}) (getWith q)).state.req (formWith q) := by
    rintro ⟨req, req', parsed, read, equal⟩
    exact unequal req (by rw [parsed]; rfl) req' (by rw [read]; rfl) equal
  refine ⟨⟨by decide +kernel, different _ (by decide +kernel)⟩, by decide +kernel,
    different _ (by decide +kernel)⟩

end Waspp
