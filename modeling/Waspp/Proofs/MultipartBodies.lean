/-
Module: Waspp.Proofs.MultipartBodies
Layer: Proofs
Purpose: Multipart bodies.  `writeParts` writes a list of fields and uploads between the delimiters of a
  boundary; `multipart_round_trip` says that `parse_content` appends exactly the list.  Each search of the
  decoder hits the end of the piece it is meant for: the delimiter starts nowhere inside a part, the
  opening separator is not part of the closing one, and each key of a part's header occurs first where it
  was written.
Imports: Waspp.Foundation.Search, Waspp.Proofs.PercentCoding, Waspp.Proofs.ContentFaults
Trusted boundary: none (fully proved)
Main exports: FormPart, writeParts, BoundaryOk, FormPart.Fine, parsePartsFrom_writeParts,
  multipart_round_trip
Open obligations: none
-/
import Waspp.Foundation.Search
import Waspp.Proofs.PercentCoding
import Waspp.Proofs.ContentFaults

namespace Waspp

open CString

/-! ### Writing a list of parts -/

/-- A part of a form: a field, or a file. -/
inductive FormPart where
  | field (name value : Bytes)
  | upload (name filename filetype value : Bytes)

namespace FormPart

/-- The header of a part, before the blank line. -/
def head : FormPart → Bytes
  | .field name _ => bytes "Content-Disposition: form-data; name=\"" ++ name ++ bytes "\""
  | .upload name filename filetype _ =>
      bytes "Content-Disposition: form-data; name=\"" ++ name ++ bytes "\"; filename=\"" ++
        percentEncode filename ++ bytes "\"\r\nContent-Type: " ++ filetype

def value : FormPart → Bytes
  | .field _ value => value
  | .upload _ _ _ value => value

/-- What stands between two delimiters, without the line end of the first. -/
def data (part : FormPart) : Bytes := part.head ++ headEnd ++ part.value ++ bytes "\r\n"

/-- The request with the part's entry. -/
def addTo (req : Request) : FormPart → Request
  | .field name value => pushParam req name value
  | .upload name filename filetype value =>
      { req with
        uploads := req.uploads ++
        [{ name := name, filename := filename, filetype := filetype, data := value }] }

def param? : FormPart → Option NameValue
  | .field name value => some { name := name, value := value }
  | .upload .. => none

def upload? : FormPart → Option MultipartContent
  | .field .. => none
  | .upload name filename filetype value =>
      some { name := name, filename := filename, filetype := filetype, data := value }

end FormPart

/-- The delimiter of a boundary. -/
def delimiter (b : Bytes) : Bytes := bytes "--" ++ b

/-- A body: each part behind its delimiter, and the closing delimiter. -/
def writeParts (b : Bytes) : List FormPart → Bytes
  | [] => delimiter b ++ bytes "--\r\n"
  | part :: rest => delimiter b ++ bytes "\r\n" ++ part.data ++ writeParts b rest

/-- A boundary that the Content-Type can carry, with a byte other than `-`. -/
structure BoundaryOk (b : Bytes) : Prop where
  nonempty : b ≠ []
  noReturn : '\r'.toUInt8 ∉ b
  noNewline : '\n'.toUInt8 ∉ b
  noSemicolon : ';'.toUInt8 ∉ b
  noQuote : '"'.toUInt8 ∉ b
  notDashes : ∃ c ∈ b, c ≠ '-'.toUInt8

/-- A name that a part's header can carry. -/
structure PartName (b name : Bytes) : Prop where
  noQuote : '"'.toUInt8 ∉ name
  noReturn : '\r'.toUInt8 ∉ name
  noNewline : '\n'.toUInt8 ∉ name
  noEquals : '='.toUInt8 ∉ name
  noColon : ':'.toUInt8 ∉ name
  noDelimiter : ¬ delimiter b <:+: name

/-- A file type that a part's header can carry. -/
structure PartType (b filetype : Bytes) : Prop where
  noReturn : '\r'.toUInt8 ∉ filetype
  noNewline : '\n'.toUInt8 ∉ filetype
  noDelimiter : ¬ delimiter b <:+: filetype

/-- A part that can be written under the boundary: no piece of it has the delimiter. -/
inductive FormPart.Fine (b : Bytes) : FormPart → Prop where
  | field {name value : Bytes} (named : PartName b name) (clean : ¬ delimiter b <:+: value) :
      Fine b (.field name value)
  | upload {name filename filetype value : Bytes} (named : PartName b name) (nonempty : filename ≠ [])
      (typed : PartType b filetype) (cleanName : ¬ delimiter b <:+: percentEncode filename)
      (clean : ¬ delimiter b <:+: value) : Fine b (.upload name filename filetype value)

@[simp] theorem FormPart.addTo_content (part : FormPart) (req : Request) :
    (part.addTo req).content = req.content := by
  cases part with
  | field => rfl
  | upload => rfl

/-! ### The delimiters

What the two delimiters and the end of a head look like, byte by byte, so that a text without one of their
bytes cannot contain them. -/

/-- A line end, byte by byte. -/
theorem crlf_eq : bytes "\r\n" = ['\r'.toUInt8, '\n'.toUInt8] := rfl

/-- The end of a head, byte by byte. -/
theorem headEnd_eq : headEnd = ['\r'.toUInt8, '\n'.toUInt8, '\r'.toUInt8, '\n'.toUInt8] := rfl

/-- A delimiter, byte by byte. -/
theorem delimiter_eq (b : Bytes) : delimiter b = '-'.toUInt8 :: '-'.toUInt8 :: b := rfl

/-- A delimiter has no bytes but its hyphens and the boundary's. -/
theorem notMem_delimiter {b : Bytes} {c : UInt8} (absent : c ∉ b) (other : c ≠ '-'.toUInt8) :
    c ∉ delimiter b := by
  simp [delimiter_eq, absent, other]

/-- A delimiter has no carriage return. -/
theorem BoundaryOk.noReturn_delimiter {b : Bytes} (ok : BoundaryOk b) : '\r'.toUInt8 ∉ delimiter b :=
  notMem_delimiter ok.noReturn (by decide)

/-- Nor a newline. -/
theorem BoundaryOk.noNewline_delimiter {b : Bytes} (ok : BoundaryOk b) : '\n'.toUInt8 ∉ delimiter b :=
  notMem_delimiter ok.noNewline (by decide)

/-- Nor a quote. -/
theorem BoundaryOk.noQuote_delimiter {b : Bytes} (ok : BoundaryOk b) : '"'.toUInt8 ∉ delimiter b :=
  notMem_delimiter ok.noQuote (by decide)

/-- The empty text has no delimiter. -/
theorem not_delimiter_isInfix_nil (b : Bytes) : ¬ delimiter b <:+: [] := by
  simp [delimiter_eq]

/-- A text that two equal letters can be moved along has no other letter. -/
theorem eq_of_shift {a : UInt8} : ∀ {text : Bytes}, a :: a :: text = text ++ [a, a] → ∀ c ∈ text, c = a
  | [], _ => by simp
  | [c], shifted => by
      obtain ⟨same, -⟩ := List.cons.inj shifted
      simp [same]
  | c :: d :: text, shifted => by
      obtain ⟨rfl, shifted⟩ := List.cons.inj shifted
      obtain ⟨rfl, shifted⟩ := List.cons.inj shifted
      have rest := eq_of_shift shifted
      simpa using rest

/-- The opening separator is no part of the closing one. -/
theorem BoundaryOk.not_separator_isInfix {b : Bytes} (ok : BoundaryOk b) :
    ¬ delimiter b ++ bytes "\r\n" <:+: delimiter b ++ bytes "--\r\n" := by
  intro occurs
  obtain ⟨front, after, cut⟩ := occurs
  have noReturn' : '\r'.toUInt8 ∉ delimiter b ++ bytes "--" := by
    simpa [show '\r'.toUInt8 ∉ bytes "--" by decide] using ok.noReturn_delimiter
  have shape : (delimiter b ++ bytes "--") ++ '\r'.toUInt8 :: ['\n'.toUInt8] =
      (front ++ delimiter b) ++ '\r'.toUInt8 :: ('\n'.toUInt8 :: after) := by
    calc (delimiter b ++ bytes "--") ++ '\r'.toUInt8 :: ['\n'.toUInt8]
        = delimiter b ++ bytes "--\r\n" := List.append_assoc ..
      _ = front ++ (delimiter b ++ bytes "\r\n") ++ after := cut.symm
      _ = (front ++ delimiter b) ++ '\r'.toUInt8 :: ('\n'.toUInt8 :: after) := by simp [crlf_eq]
  obtain ⟨same, -, -⟩ := (List.append_cons_inj_of_notMem noReturn' (by decide)).mp shape
  -- the delimiter is moved by two bytes, so it is dashes only
  have two : front.length = 2 := by
    have lengths := congrArg List.length same
    simp only [List.length_append] at lengths
    have width : (bytes "--").length = 2 := by decide
    omega
  have shifted : '-'.toUInt8 :: '-'.toUInt8 :: b = b ++ ['-'.toUInt8, '-'.toUInt8] := by
    have rest := congrArg (List.drop 2) same
    rw [List.drop_left' two] at rest
    exact rest.symm
  obtain ⟨c, member, other⟩ := ok.notDashes
  exact other (eq_of_shift shifted c member)

/-- The header of a part has no delimiter. -/
theorem FormPart.Fine.head_clean {b : Bytes} (ok : BoundaryOk b) {part : FormPart} (fine : part.Fine b) :
    ¬ delimiter b <:+: part.head := by
  have noQuote := ok.noQuote_delimiter
  have noReturn := ok.noReturn_delimiter
  have noNewline := ok.noNewline_delimiter
  have start : NoStart (bytes "--") (bytes "Content-Disposition: form-data; name=\"") :=
    noStart_of_tails (by decide)
  intro occurs
  cases fine with
  | field named clean =>
      rw [FormPart.head, List.append_assoc] at occurs
      rcases isInfix_of_notMem noQuote (isInfix_of_noStart start occurs) with inName | behind
      · exact named.noDelimiter inName
      · exact not_delimiter_isInfix_nil b behind
  | upload named nonempty typed cleanName clean =>
      rename_i name filename filetype value
      have between : NoStart (bytes "--") (bytes "; filename=\"") := noStart_of_tails (by decide)
      have line : NoStart (bytes "--") (bytes "Content-Type: ") := noStart_of_tails (by decide)
      have shape : FormPart.head (.upload name filename filetype value) =
          bytes "Content-Disposition: form-data; name=\"" ++
          (name ++ '"'.toUInt8 :: (bytes "; filename=\"" ++
            (percentEncode filename ++ '"'.toUInt8 :: ([] ++ '\r'.toUInt8 :: ([] ++ '\n'.toUInt8 ::
              (bytes "Content-Type: " ++ filetype)))))) := by
        rw [FormPart.head, show bytes "\"; filename=\"" = '"'.toUInt8 :: bytes "; filename=\"" by decide,
          show bytes "\"\r\nContent-Type: " = '"'.toUInt8 :: '\r'.toUInt8 :: '\n'.toUInt8 ::
          bytes "Content-Type: "
            by decide]
        simp
      rw [shape] at occurs
      rcases isInfix_of_notMem noQuote (isInfix_of_noStart start occurs) with inName | occurs
      · exact named.noDelimiter inName
      rcases isInfix_of_notMem noQuote (isInfix_of_noStart between occurs) with inFilename | occurs
      · exact cleanName inFilename
      rcases isInfix_of_notMem noReturn occurs with empty | occurs
      · exact not_delimiter_isInfix_nil b empty
      rcases isInfix_of_notMem noNewline occurs with empty | occurs
      · exact not_delimiter_isInfix_nil b empty
      exact typed.noDelimiter (isInfix_of_noStart line occurs)

/-- A fine part has no delimiter in its value. -/
theorem FormPart.Fine.value_clean {b : Bytes} {part : FormPart} (fine : part.Fine b) :
    ¬ delimiter b <:+: part.value := by
  cases fine with
  | field named clean => exact clean
  | upload named nonempty typed cleanName clean => exact clean

/-- No delimiter starts inside a part. -/
theorem FormPart.Fine.endsPiece {b : Bytes} (ok : BoundaryOk b) {part : FormPart} (fine : part.Fine b) :
    EndsPiece (delimiter b) part.data := by
  have noReturn := ok.noReturn_delimiter
  have noNewline := ok.noNewline_delimiter
  have shape : part.data =
      (part.head ++ '\r'.toUInt8 :: ([] ++ '\n'.toUInt8 :: ([] ++ '\r'.toUInt8 :: ([] ++ '\n'.toUInt8 ::
        (part.value ++ '\r'.toUInt8 :: []))))) ++ ['\n'.toUInt8] := by
    simp [FormPart.data, headEnd_eq, crlf_eq]
  rw [shape]
  apply endsPiece_of_last noNewline
  intro occurs
  rcases isInfix_of_notMem noReturn occurs with inHead | occurs
  · exact fine.head_clean ok inHead
  rcases isInfix_of_notMem noNewline occurs with empty | occurs
  · exact not_delimiter_isInfix_nil b empty
  rcases isInfix_of_notMem noReturn occurs with empty | occurs
  · exact not_delimiter_isInfix_nil b empty
  rcases isInfix_of_notMem noNewline occurs with empty | occurs
  · exact not_delimiter_isInfix_nil b empty
  rcases isInfix_of_notMem noReturn occurs with inValue | empty
  · exact fine.value_clean inValue
  · exact not_delimiter_isInfix_nil b empty

/-! ### The header of a part

`extract_between` looks for two texts one behind the other.  In the header of a part each of them stands
where the part writes it and nowhere before. -/

/-- `extract_between` finds the piece between the first separators. -/
theorem extractBetween_of_pieces {data before sep1 piece sep2 after : Bytes}
    (cut : data = before ++ sep1 ++ (piece ++ sep2 ++ after)) (first : EndsPiece sep1 before)
    (second : EndsPiece sep2 piece) : extractBetween data sep1 sep2 = piece := by
  have start : find data sep1 0 = some before.length := by
    rw [find_of_endsPiece (Nat.zero_le _) (by rw [List.drop_zero, cut]) first, Nat.zero_add]
  have behind : data.drop (before.length + sep1.length) = piece ++ sep2 ++ after := by
    rw [cut, ← List.length_append, List.drop_left]
  have limit : find data sep2 (before.length + sep1.length) =
      some (before.length + sep1.length + piece.length) :=
    find_of_endsPiece (by rw [cut]; simp) behind second
  unfold extractBetween
  simp only [start, limit, behind]
  rw [Nat.add_sub_cancel_left, List.append_assoc, List.take_left]

/-- Without the first text nothing is extracted. -/
theorem extractBetween_of_absent {data sep1 : Bytes} (absent : ¬ sep1 <:+: data) (sep2 : Bytes) :
    extractBetween data sep1 sep2 = [] := by
  have none_ : find data sep1 0 = none := find_of_not_isInfix absent
  unfold extractBetween
  simp only [none_]

/-- Both kinds of part have the name where the decoder looks for it. -/
theorem name_of_head {b name : Bytes} (named : PartName b name) (rest : Bytes) :
    extractBetween (bytes "Content-Disposition: form-data; name=\"" ++ name ++ bytes "\"" ++ rest)
      (bytes "name=\"") (bytes "\"") = name := by
  have start : NoStart (bytes "name=\"") (bytes "Content-Disposition: form-data; ") :=
    noStart_of_tails (by decide)
  have literal : bytes "Content-Disposition: form-data; name=\"" =
      bytes "Content-Disposition: form-data; " ++ bytes "name=\"" := rfl
  have cut : bytes "Content-Disposition: form-data; name=\"" ++ name ++ bytes "\"" ++ rest =
      bytes "Content-Disposition: form-data; " ++ bytes "name=\"" ++ (name ++ bytes "\"" ++ rest) := by
    rw [literal]
    simp only [List.append_assoc]
  exact extractBetween_of_pieces cut start.endsPiece (endsPiece_of_head named.noQuote)

/-- What the decoder reads from the header of a field: no filename. -/
theorem parseMultipartHeader_field {b name : Bytes} (value : Bytes) (named : PartName b name) :
    (parseMultipartHeader ((FormPart.field name value).head ++ headEnd)).name = name ∧
      (parseMultipartHeader ((FormPart.field name value).head ++ headEnd)).filename = [] := by
  constructor
  · exact name_of_head named headEnd
  · -- the only `=` of the header stands behind `name`
    have absent : ¬ bytes "filename=\"" <:+: (FormPart.field name value).head ++ headEnd := by
      intro occurs
      have shape : (FormPart.field name value).head ++ headEnd =
          bytes "Content-Disposition: form-data; name" ++
          '='.toUInt8 :: ('"'.toUInt8 :: name ++ '"'.toUInt8 :: headEnd) := by
        have literal : bytes "Content-Disposition: form-data; name=\"" =
            bytes "Content-Disposition: form-data; name" ++ ['='.toUInt8, '"'.toUInt8] := rfl
        rw [FormPart.head, literal, show bytes "\"" = ['"'.toUInt8] from rfl]
        simp
      have behind : '='.toUInt8 ∉ '"'.toUInt8 :: name ++ '"'.toUInt8 :: headEnd := by
        simp [headEnd_eq, named.noEquals, show '='.toUInt8 ≠ '"'.toUInt8 by decide,
          show '='.toUInt8 ≠ '\r'.toUInt8 by decide, show '='.toUInt8 ≠ '\n'.toUInt8 by decide]
      rw [shape, show bytes "filename=\"" = bytes "filename" ++
        '='.toUInt8 :: ['"'.toUInt8] from rfl] at occurs
      exact absurd (isSuffix_of_unique (by decide) behind occurs) (by decide)
    unfold parseMultipartHeader
    simp only [extractBetween_of_absent absent]
    rfl

/-- Coded text has no byte that is neither unreserved nor a percent sign. -/
theorem notMem_percentEncode {text : Bytes} {c : UInt8}
    (coded : ¬ (isUnreserved c = true ∨ c = '%'.toUInt8)) :
    c ∉ percentEncode text :=
  fun member => coded (mem_percentEncode member)

/-! ### The header of an upload

Four texts are extracted from two lines, each between its own two separators. -/

section Upload

variable {b name filename filetype : Bytes} (value : Bytes)

/-- The disposition of an upload. -/
theorem disposition_of_upload :
    extractBetween ((FormPart.upload name filename filetype value).head ++ headEnd)
      (bytes "Content-Disposition: ") (bytes ";") = bytes "form-data" := by
  have key : bytes "Content-Disposition: form-data; name=\"" =
      bytes "Content-Disposition: " ++ bytes "form-data" ++ bytes ";" ++ bytes " name=\"" := rfl
  have cut : (FormPart.upload name filename filetype value).head ++ headEnd =
      [] ++ bytes "Content-Disposition: " ++ (bytes "form-data" ++ bytes ";" ++ (bytes " name=\"" ++ name ++
        bytes "\"; filename=\"" ++ percentEncode filename ++ bytes "\"\r\nContent-Type: " ++ filetype ++
          headEnd)) := by
    rw [FormPart.head, key]
    simp only [List.append_assoc, List.nil_append]
  exact extractBetween_of_pieces cut (endsPiece_nil _) (endsPiece_of_head (by decide))

/-- What stands between the two parameters. -/
theorem between_params : bytes "\"; filename=\"" = bytes "\"" ++ bytes "; " ++ bytes "filename=\"" := rfl

/-- What stands between the two lines. -/
theorem between_lines :
    bytes "\"\r\nContent-Type: " = bytes "\"" ++ bytes "\r\n" ++ bytes "Content-Type: " := rfl

/-- The name of an upload. -/
theorem name_of_upload (named : PartName b name) :
    extractBetween ((FormPart.upload name filename filetype value).head ++ headEnd)
      (bytes "name=\"") (bytes "\"") = name := by
  have shape : (FormPart.upload name filename filetype value).head ++ headEnd =
      bytes "Content-Disposition: form-data; name=\"" ++ name ++ bytes "\"" ++
      (bytes "; " ++ bytes "filename=\"" ++
        percentEncode filename ++ bytes "\"\r\nContent-Type: " ++ filetype ++ headEnd) := by
    rw [FormPart.head, between_params]
    simp only [List.append_assoc]
  rw [shape]
  exact name_of_head named _

/-- The `=` of `filename` is the second one of the header, and none stands in the name between them. -/
theorem filename_of_upload (named : PartName b name) :
    extractBetween ((FormPart.upload name filename filetype value).head ++ headEnd)
      (bytes "filename=\"") (bytes "\"") = percentEncode filename := by
  have noQuote : '"'.toUInt8 ∉ percentEncode filename := notMem_percentEncode (by decide)
  have equals : bytes "Content-Disposition: form-data; name=\"" =
      bytes "Content-Disposition: form-data; name" ++ '='.toUInt8 :: bytes "\"" := rfl
  have cut : (FormPart.upload name filename filetype value).head ++ headEnd =
      (bytes "Content-Disposition: form-data; name" ++ '='.toUInt8 :: (bytes "\"" ++ name ++ bytes "\"" ++
        bytes "; ")) ++ bytes "filename=\"" ++ (percentEncode filename ++ bytes "\"" ++ (bytes "\r\n" ++
          bytes "Content-Type: " ++ filetype ++ headEnd)) := by
    rw [FormPart.head, equals, between_params, between_lines]
    simp only [List.append_assoc, List.cons_append]
  have behind : '='.toUInt8 ∉ bytes "\"" ++ name ++ bytes "\"" ++ bytes "; " := by
    simp only [List.mem_append, not_or]
    exact ⟨⟨⟨by decide, named.noEquals⟩, by decide⟩, by decide⟩
  have first := endsPiece_of_unique (show '='.toUInt8 ∉ bytes "filename" by decide)
    (show '='.toUInt8 ∉ bytes "Content-Disposition: form-data; name" by decide) behind (by decide)
  exact extractBetween_of_pieces cut (first.append (bytes "\"")) (endsPiece_of_head noQuote)

/-- The `:` of the type line is the second one of the header. -/
theorem filetype_of_upload (named : PartName b name) (typed : PartType b filetype) :
    extractBetween ((FormPart.upload name filename filetype value).head ++ headEnd)
      (bytes "Content-Type: ") headEnd = filetype := by
  have noColon : ':'.toUInt8 ∉ percentEncode filename := notMem_percentEncode (by decide)
  have colon : bytes "Content-Disposition: form-data; name=\"" =
      bytes "Content-Disposition" ++ ':'.toUInt8 :: bytes " form-data; name=\"" := rfl
  have cut : (FormPart.upload name filename filetype value).head ++ headEnd =
      (bytes "Content-Disposition" ++ ':'.toUInt8 :: (bytes " form-data; name=\"" ++ name ++
        bytes "\"; filename=\"" ++ percentEncode filename ++ bytes "\"" ++ bytes "\r\n")) ++
          bytes "Content-Type: " ++ (filetype ++ headEnd ++ []) := by
    rw [FormPart.head, colon, between_lines]
    simp only [List.append_assoc, List.cons_append, List.append_nil]
  have behind : ':'.toUInt8 ∉ bytes " form-data; name=\"" ++ name ++ bytes "\"; filename=\"" ++
      percentEncode filename ++ bytes "\"" ++ bytes "\r\n" := by
    simp only [List.mem_append, not_or]
    exact ⟨⟨⟨⟨⟨by decide, named.noColon⟩, by decide⟩, noColon⟩, by decide⟩, by decide⟩
  have first := endsPiece_of_unique (show ':'.toUInt8 ∉ bytes "Content-Type" by decide)
    (show ':'.toUInt8 ∉ bytes "Content-Disposition" by decide) behind (by decide)
  exact extractBetween_of_pieces cut (first.append (bytes " ")) (endsPiece_of_head typed.noReturn)

/-- What the decoder reads from the header of an upload. -/
theorem parseMultipartHeader_upload (named : PartName b name) (typed : PartType b filetype) :
    parseMultipartHeader ((FormPart.upload name filename filetype value).head ++ headEnd) =
      { disposition := bytes "form-data", name := name, filename := filename, filetype := filetype } := by
  unfold parseMultipartHeader
  rw [disposition_of_upload, name_of_upload value named, filename_of_upload value named,
    show bytes "\r\n\r\n" = headEnd from rfl, filetype_of_upload value named typed,
    percentDecode_percentEncode]

end Upload

/-! ### One part

What the loop cuts out for a part is the part's head, the end of the head, the value and a line end, so
the part comes back as it was written. -/

/-- The head of a fine part ends where the empty line begins. -/
theorem FormPart.Fine.head_ends {b : Bytes} {part : FormPart} (fine : part.Fine b) :
    EndsPiece headEnd part.head := by
  cases fine with
  | field named clean =>
      apply endsPiece_of_head
      simp only [FormPart.head, List.mem_append, not_or]
      exact ⟨⟨by decide, named.noReturn⟩, by decide⟩
  | upload named nonempty typed cleanName clean =>
      rename_i name filename filetype value
      -- behind the one line end of the header stands a `C`
      have line : bytes "\"\r\nContent-Type: " = bytes "\"" ++ bytes "\r\nC" ++ bytes "ontent-Type: " := rfl
      have shape : FormPart.head (.upload name filename filetype value) =
          (bytes "Content-Disposition: form-data; name=\"" ++ name ++ bytes "\"; filename=\"" ++
            percentEncode filename ++ bytes "\"") ++
            (bytes "\r\nC" ++ (bytes "ontent-Type: " ++ filetype)) := by
        rw [FormPart.head, line]
        simp only [List.append_assoc]
      have before : '\r'.toUInt8 ∉ bytes "Content-Disposition: form-data; name=\"" ++ name ++
          bytes "\"; filename=\"" ++ percentEncode filename ++ bytes "\"" := by
        simp only [List.mem_append, not_or]
        exact ⟨⟨⟨⟨by decide, named.noReturn⟩, by decide⟩, notMem_percentEncode (by decide)⟩, by decide⟩
      have behind : '\r'.toUInt8 ∉ bytes "ontent-Type: " ++ filetype := by
        simp only [List.mem_append, not_or]
        exact ⟨by decide, typed.noReturn⟩
      have between : NoStart headEnd (bytes "\r\nC") := noStart_of_tails (by decide)
      rw [shape]
      exact (noStart_of_head before).append (between.append (endsPiece_of_head behind))

/-- The decoder appends the part's entry. -/
theorem parseMultipartContent_data {b : Bytes} {part : FormPart} (fine : part.Fine b) (req : Request) :
    parseMultipartContent req part.data = .ok (part.addTo req) := by
  have limit : find part.data headEnd 0 = some part.head.length := by
    rw [find_of_endsPiece (Nat.zero_le _) (by rw [List.drop_zero, FormPart.data, List.append_assoc])
      fine.head_ends, Nat.zero_add]
  have length : part.data.length = part.head.length + headEnd.length + part.value.length + 2 := by
    simp [FormPart.data, crlf_eq]
    omega
  have behind : part.data.drop (part.head.length + headEnd.length) = part.value ++ bytes "\r\n" := by
    rw [FormPart.data, List.append_assoc, ← List.length_append, List.drop_left]
  have count :
      ((sizeSub part.data.length (part.head.length + headEnd.length)).bind fun rest => sizeSub rest 2) =
      some part.value.length := by
    rw [sizeSub, if_pos (by omega), Option.bind_some, sizeSub, if_pos (by omega)]
    congr 1
    omega
  have headText : part.data.take (part.head.length + headEnd.length) = part.head ++ headEnd := by
    rw [FormPart.data, List.append_assoc, ← List.length_append, List.take_left]
  unfold parseMultipartContent
  simp only [limit, count]
  rw [substrOrThrow_of_le (by omega), substrOrThrow_of_le (Nat.zero_le _), behind, List.drop_zero,
    takeCount_some, takeCount_some, headText, List.take_left]
  simp only [bind, Except.bind]
  cases fine with
  | field named clean =>
      rename_i name value
      obtain ⟨name_, filename_⟩ := parseMultipartHeader_field value named
      simp only [name_, filename_, List.isEmpty_nil, if_true]
      rfl
  | upload named nonempty typed cleanName clean =>
      rename_i name filename filetype value
      have header := @parseMultipartHeader_upload _ name filename filetype value named typed
      have some_ : filename.isEmpty = false := by simpa using nonempty
      simp only [header, some_]
      rfl

/-! ### The body

The parts between their delimiters, by induction over the list: each round of the loop takes one. -/

/-- The loop appends one part after the other. -/
theorem parsePartsFrom_writeParts {b : Bytes} (ok : BoundaryOk b) {part : FormPart} {parts : List FormPart}
    (fine : ∀ p ∈ part :: parts, p.Fine b) {rounds oldPos : Nat} {req : Request}
    (inside : oldPos ≤ req.content.length) (enough : req.content.length < rounds + oldPos)
    (body : req.content.drop oldPos = part.data ++ writeParts b parts) :
    parsePartsFrom (delimiter b ++ bytes "\r\n") (delimiter b ++ bytes "--\r\n") rounds oldPos req =
      .ok ((part :: parts).foldl FormPart.addTo req) := by
  induction rounds generalizing oldPos req part parts with
  | zero => omega
  | succ rounds ih =>
      unfold parsePartsFrom
      have ends : EndsPiece (delimiter b) part.data := (fine part (by simp)).endsPiece ok
      have cut (rest : Bytes) (whole : req.content.drop oldPos = part.data ++ rest) :
          substrOrThrow req.content oldPos (sizeSub (oldPos + part.data.length) oldPos) = .ok part.data :=
        substrOrThrow_piece inside whole rfl
      have read := parseMultipartContent_data (fine part (by simp)) req
      cases parts with
      | nil =>
          have open_ : find req.content (delimiter b ++ bytes "\r\n") oldPos = none := by
            apply find_of_not_isInfix
            rw [body]
            exact fun occurs => ok.not_separator_isInfix (ends.isInfix_of_append occurs)
          have close : find req.content (delimiter b ++ bytes "--\r\n") oldPos =
              some (oldPos + part.data.length) := by
            have whole : req.content.drop oldPos = part.data ++ (delimiter b ++ bytes "--\r\n") ++ [] := by
              rw [body, writeParts, List.append_nil]
            exact find_of_endsPiece inside whole (ends.append _)
          simp only [open_, close]
          rw [cut _ body]
          exact read
      | cons next parts =>
          have whole : req.content.drop oldPos =
              part.data ++ (delimiter b ++ bytes "\r\n") ++ (next.data ++ writeParts b parts) := by
            rw [body, writeParts]
            simp only [List.append_assoc]
          have open_ : find req.content (delimiter b ++ bytes "\r\n") oldPos =
              some (oldPos + part.data.length) :=
            find_of_endsPiece inside whole (ends.append _)
          have behind : req.content.drop (oldPos + part.data.length + (delimiter b ++ bytes "\r\n").length) =
              next.data ++ writeParts b parts := by
            rw [Nat.add_assoc, ← List.length_append, ← List.drop_drop, whole, List.drop_left]
          have length := congrArg List.length whole
          simp only [List.length_drop, List.length_append] at length
          have width : 0 < (bytes "\r\n").length := by decide
          have inside' : oldPos + part.data.length + (delimiter b ++ bytes "\r\n").length ≤
              (part.addTo req).content.length := by
            rw [FormPart.addTo_content, List.length_append]
            omega
          have enough' : (part.addTo req).content.length <
              rounds + (oldPos + part.data.length + (delimiter b ++ bytes "\r\n").length) := by
            rw [FormPart.addTo_content, List.length_append]
            omega
          simp only [open_]
          rw [cut _ body]
          simp only [bind, Except.bind, read]
          exact ih (fun p member => fine p (List.mem_cons_of_mem _ member)) inside' enough'
            (by rwa [FormPart.addTo_content])

/-- The loop from where the decoder starts it: behind the first opening separator, or, without any part, in
    the middle of the closing one. -/
theorem parseParts_writeParts {b : Bytes} (ok : BoundaryOk b) {parts : List FormPart}
    (fine : ∀ part ∈ parts, part.Fine b) {req : Request} (content : req.content = writeParts b parts) :
    parsePartsFrom (delimiter b ++ bytes "\r\n") (delimiter b ++ bytes "--\r\n") (req.content.length + 1)
        (partsStart req.content (delimiter b ++ bytes "\r\n")) req =
      .ok (parts.foldl FormPart.addTo req) := by
  unfold partsStart
  cases parts with
  | nil =>
      have body : req.content = delimiter b ++ bytes "--\r\n" := content
      have open_ (start : Nat) : find req.content (delimiter b ++ bytes "\r\n") start = none := by
        apply find_of_not_isInfix
        rw [body]
        exact fun occurs => ok.not_separator_isInfix (occurs.trans (List.drop_suffix _ _).isInfix)
      have close : find req.content (delimiter b ++ bytes "--\r\n")
          ((delimiter b ++ bytes "\r\n").length - 1) = none := by
        -- from there on the body is too short
        rw [body]
        cases found : find (delimiter b ++ bytes "--\r\n") (delimiter b ++ bytes "--\r\n")
          ((delimiter b ++ bytes "\r\n").length - 1) with
        | none => rfl
        | some p =>
            have bounds := find_bounds found
            have width : 1 < (bytes "\r\n").length := by decide
            simp only [List.length_append] at bounds
            omega
      unfold parsePartsFrom
      simp only [open_, close]
      rfl
  | cons part parts =>
      have whole : req.content.drop 0 =
          [] ++ (delimiter b ++ bytes "\r\n") ++ (part.data ++ writeParts b parts) := by
        rw [List.drop_zero, content, writeParts]
        simp only [List.append_assoc, List.nil_append]
      have open_ : find req.content (delimiter b ++ bytes "\r\n") 0 = some 0 :=
        find_of_endsPiece (Nat.zero_le _) whole (endsPiece_nil _)
      have behind : req.content.drop (0 + (delimiter b ++ bytes "\r\n").length) = part.data ++
          writeParts b parts := by
        rw [← List.drop_drop, whole, List.nil_append, List.drop_left]
      have inside : 0 + (delimiter b ++ bytes "\r\n").length ≤ req.content.length := (find_bounds open_).2
      simp only [open_]
      exact parsePartsFrom_writeParts ok fine inside (by omega) behind

/-- What the list appends to a request. -/
theorem foldl_addTo (parts : List FormPart) (req : Request) :
    parts.foldl FormPart.addTo req =
      { req with
        params := req.params ++ parts.filterMap FormPart.param?
        uploads := req.uploads ++ parts.filterMap FormPart.upload? } := by
  induction parts generalizing req with
  | nil => simp
  | cons part parts ih =>
      rw [List.foldl_cons, ih]
      cases part with
      | field => simp [List.filterMap_cons, FormPart.addTo, FormPart.param?, FormPart.upload?, pushParam]
      | upload => simp [List.filterMap_cons, FormPart.addTo, FormPart.param?, FormPart.upload?]

/-- The decoder takes the boundary from the Content-Type. -/
theorem boundary_of_contentType {b : Bytes} (ok : BoundaryOk b) :
    boundary (bytes "multipart/form-data; boundary=" ++ b) = .ok b := by
  have literal : bytes "multipart/form-data; boundary=" = bytes "multipart/form-data; " ++
      bytes "boundary=" := rfl
  have start : NoStart (bytes "boundary=") (bytes "multipart/form-data; ") := noStart_of_tails (by decide)
  have found : find (bytes "multipart/form-data; boundary=" ++ b) (bytes "boundary=") 0 =
      some (bytes "multipart/form-data; ").length := by
    rw [find_of_endsPiece (Nat.zero_le _) (by rw [List.drop_zero, literal]) start.endsPiece, Nat.zero_add]
  have behind : (bytes "multipart/form-data; boundary=" ++ b).drop
      ((bytes "multipart/form-data; ").length + (bytes "boundary=").length) = b := by
    rw [literal, ← List.length_append, List.drop_left]
  have noLimit : find b (bytes ";") 0 = none := by
    apply find_of_not_isInfix
    intro occurs
    exact ok.noSemicolon (occurs.subset (show ';'.toUInt8 ∈ bytes ";" by decide))
  unfold boundary
  simp only [found]
  have inside : (bytes "multipart/form-data; ").length + (bytes "boundary=").length ≤
      (bytes "multipart/form-data; boundary=" ++ b).length := by
    rw [literal, List.length_append, List.length_append]
    exact Nat.le_add_right _ _
  rw [substrOrThrow_of_le inside, behind]
  simp only [takeCount_none, bind, Except.bind, noLimit]
  rfl

/-- Reading a header that has a value leaves the request as it is. -/
theorem header_of_present {req : Request} {name : Bytes}
    (present : NameValue.valueOf req.headers name ≠ []) :
    req.header name = (NameValue.valueOf req.headers name, req) := by
  have kept : NameValue.ensure req.headers name = req.headers := by
    unfold NameValue.ensure
    cases found : NameValue.lookup req.headers name with
    | some nv => rfl
    | none => exact absurd (by rw [NameValue.valueOf, found]) present
  rw [Request.header, kept]

/-- `parse_content` appends to the fields and the uploads of the request exactly those that its body was
    written from. -/
theorem multipart_round_trip {b : Bytes} (ok : BoundaryOk b) {parts : List FormPart}
    (fine : ∀ part ∈ parts, part.Fine b) {req : Request}
    (contentType : NameValue.valueOf req.headers (bytes "Content-Type") =
      bytes "multipart/form-data; boundary=" ++ b)
    (content : req.content = writeParts b parts) :
    parseContent req = .ok
      { req with
        params := req.params ++ parts.filterMap FormPart.param?
        uploads := req.uploads ++ parts.filterMap FormPart.upload? } := by
  have nonempty : req.content ≠ [] := by
    rw [content]
    cases parts <;> simp [writeParts, delimiter_eq]
  have kept : req.header (bytes "Content-Type") = (bytes "multipart/form-data; boundary=" ++ b, req) := by
    rw [header_of_present (by rw [contentType]; simp [bytes]), contentType]
  have multipart : ReadAsMultipart (bytes "multipart/form-data; boundary=" ++ b) := by
    rw [readAsMultipart_iff, List.take_append_of_le_length (by decide)]
    decide
  have body : parseMultipart (bytes "multipart/form-data; boundary=" ++ b) req =
      .ok (parts.foldl FormPart.addTo req) := by
    unfold parseMultipart
    rw [boundary_of_contentType ok]
    exact parseParts_writeParts ok fine content
  rw [foldl_addTo] at body
  unfold parseContent
  simp only [List.isEmpty_iff, nonempty, if_false, kept, multipart.1, multipart.2, if_true]
  exact body

/-- A field whose value looks like a delimiter and a header, and a file with a line end. -/
def sampleParts : List FormPart :=
  [.field (bytes "a; b") (bytes "\r\n--x\r\nname=\"c\""),
   .upload (bytes "file") (bytes "a b.txt") (bytes "text/plain") (bytes "\r\n")]

/-- The request that carries them under the boundary `-x`. -/
def multipartRequest : Request :=
  { headers := [{ name := bytes "Content-Type", value := bytes "multipart/form-data; boundary=-x" }]
    content := writeParts (bytes "-x") sampleParts }

theorem multipart_round_trip_sample :
    parseContent multipartRequest = .ok
      { multipartRequest with
        params := [{ name := bytes "a; b", value := bytes "\r\n--x\r\nname=\"c\"" }]
        uploads :=
          [{ name := bytes "file"
             filename := bytes "a b.txt"
             filetype := bytes "text/plain"
             data := bytes "\r\n" }] } := by
  have ok : BoundaryOk (bytes "-x") := by
    constructor <;> decide
  have file : PartName (bytes "-x") (bytes "file") := by
    constructor <;> decide
  have type : PartType (bytes "-x") (bytes "text/plain") := by
    constructor <;> decide
  have fine : ∀ part ∈ sampleParts, part.Fine (bytes "-x") := by
    intro part member
    rcases List.mem_cons.mp member with rfl | member
    · exact .field (by constructor <;> decide) (by decide)
    · rcases List.mem_singleton.mp member with rfl
      exact .upload file (by decide) type (by decide) (by decide)
  exact @multipart_round_trip _ ok sampleParts fine multipartRequest rfl rfl

end Waspp
