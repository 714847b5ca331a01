/-
Module: Waspp.Proofs.HeaderOrder
Layer: Proofs
Purpose: The header of a part in its four orders.  `parse_multipart_header` looks for `name="`, which is
  also the end of `filename="`, and takes the file type up to the blank line: the name it reads is the
  value of whichever parameter comes first (`name_of_order`), and with the type line first the file type
  swallows the other line (`filetype_longer`), whatever the values are.
Imports: Waspp.Proofs.MultipartBodies
Trusted boundary: none (fully proved)
Main exports: HeaderValues, headerText, ReadByAttribute, name_of_order, not_readByAttribute
Open obligations: none
-/
import Waspp.Proofs.MultipartBodies

namespace Waspp

open CString

/-! ### Headers in any order -/

/-- The attribute values of a header. -/
structure HeaderValues where
  disposition : Bytes
  name : Bytes
  filename : Bytes
  filetype : Bytes

/-- A value without a quote, a line end, or a byte that percent-decoding changes. -/
structure PlainValue (value : Bytes) : Prop where
  noQuote : '"'.toUInt8 ∉ value
  noReturn : '\r'.toUInt8 ∉ value
  noNewline : '\n'.toUInt8 ∉ value
  noPercent : '%'.toUInt8 ∉ value
  noPlus : '+'.toUInt8 ∉ value

structure HeaderValues.Plain (values : HeaderValues) : Prop where
  disposition : PlainValue values.disposition
  name : PlainValue values.name
  filename : PlainValue values.filename
  filetype : PlainValue values.filetype

/-- Which parameter of the disposition comes first. -/
inductive ParamOrder where
  | nameFirst
  | filenameFirst

/-- Which line of the header comes first. -/
inductive LineOrder where
  | dispositionFirst
  | typeFirst

/-- The parameters of the disposition. -/
def paramsText (values : HeaderValues) : ParamOrder → Bytes
  | .nameFirst =>
      bytes "; name=\"" ++ values.name ++ bytes "\"; filename=\"" ++ values.filename ++ bytes "\""
  | .filenameFirst =>
      bytes "; filename=\"" ++ values.filename ++ bytes "\"; name=\"" ++ values.name ++ bytes "\""

def dispositionLine (values : HeaderValues) (params : ParamOrder) : Bytes :=
  bytes "Content-Disposition: " ++ values.disposition ++ paramsText values params

def typeLine (values : HeaderValues) : Bytes := bytes "Content-Type: " ++ values.filetype

/-- The header, with the blank line that ends it. -/
def headerText (values : HeaderValues) (params : ParamOrder) : LineOrder → Bytes
  | .dispositionFirst => dispositionLine values params ++ bytes "\r\n" ++ typeLine values ++ headEnd
  | .typeFirst => typeLine values ++ bytes "\r\n" ++ dispositionLine values params ++ headEnd

/-- The same attributes are read from every order of the parameters and the lines. -/
def ReadByAttribute (values : HeaderValues) : Prop :=
  ∀ params lines params' lines',
    parseMultipartHeader (headerText values params lines) =
    parseMultipartHeader (headerText values params' lines')

/-! ### The name -/

/-- The value of the parameter that comes first. -/
def HeaderValues.first (values : HeaderValues) : ParamOrder → Bytes
  | .nameFirst => values.name
  | .filenameFirst => values.filename

/-- Before the first quote of a header stands `name=`; behind it, the value of the first parameter. -/
theorem headerText_eq {values : HeaderValues} (plain : values.Plain) (params : ParamOrder)
    (lines : LineOrder) :
    ∃ before after, headerText values params lines =
        before ++ bytes "name=\"" ++ (values.first params ++ bytes "\"" ++ after) ∧
          '"'.toUInt8 ∉ before := by
  have nameKey : bytes "; name=\"" = bytes "; " ++ bytes "name=\"" := rfl
  have fileKey : bytes "; filename=\"" = bytes "; file" ++ bytes "name=\"" := rfl
  have shape : ∃ before after, dispositionLine values params =
      before ++ bytes "name=\"" ++ (values.first params ++ bytes "\"" ++ after) ∧ '"'.toUInt8 ∉ before := by
    cases params with
    | nameFirst =>
        refine ⟨bytes "Content-Disposition: " ++ values.disposition ++ bytes "; ",
          bytes "; filename=\"" ++ values.filename ++ bytes "\"", ?_, ?_⟩
        · have quoted : bytes "\"; filename=\"" = bytes "\"" ++ bytes "; filename=\"" := rfl
          rw [dispositionLine, paramsText, nameKey, quoted]
          simp only [HeaderValues.first, List.append_assoc]
        · simp only [List.mem_append, not_or]
          exact ⟨⟨by decide, plain.disposition.noQuote⟩, by decide⟩
    | filenameFirst =>
        refine ⟨bytes "Content-Disposition: " ++ values.disposition ++ bytes "; file",
          bytes "; name=\"" ++ values.name ++ bytes "\"", ?_, ?_⟩
        · have quoted : bytes "\"; name=\"" = bytes "\"" ++ bytes "; name=\"" := rfl
          rw [dispositionLine, paramsText, fileKey, quoted]
          simp only [HeaderValues.first, List.append_assoc]
        · simp only [List.mem_append, not_or]
          exact ⟨⟨by decide, plain.disposition.noQuote⟩, by decide⟩
  obtain ⟨before, after, line, noQuote⟩ := shape
  cases lines with
  | dispositionFirst =>
      refine ⟨before, after ++ bytes "\r\n" ++ typeLine values ++ headEnd, ?_, noQuote⟩
      rw [headerText, line]
      simp only [List.append_assoc]
  | typeFirst =>
      refine ⟨typeLine values ++ bytes "\r\n" ++ before, after ++ headEnd, ?_, ?_⟩
      · rw [headerText, line]
        simp only [List.append_assoc]
      · simp only [typeLine, List.mem_append, not_or]
        exact ⟨⟨⟨by decide, plain.filetype.noQuote⟩, by decide⟩, noQuote⟩

/-- The name that is read is the value of the first parameter. -/
theorem name_of_order {values : HeaderValues} (plain : values.Plain) (params : ParamOrder)
    (lines : LineOrder) :
    (parseMultipartHeader (headerText values params lines)).name = values.first params := by
  obtain ⟨before, after, shape, noQuote⟩ := headerText_eq plain params lines
  have key : bytes "name=\"" = bytes "name=" ++ ['"'.toUInt8] := rfl
  have start : EndsPiece (bytes "name=\"") before := key ▸ endsPiece_of_fresh (by decide) noQuote
  have noQuote' : '"'.toUInt8 ∉ values.first params := by
    cases params with
    | nameFirst => exact plain.name.noQuote
    | filenameFirst => exact plain.filename.noQuote
  exact extractBetween_of_pieces shape start (endsPiece_of_head noQuote')

/-! ### The file type -/

/-- A disposition line has no carriage return. -/
theorem noReturn_dispositionLine {values : HeaderValues} (plain : values.Plain) (params : ParamOrder) :
    '\r'.toUInt8 ∉ dispositionLine values params := by
  cases params with
  | nameFirst =>
      simp only [dispositionLine, paramsText, List.mem_append, not_or]
      exact ⟨⟨by decide, plain.disposition.noReturn⟩, ⟨⟨⟨by decide, plain.name.noReturn⟩, by decide⟩,
        plain.filename.noReturn⟩, by decide⟩
  | filenameFirst =>
      simp only [dispositionLine, paramsText, List.mem_append, not_or]
      exact ⟨⟨by decide, plain.disposition.noReturn⟩, ⟨⟨⟨by decide, plain.filename.noReturn⟩, by decide⟩,
        plain.name.noReturn⟩, by decide⟩

/-- The disposition line starts with a `C` and has no line end. -/
theorem dispositionLine_eq {values : HeaderValues} (plain : values.Plain) (params : ParamOrder) :
    ∃ rest, dispositionLine values params = 'C'.toUInt8 :: rest ∧ '\r'.toUInt8 ∉ rest := by
  have noReturn := noReturn_dispositionLine plain params
  have start : bytes "Content-Disposition: " = 'C'.toUInt8 :: bytes "ontent-Disposition: " := rfl
  rw [dispositionLine, start, List.append_assoc, List.cons_append] at noReturn
  exact ⟨_, by rw [dispositionLine, start, List.append_assoc, List.cons_append],
    fun member => noReturn (List.mem_cons_of_mem _ member)⟩

/-- The type line starts with a `C` and has no line end. -/
theorem typeLine_eq {values : HeaderValues} (plain : values.Plain) :
    ∃ rest, typeLine values = 'C'.toUInt8 :: rest ∧ '\r'.toUInt8 ∉ rest := by
  have start : bytes "Content-Type: " = 'C'.toUInt8 :: bytes "ontent-Type: " := rfl
  refine ⟨bytes "ontent-Type: " ++ values.filetype, by rw [typeLine, start, List.cons_append], ?_⟩
  simp only [List.mem_append, not_or]
  exact ⟨by decide, plain.filetype.noReturn⟩

/-- Two lines that do not end in the middle of a blank line. -/
theorem endsPiece_lines {first rest : Bytes} (noReturn : '\r'.toUInt8 ∉ first)
    (noReturn' : '\r'.toUInt8 ∉ rest) :
    EndsPiece headEnd (first ++ bytes "\r\n" ++ 'C'.toUInt8 :: rest) := by
  have between : NoStart headEnd (bytes "\r\nC") := noStart_of_tails (by decide)
  have shape : first ++ bytes "\r\n" ++ 'C'.toUInt8 :: rest = first ++ (bytes "\r\nC" ++ rest) := by
    have letter : bytes "\r\nC" = bytes "\r\n" ++ ['C'.toUInt8] := rfl
    rw [letter]
    simp only [List.append_assoc, List.singleton_append]
  rw [shape]
  exact (noStart_of_head noReturn).append (between.append (endsPiece_of_head noReturn'))

/-- With the type line first, the file type runs on to the end of the header. -/
theorem filetype_typeFirst {values : HeaderValues} (plain : values.Plain) (params : ParamOrder) :
    (parseMultipartHeader (headerText values params .typeFirst)).filetype =
      values.filetype ++ bytes "\r\n" ++ dispositionLine values params := by
  obtain ⟨rest, line, noReturn⟩ := dispositionLine_eq plain params
  have cut : headerText values params .typeFirst =
      [] ++ bytes "Content-Type: " ++
        (values.filetype ++ bytes "\r\n" ++ dispositionLine values params ++ headEnd ++ []) := by
    rw [headerText, typeLine]
    simp only [List.append_assoc, List.nil_append, List.append_nil]
  have ends : EndsPiece headEnd (values.filetype ++ bytes "\r\n" ++ dispositionLine values params) :=
    line ▸ endsPiece_lines plain.filetype.noReturn noReturn
  exact extractBetween_of_pieces cut (endsPiece_nil _) ends

/-- With the disposition line first it is shorter. -/
theorem filetype_dispositionFirst {values : HeaderValues} (plain : values.Plain) (params : ParamOrder) :
    (parseMultipartHeader (headerText values params .dispositionFirst)).filetype.length <
      (values.filetype ++ bytes "\r\n" ++ dispositionLine values params).length := by
  obtain ⟨rest, line, noReturn⟩ := typeLine_eq plain
  let text := dispositionLine values params ++ bytes "\r\n" ++ typeLine values
  have whole : headerText values params .dispositionFirst = text ++ headEnd := rfl
  have ends : EndsPiece headEnd text := by
    simp only [text, line]
    exact endsPiece_lines (noReturn_dispositionLine plain params) noReturn
  -- the key is found where the type line starts, or before, but not at the start of the header
  obtain ⟨start, found⟩ : ∃ start, find (text ++ headEnd) (bytes "Content-Type: ") 0 = some start := by
    apply Option.isSome_iff_exists.mp
    rw [find_isSome_iff]
    refine ⟨dispositionLine values params ++ bytes "\r\n", values.filetype ++ headEnd, ?_⟩
    simp only [text, typeLine, List.append_assoc]
  obtain ⟨-, -, occurs, before⟩ := find_eq_some_iff.mp found
  have positive : 0 < start := by
    rcases Nat.eq_zero_or_pos start with rfl | positive
    · have other : bytes "Content-Disposition: " <+: text ++ headEnd := by
        simp only [text, dispositionLine, List.append_assoc]
        exact List.prefix_append _ _
      have both : bytes "Content-Type: " <+: bytes "Content-Disposition: " :=
        List.prefix_of_prefix_length_le occurs other (by decide)
      exact absurd both (by decide)
    · exact positive
  have atMost : start ≤ (dispositionLine values params ++ bytes "\r\n").length := by
    by_contra beyond
    apply before _ (Nat.zero_le _) (Nat.lt_of_not_le beyond)
    simp only [text, List.append_assoc]
    rw [← List.append_assoc, List.drop_left, typeLine]
    exact ⟨values.filetype ++ headEnd, by simp only [List.append_assoc]⟩
  have width : start + (bytes "Content-Type: ").length ≤ text.length := by
    simp only [text, typeLine, List.length_append] at atMost ⊢
    omega
  have behind : (text ++ headEnd).drop (start + (bytes "Content-Type: ").length) =
      text.drop (start + (bytes "Content-Type: ").length) ++ headEnd ++ [] := by
    rw [List.drop_append_of_le_length width, List.append_nil]
  have limit : find (text ++ headEnd) headEnd (start + (bytes "Content-Type: ").length) =
      some (start + (bytes "Content-Type: ").length +
        (text.drop (start + (bytes "Content-Type: ").length)).length) := by
    have rest : EndsPiece headEnd (text.drop (start + (bytes "Content-Type: ").length)) := by
      rw [← List.take_append_drop (start + (bytes "Content-Type: ").length) text] at ends
      exact ends.of_append
    exact find_of_endsPiece (by rw [List.length_append]; omega) behind rest
  have read : (parseMultipartHeader (headerText values params .dispositionFirst)).filetype =
      text.drop (start + (bytes "Content-Type: ").length) := by
    rw [whole]
    unfold parseMultipartHeader extractBetween
    simp only [found, show bytes "\r\n\r\n" = headEnd from rfl, limit, behind]
    rw [Nat.add_sub_cancel_left, List.append_nil, List.take_left]
  have length : text.length = (dispositionLine values params).length + (bytes "\r\n").length +
      ((bytes "Content-Type: ").length + values.filetype.length) := by
    simp only [text, typeLine, List.length_append]
  rw [read, List.length_drop, length]
  simp only [List.length_append]
  omega

/-! ### No header is read by attribute -/

/-- Whatever the values are, the two orders of the lines give different file types, the two orders of the
    parameters different names unless the name is the filename, and so no header is read by attribute. -/
theorem not_readByAttribute {values : HeaderValues} (plain : values.Plain) :
    ¬ ReadByAttribute values ∧
      (∀ params, (parseMultipartHeader (headerText values params .dispositionFirst)).filetype ≠
        (parseMultipartHeader (headerText values params .typeFirst)).filetype) ∧
      ∀ lines, (parseMultipartHeader (headerText values .nameFirst lines)).name =
        (parseMultipartHeader (headerText values .filenameFirst lines)).name ↔
        values.name = values.filename := by
  have differ (params : ParamOrder) :
      (parseMultipartHeader (headerText values params .dispositionFirst)).filetype ≠
      (parseMultipartHeader (headerText values params .typeFirst)).filetype := by
    intro same
    have shorter := filetype_dispositionFirst plain params
    rw [same, filetype_typeFirst plain params] at shorter
    exact Nat.lt_irrefl _ shorter
  constructor
  · intro byAttribute
    exact differ .nameFirst (congrArg MultipartHeader.filetype (byAttribute _ _ _ _))
  constructor
  · exact differ
  · intro lines
    rw [name_of_order plain, name_of_order plain]
    rfl

/-- The header that a browser sends for a file, and its values in other orders. -/
def fileHeader : HeaderValues :=
  { disposition := bytes "form-data"
    name := bytes "field"
    filename := bytes "a.txt"
    filetype := bytes "text/plain" }

theorem fileHeader_plain_not_readByAttribute : ¬ ReadByAttribute fileHeader := by
  have plain : fileHeader.Plain := by
    constructor <;> constructor <;> decide
  exact (not_readByAttribute plain).1

/-- With the filename first, the name that is read is the filename. -/
theorem fileHeader_misread :
    fileHeader.Plain ∧ ¬ ReadByAttribute fileHeader ∧
      (parseMultipartHeader (headerText fileHeader .filenameFirst .dispositionFirst)).name =
      bytes "a.txt" := by
  refine ⟨by constructor <;> constructor <;> decide, ?_, by decide +kernel⟩
  intro byAttribute
  have same := byAttribute .nameFirst .dispositionFirst .filenameFirst .dispositionFirst
  exact absurd (congrArg MultipartHeader.name same) (by decide +kernel)

end Waspp
