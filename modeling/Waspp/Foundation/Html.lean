/-
Module: Waspp.Foundation.Html
Layer: Foundation
Purpose: How a text is read as HTML: which tags stand in it, with their attributes.  The reader is a
  transducer over bytes that follows the tokenizer of the HTML standard, with the raw text of elements such
  as `script` and the comment-like escapes in it; what has no influence on tags (the names of doctypes, the
  text of comments, the self-closing mark) is not kept.
Imports: Waspp.Foundation.CString, Waspp.Foundation.Transducer
Trusted boundary: human-reviewed rendering of the tokenizer of the HTML standard
Main exports: Tag, Tag.shape, Reader, step, reader, HoldsReference, run_quoted, outputs_of_holds,
  final_literal
Open obligations: none
-/
import Waspp.Foundation.CString
import Waspp.Foundation.Transducer

namespace Html

open CString

/-! ### The reader -/

/-- A start or end tag, the attributes as they are written. -/
structure Tag where
  isEnd : Bool
  name : Bytes
  attributes : List (Bytes × Bytes)
deriving DecidableEq, Repr

namespace Tag

/-- The text of an attribute.  Of two attributes with one name the first counts. -/
def attributeText (tag : Tag) (name : Bytes) : Option Bytes :=
  (tag.attributes.find? fun a => a.1 == name).map (·.2)

/-- What a tag adds to the structure of a document: not the text of its attributes. -/
def shape (tag : Tag) : Bool × Bytes × List Bytes := (tag.isEnd, tag.name, tag.attributes.map (·.1))

/-! A tag that is read has its newest attribute in front. -/

def extendTagName (tag : Tag) (b : UInt8) : Tag := { tag with name := tag.name ++ [b] }

def newAttribute (tag : Tag) (b : UInt8) : Tag := { tag with attributes := ([b], []) :: tag.attributes }

def extendName (tag : Tag) (b : UInt8) : Tag :=
  match tag.attributes with
  | (name, value) :: older => { tag with attributes := (name ++ [b], value) :: older }
  | [] => tag

def extendValue (tag : Tag) (b : UInt8) : Tag :=
  match tag.attributes with
  | (name, value) :: older => { tag with attributes := (name, value ++ [b]) :: older }
  | [] => tag

def finished (tag : Tag) : Tag := { tag with attributes := tag.attributes.reverse }

end Tag

/-- How deep in comment-like escapes the text of a script is. -/
inductive Escape where
  | none
  /-- Behind `<!--`. -/
  | escaped
  /-- Behind `<script` in an escaped text. -/
  | double
deriving DecidableEq, Repr

/-- Where the reader is. -/
inductive Reader where
  | data
  /-- Behind `<`. -/
  | tagOpen
  /-- Behind `</`. -/
  | endTagOpen
  | tagName (tag : Tag)
  /-- In front of an attribute, and behind a quoted one or a `/`. -/
  | inTag (tag : Tag)
  | attributeName (tag : Tag)
  | afterName (tag : Tag)
  | beforeValue (tag : Tag)
  | quoted (quote : UInt8) (tag : Tag)
  | unquoted (tag : Tag)
  /-- Behind `<!`, and behind `<!-`. -/
  | markup
  | markupDash
  /-- In a doctype or what else `>` ends. -/
  | bogus
  | commentStart
  | commentStartDash
  | comment
  | commentDash
  | commentEnd
  | commentBang
  /-- In the text of a raw text element, behind so many dashes. -/
  | text (element : Bytes) (level : Escape) (dashes : Nat)
  /-- In such a text behind `<`, and behind `</` and some letters. -/
  | textLess (element : Bytes) (level : Escape)
  | textEnd (element : Bytes) (level : Escape) (name : Bytes)
  /-- In the text of a script behind `<!`, and behind `<!-`. -/
  | escapeStart
  | escapeStartDash
  /-- In an escaped text behind `<` or `</` and some letters that may be `script`. -/
  | escapeName (level : Escape) (name : Bytes)
  | plaintext
deriving DecidableEq, Repr

/-- The white space of HTML. -/
def isBlank (b : UInt8) : Bool := b == 9 || b == 10 || b == 12 || b == 13 || b == 32

def isAlpha (b : UInt8) : Bool := (65 ≤ b && b ≤ 90) || (97 ≤ b && b ≤ 122)

def lower (b : UInt8) : UInt8 := if 65 ≤ b && b ≤ 90 then b + 32 else b

/-- What ends the name of a tag. -/
def endsName (b : UInt8) : Bool := isBlank b || b == '/'.toUInt8 || b == '>'.toUInt8

/-- The elements whose content is text up to their end tag. -/
def rawTextElements : List Bytes :=
  [bytes "script", bytes "style", bytes "textarea", bytes "title", bytes "xmp", bytes "iframe",
    bytes "noembed", bytes "noframes", bytes "noscript"]

/-- Where the reader is behind a tag. -/
def behind (tag : Tag) : Reader :=
  if tag.isEnd then .data
  else if rawTextElements.contains tag.name then .text tag.name .none 0
  else if tag.name == bytes "plaintext" then .plaintext
  else .data

/-- The end of a tag. -/
def close (tag : Tag) : Reader × List Tag := (behind tag, [tag.finished])

/-- A byte in the text of a raw text element. -/
def inText (element : Bytes) (level : Escape) (dashes : Nat) (b : UInt8) : Reader :=
  if b == '<'.toUInt8 then .textLess element level
  else
    match level with
    | .none => .text element .none 0
    | level =>
        if b == '-'.toUInt8 then .text element level (min 2 (dashes + 1))
        else if b == '>'.toUInt8 && dashes == 2 then .text element .none 0
        else .text element level 0

/-- A byte at the end of a name in a tag. -/
def behindName (tag : Tag) (b : UInt8) : Reader × List Tag :=
  if b == '>'.toUInt8 then close tag else (.inTag tag, [])

/-- One byte. -/
def step : Reader → UInt8 → Reader × List Tag
  | .data, b => (if b == '<'.toUInt8 then .tagOpen else .data, [])
  | .tagOpen, b =>
      (if b == '!'.toUInt8 then .markup
        else if b == '/'.toUInt8 then .endTagOpen
        else if b == '?'.toUInt8 then .bogus
        else if isAlpha b then .tagName ⟨false, [lower b], []⟩
        else if b == '<'.toUInt8 then .tagOpen
        else .data, [])
  | .endTagOpen, b =>
      (if isAlpha b then .tagName ⟨true, [lower b], []⟩
        else if b == '>'.toUInt8 then .data
        else .bogus, [])
  | .tagName tag, b => if endsName b then behindName tag b else (.tagName (tag.extendTagName (lower b)), [])
  | .inTag tag, b =>
      if endsName b then behindName tag b else (.attributeName (tag.newAttribute (lower b)), [])
  | .attributeName tag, b =>
      if isBlank b then (.afterName tag, [])
      else if endsName b then behindName tag b
      else if b == '='.toUInt8 then (.beforeValue tag, [])
      else (.attributeName (tag.extendName (lower b)), [])
  | .afterName tag, b =>
      if isBlank b then (.afterName tag, [])
      else if endsName b then behindName tag b
      else if b == '='.toUInt8 then (.beforeValue tag, [])
      else (.attributeName (tag.newAttribute (lower b)), [])
  | .beforeValue tag, b =>
      if isBlank b then (.beforeValue tag, [])
      else if b == '"'.toUInt8 || b == '\''.toUInt8 then (.quoted b tag, [])
      else if b == '>'.toUInt8 then close tag
      else (.unquoted (tag.extendValue b), [])
  | .quoted quote tag, b => (if b == quote then .inTag tag else .quoted quote (tag.extendValue b), [])
  | .unquoted tag, b =>
      if isBlank b then (.inTag tag, [])
      else if b == '>'.toUInt8 then close tag
      else (.unquoted (tag.extendValue b), [])
  | .markup, b =>
      (if b == '-'.toUInt8 then .markupDash else if b == '>'.toUInt8 then .data else .bogus, [])
  | .markupDash, b =>
      (if b == '-'.toUInt8 then .commentStart else if b == '>'.toUInt8 then .data else .bogus, [])
  | .bogus, b => (if b == '>'.toUInt8 then .data else .bogus, [])
  | .commentStart, b =>
      (if b == '-'.toUInt8 then .commentStartDash else if b == '>'.toUInt8 then .data else .comment, [])
  | .commentStartDash, b =>
      (if b == '-'.toUInt8 then .commentEnd else if b == '>'.toUInt8 then .data else .comment, [])
  | .comment, b => (if b == '-'.toUInt8 then .commentDash else .comment, [])
  | .commentDash, b => (if b == '-'.toUInt8 then .commentEnd else .comment, [])
  | .commentEnd, b =>
      (if b == '>'.toUInt8 then .data
        else if b == '!'.toUInt8 then .commentBang
        else if b == '-'.toUInt8 then .commentEnd
        else .comment, [])
  | .commentBang, b =>
      (if b == '-'.toUInt8 then .commentDash else if b == '>'.toUInt8 then .data else .comment, [])
  | .text element level dashes, b => (inText element level dashes b, [])
  | .textLess element level, b =>
      (if b == '/'.toUInt8 then
          if level = .double then .escapeName .double [] else .textEnd element level []
        else if b == '!'.toUInt8 && element == bytes "script" && level = .none then .escapeStart
        else if isAlpha b && level = .escaped then .escapeName .escaped [lower b]
        else inText element level 0 b, [])
  | .textEnd element level name, b =>
      if isAlpha b then (.textEnd element level (name ++ [lower b]), [])
      else if endsName b && name == element then behindName ⟨true, name, []⟩ b
      else (inText element level 0 b, [])
  | .escapeStart, b =>
      (if b == '-'.toUInt8 then .escapeStartDash else inText (bytes "script") .none 0 b, [])
  | .escapeStartDash, b =>
      (if b == '-'.toUInt8 then .text (bytes "script") .escaped 2 else inText (bytes "script") .none 0 b, [])
  | .escapeName level name, b =>
      (if isAlpha b then .escapeName level (name ++ [lower b])
        else if endsName b then
          if name == bytes "script" then
            .text (bytes "script") (if level = .double then .escaped else .double) 0
          else .text (bytes "script") level 0
        else inText (bytes "script") level 0 b, [])
  | .plaintext, _ => (.plaintext, [])

/-- The reader of tags. -/
def reader : Transducer Reader UInt8 Tag := ⟨step⟩

/-- A character reference, behind its `&`, in the value of an attribute; `names` are the names that HTML
    defines, some of them with their semicolon.  A name without one is no reference in front of `=`, a
    letter or a digit. -/
inductive StartsReference (names : List Bytes) : Bytes → Prop where
  | decimal {digit : UInt8} {rest : Bytes} (digits : isdigit digit = true) :
      StartsReference names ('#'.toUInt8 :: digit :: rest)
  | hex {x digit : UInt8} {rest : Bytes} (mark : lower x = 'x'.toUInt8) (digits : isxdigit digit = true) :
      StartsReference names ('#'.toUInt8 :: x :: digit :: rest)
  | named {name rest : Bytes} (member : name ∈ names)
      (longest : ∀ longer ∈ names, longer <+: name ++ rest → longer.length ≤ name.length)
      (ended : name.getLast? = some ';'.toUInt8 ∨
        ∀ next ∈ rest.head?, next ≠ '='.toUInt8 ∧ isAlpha next = false ∧ isdigit next = false) :
      StartsReference names (name ++ rest)

/-- A text that is not the value of the attribute it is written in. -/
def HoldsReference (names : List Bytes) (text : Bytes) : Prop :=
  ∃ front back, text = front ++ '&'.toUInt8 :: back ∧ StartsReference names back

/-- A byte that is no ampersand begins no reference. -/
theorem holdsReference_cons {names : List Bytes} {b : UInt8} (plain : b ≠ '&'.toUInt8) (text : Bytes) :
    HoldsReference names (b :: text) ↔ HoldsReference names text := by
  constructor
  · rintro ⟨front, back, same, starts⟩
    cases front with
    | nil => exact absurd (List.cons.inj same).1 plain
    | cons b' front => exact ⟨front, back, (List.cons.inj same).2, starts⟩
  · rintro ⟨front, back, rfl, starts⟩
    exact ⟨b :: front, back, rfl, starts⟩

/-- A text without an ampersand adds no reference. -/
theorem holdsReference_append {names : List Bytes} {start : Bytes} (plain : '&'.toUInt8 ∉ start)
    (text : Bytes) :
    HoldsReference names (start ++ text) ↔ HoldsReference names text := by
  induction start with
  | nil => rfl
  | cons b start ih =>
      rw [List.mem_cons, not_or] at plain
      rw [List.cons_append, holdsReference_cons (Ne.symm plain.1), ih plain.2]

/-! ### Quoted values -/

/-- Text without the quote becomes part of a quoted value. -/
theorem run_quoted {quote : UInt8} {text : Bytes} (plain : quote ∉ text) (isEnd : Bool)
    (element name value : Bytes) (older : List (Bytes × Bytes)) :
    reader.run (.quoted quote ⟨isEnd, element, (name, value) :: older⟩) text =
      (.quoted quote ⟨isEnd, element, (name, value ++ text) :: older⟩, []) := by
  induction text generalizing value with
  | nil => rw [List.append_nil, Transducer.run_nil]
  | cons b text ih =>
      rw [List.mem_cons, not_or] at plain
      have other : (b == quote) = false := beq_eq_false_iff_ne.mpr (Ne.symm plain.1)
      have stepped : reader.step (.quoted quote ⟨isEnd, element, (name, value) :: older⟩) b =
          (.quoted quote ⟨isEnd, element, (name, value ++ [b]) :: older⟩, []) := by
        change (if b == quote then _ else _, []) = _
        rw [other]
        rfl
      rw [Transducer.run_cons, stepped]
      have later := ih plain.2 (value ++ [b])
      rw [List.append_assoc] at later
      exact later

/-! ### An attribute that is read -/

/-- The reader is in a start tag whose first attribute is read. -/
inductive Holds (element : Bytes) (first : Bytes × Bytes) : Reader → Prop where
  | inTag (newer : List (Bytes × Bytes)) : Holds element first (.inTag ⟨false, element, newer ++ [first]⟩)
  | attributeName (a : Bytes × Bytes) (newer : List (Bytes × Bytes)) :
      Holds element first (.attributeName ⟨false, element, a :: (newer ++ [first])⟩)
  | afterName (a : Bytes × Bytes) (newer : List (Bytes × Bytes)) :
      Holds element first (.afterName ⟨false, element, a :: (newer ++ [first])⟩)
  | beforeValue (a : Bytes × Bytes) (newer : List (Bytes × Bytes)) :
      Holds element first (.beforeValue ⟨false, element, a :: (newer ++ [first])⟩)
  | quoted (quote : UInt8) (a : Bytes × Bytes) (newer : List (Bytes × Bytes)) :
      Holds element first (.quoted quote ⟨false, element, a :: (newer ++ [first])⟩)
  | unquoted (a : Bytes × Bytes) (newer : List (Bytes × Bytes)) :
      Holds element first (.unquoted ⟨false, element, a :: (newer ++ [first])⟩)

/-- What a step leaves of such a tag: it is still read, or it is closed and its first attribute stands first.
    -/
def Kept (element : Bytes) (first : Bytes × Bytes) (next : Reader × List Tag) : Prop :=
  (Holds element first next.1 ∧ next.2 = []) ∨ ∃ newer, next.2 = [⟨false, element, first :: newer⟩]

section Held

variable {element : Bytes} {first : Bytes × Bytes}

/-- An element that holds the attribute keeps it. -/
theorem kept_of_holds {r : Reader} (holds : Holds element first r) : Kept element first (r, []) :=
  Or.inl ⟨holds, rfl⟩

/-- Closing the tag keeps the attribute that came first. -/
theorem kept_close (newer : List (Bytes × Bytes)) :
    Kept element first (close ⟨false, element, newer ++ [first]⟩) := by
  refine Or.inr ⟨newer.reverse, ?_⟩
  simp [close, Tag.finished]

/-- A byte behind an attribute name keeps the attribute that came first. -/
theorem kept_behindName (newer : List (Bytes × Bytes)) (b : UInt8) :
    Kept element first (behindName ⟨false, element, newer ++ [first]⟩ b) := by
  unfold behindName
  split
  · exact kept_close newer
  · exact kept_of_holds (.inTag newer)

/-- No byte takes the first attribute of an element away. -/
theorem kept_step {r : Reader} (holds : Holds element first r) (b : UInt8) :
    Kept element first (step r b) := by
  cases holds with
  | inTag newer =>
      rw [step]
      split
      · exact kept_behindName newer b
      · exact kept_of_holds (.attributeName _ newer)
  | attributeName a newer =>
      rw [step]
      split
      · exact kept_of_holds (.afterName a newer)
      · split
        · exact kept_behindName (a :: newer) b
        · split
          · exact kept_of_holds (.beforeValue a newer)
          · exact kept_of_holds (.attributeName _ newer)
  | afterName a newer =>
      rw [step]
      split
      · exact kept_of_holds (.afterName a newer)
      · split
        · exact kept_behindName (a :: newer) b
        · split
          · exact kept_of_holds (.beforeValue a newer)
          · exact kept_of_holds (.attributeName _ (a :: newer))
  | beforeValue a newer =>
      rw [step]
      split
      · exact kept_of_holds (.beforeValue a newer)
      · split
        · exact kept_of_holds (.quoted b a newer)
        · split
          · exact kept_close (a :: newer)
          · exact kept_of_holds (.unquoted _ newer)
  | quoted quote a newer =>
      rw [step]
      split
      · exact kept_of_holds (.inTag (a :: newer))
      · exact kept_of_holds (.quoted quote _ newer)
  | unquoted a newer =>
      rw [step]
      split
      · exact kept_of_holds (.inTag (a :: newer))
      · split
        · exact kept_close (a :: newer)
        · exact kept_of_holds (.unquoted _ newer)

/-- Whatever follows, the first tag that is read then has that attribute first, or none is read. -/
theorem outputs_of_holds {r : Reader} (holds : Holds element first r) (text : Bytes) :
    reader.outputs r text = [] ∨
      ∃ newer later, reader.outputs r text = ⟨false, element, first :: newer⟩ :: later := by
  induction text generalizing r with
  | nil => exact Or.inl rfl
  | cons b text ih =>
      rw [Transducer.outputs_cons]
      rcases kept_step holds b with ⟨still, nothing⟩ | ⟨newer, closed⟩
      · have later := ih still
        change (step r b).2 ++ reader.outputs (step r b).1 text = [] ∨
          ∃ newer later, (step r b).2 ++ reader.outputs (step r b).1 text = ⟨false, element,
            first :: newer⟩ :: later
        rw [nothing, List.nil_append]
        exact later
      · right
        refine ⟨newer, reader.outputs (step r b).1 text, ?_⟩
        change (step r b).2 ++ reader.outputs (step r b).1 text = _
        rw [closed]
        rfl

end Held

/-! ### Long literals -/

/-- A literal is read through its characters. -/
theorem final_literal {s : String} {chars : List Char} (same : s = String.ofList chars) {r r' : Reader}
    (read : reader.final r (chars.map Char.toUInt8) = r') : reader.final r (bytes s) = r' := by
  rw [same, bytes, String.toList_ofList]
  exact read

end Html
