/-
Module: Waspp.Foundation.Framing
Layer: Foundation
Purpose: Messages framed as in HTTP: a start line, header fields one a line, an empty line, and a body
  whose length is the decimal number of a field.  `writeMessage` puts a message on the wire and
  `readMessage` takes it off: when no line break is inside a line and the number is that of the body,
  reading gives the message back and leaves what follows it.
Imports: Waspp.Foundation.CString
Trusted boundary: none (fully proved)
Main exports: PlainText, Field, Message, writeMessage, readMessage, Message.Sound, readMessage_writeMessage
Open obligations: none
-/
import Waspp.Foundation.CString

namespace Framing

open CString

/-- The text has neither CR nor LF. -/
def PlainText (text : Bytes) : Prop := '\r'.toUInt8 ∉ text ∧ '\n'.toUInt8 ∉ text

instance (text : Bytes) : Decidable (PlainText text) := inferInstanceAs (Decidable (_ ∧ _))

theorem plainText_nil : PlainText [] := by decide

/-- Plain texts join to a plain text. -/
theorem PlainText.append {one two : Bytes} (first : PlainText one) (second : PlainText two) :
    PlainText (one ++ two) := by
  simp only [PlainText, List.mem_append, not_or]
  exact ⟨⟨first.1, second.1⟩, first.2, second.2⟩

/-- A text all of whose bytes are of a kind that has neither CR nor LF. -/
theorem plainText_of_forall {text : Bytes} {p : UInt8 → Prop} (all : ∀ b ∈ text, p b) (cr : ¬ p '\r'.toUInt8)
    (lf : ¬ p '\n'.toUInt8) : PlainText text :=
  ⟨fun member => cr (all _ member), fun member => lf (all _ member)⟩

/-- A printed number has no line break. -/
theorem plainText_toDecimal (n : Nat) : PlainText (toDecimal n) := by
  apply plainText_of_forall (p := fun b => isdigit b = true)
    (fun b member => isdigit_of_mem_toDecimal member)
  · decide
  · decide

/-! ### Messages -/

/-- A header field: its name and its value. -/
abbrev Field := Bytes × Bytes

/-- A message. -/
structure Message where
  startLine : Bytes
  fields : List Field
  body : Bytes
deriving DecidableEq, Repr

/-- The line break. -/
def lineBreak : Bytes := ['\r'.toUInt8, '\n'.toUInt8]

/-- A header line. -/
def writeField (field : Field) : Bytes := field.1 ++ bytes ": " ++ field.2 ++ lineBreak

/-- The bytes of a message. -/
def writeMessage (m : Message) : Bytes :=
  m.startLine ++ lineBreak ++ m.fields.flatMap writeField ++ lineBreak ++ m.body

/-- The next line and what follows its line break. -/
def readLine : Bytes → Option (Bytes × Bytes)
  | [] => none
  | b :: rest =>
      match b, rest with
      | 13, 10 :: rest' => some ([], rest')
      | b, rest => (readLine rest).map fun line => (b :: line.1, line.2)

/-- The name of a header line and its value. -/
def readField (line : Bytes) : Option Field :=
  let name := line.takeWhile (· ≠ ':'.toUInt8)
  match line.drop name.length with
  | 58 :: 32 :: value => some (name, value)
  | _ => none

/-- The header lines up to the empty line, with the rounds left. -/
def readFields : Nat → Bytes → Option (List Field × Bytes)
  | 0, _ => none
  | rounds + 1, text => do
      let (line, rest) ← readLine text
      if line.isEmpty then some ([], rest)
      else
        let field ← readField line
        let (fields, body) ← readFields rounds rest
        some (field :: fields, body)

/-- The number of the field of that name. -/
def bodyLength (lengthName : Bytes) (fields : List Field) : Option Nat :=
  (fields.find? fun field => field.1 = lengthName).map fun field => scanDigits 10 0 field.2

/-- Take a message off the wire: the message, and what follows it. -/
def readMessage (lengthName text : Bytes) : Option (Message × Bytes) := do
  let (startLine, rest) ← readLine text
  let (fields, rest) ← readFields (rest.length + 1) rest
  let length ← bodyLength lengthName fields
  if length ≤ rest.length then some (⟨startLine, fields, rest.take length⟩, rest.drop length) else none

/-- The lines of a message have no line break inside, no name is empty or has a colon, and exactly one field
    is named as the length, which is the decimal number of the body's. -/
structure Message.Sound (lengthName : Bytes) (m : Message) : Prop where
  startLine : PlainText m.startLine
  names : ∀ field ∈ m.fields, PlainText field.1 ∧ field.1 ≠ [] ∧ ':'.toUInt8 ∉ field.1
  values : ∀ field ∈ m.fields, PlainText field.2
  length : m.fields.filter (fun field => field.1 = lengthName) = [(lengthName, toDecimal m.body.length)]

/-! ### Reading back -/

/-- A line is read up to its break. -/
theorem readLine_append {line : Bytes} (plain : PlainText line) (rest : Bytes) :
    readLine (line ++ lineBreak ++ rest) = some (line, rest) := by
  induction line with
  | nil => rfl
  | cons b line ih =>
      have tail : PlainText line :=
        ⟨fun member => plain.1 (List.mem_cons_of_mem _ member),
          fun member => plain.2 (List.mem_cons_of_mem _ member)⟩
      have other : b ≠ 13 := fun same => plain.1 (same ▸ List.mem_cons_self ..)
      rw [List.cons_append, List.cons_append, readLine]
      · rw [ih tail]
        rfl
      · intro rest' same
        exact absurd same other

/-- A field is read back, name and value. -/
theorem readField_append {name value : Bytes} (named : ':'.toUInt8 ∉ name) :
    readField (name ++ bytes ": " ++ value) = some (name, value) := by
  have taken : (name ++ bytes ": " ++ value).takeWhile (· ≠ ':'.toUInt8) = name := by
    rw [List.append_assoc, List.takeWhile_append_of_pos]
    · simp [bytes]
    · intro b member
      simp only [ne_eq, decide_eq_true_eq]
      exact fun same => named (same ▸ member)
  unfold readField
  simp only [taken]
  rw [List.append_assoc, List.drop_left]
  rfl

/-- The written fields are read back up to the empty line. -/
theorem readFields_writeField {fields : List Field} {rounds : Nat} (enough : fields.length < rounds)
    (names : ∀ field ∈ fields, PlainText field.1 ∧ field.1 ≠ [] ∧ ':'.toUInt8 ∉ field.1)
    (values : ∀ field ∈ fields, PlainText field.2) (rest : Bytes) :
    readFields rounds (fields.flatMap writeField ++ lineBreak ++ rest) = some (fields, rest) := by
  induction fields generalizing rounds with
  | nil =>
      cases rounds with
      | zero => exact absurd enough (Nat.lt_irrefl 0)
      | succ rounds =>
          have line := readLine_append plainText_nil rest
          rw [List.nil_append] at line
          rw [List.flatMap_nil, List.nil_append, readFields, line]
          rfl
  | cons field fields ih =>
      cases rounds with
      | zero => exact absurd enough (Nat.not_lt_zero _)
      | succ rounds =>
          have name := names field (List.mem_cons_self ..)
          have plain : PlainText (field.1 ++ bytes ": " ++ field.2) :=
            (name.1.append (by decide)).append (values field (List.mem_cons_self ..))
          have line := readLine_append plain (fields.flatMap writeField ++ lineBreak ++ rest)
          have later := ih (Nat.lt_of_succ_lt_succ enough)
              (fun other member => names other (List.mem_cons_of_mem _ member))
            (fun other member => values other (List.mem_cons_of_mem _ member))
          have whole : (field :: fields).flatMap writeField ++ lineBreak ++ rest =
              (field.1 ++ bytes ": " ++ field.2) ++ lineBreak ++
              (fields.flatMap writeField ++ lineBreak ++ rest) := by
            simp only [List.flatMap_cons, writeField, List.append_assoc]
          have nonempty : (field.1 ++ bytes ": " ++ field.2).isEmpty = false := by
            rw [List.isEmpty_eq_false_iff]
            simp [name.2.1]
          rw [whole, readFields, line]
          simp only [Option.bind_eq_bind, Option.bind_some, nonempty, Bool.false_eq_true, if_false,
            readField_append name.2.2, later]

/-- Reading a sound message gives it back, whatever follows it. -/
theorem readMessage_writeMessage {lengthName : Bytes} {m : Message} (sound : m.Sound lengthName)
    (rest : Bytes) :
    readMessage lengthName (writeMessage m ++ rest) = some (m, rest) := by
  have first : bodyLength lengthName m.fields = some m.body.length := by
    have found : m.fields.find? (fun field => decide (field.1 = lengthName)) =
        some (lengthName, toDecimal m.body.length) := by
      rw [← List.head?_filter, sound.length]
      rfl
    rw [bodyLength, found, Option.map_some, scanDigits_toDecimal]
  have lines : ∀ fields : List Field, fields.length ≤ (fields.flatMap writeField).length := by
    intro fields
    induction fields with
    | nil => exact Nat.le_refl 0
    | cons field fields ih =>
        simp only [List.flatMap_cons, List.length_append, List.length_cons, writeField, lineBreak]
        omega
  have whole : writeMessage m ++ rest =
      m.startLine ++ lineBreak ++ (m.fields.flatMap writeField ++ lineBreak ++ (m.body ++ rest)) := by
    simp only [writeMessage, List.append_assoc]
  have enough :
      m.fields.length < (m.fields.flatMap writeField ++ lineBreak ++ (m.body ++ rest)).length + 1 := by
    have few := lines m.fields
    simp only [List.length_append]
    omega
  have fields := readFields_writeField enough sound.names sound.values (m.body ++ rest)
  rw [whole, readMessage, readLine_append sound.startLine]
  simp only [Option.bind_eq_bind, Option.bind_some, fields, first]
  rw [if_pos (by simp), List.take_left, List.drop_left]

end Framing
