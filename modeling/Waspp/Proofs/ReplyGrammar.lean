/-
Module: Waspp.Proofs.ReplyGrammar
Layer: Proofs
Purpose: The grammar of replies, said without the reader.  A dialect says what may stand on the lines of a
  reply and behind the bytes of a bulk string: `protocol` is the dialect of the protocol, and `lenient` the
  one of a reader that takes whatever stands there.  Texts of the protocol are texts of the lenient dialect,
  for the same replies (`ReplyTexts.of_protocol`), and not the other way round.
Imports: Waspp.Foundation.Numerals, Waspp.Model.HiredisRead
Trusted boundary: none (fully proved)
Main exports: SignedNumeral, LineNumber, Dialect, protocol, lenient, Item, ReplyTexts,
  ReplyTexts.of_protocol, ReplyTexts.ends
Open obligations: none
-/
import Waspp.Foundation.Numerals
import Waspp.Model.HiredisRead

namespace Waspp.Hiredis

open CString

/-! ### Numbers

The protocol writes a number as decimal digits, with a sign or without one.  A reader that meets something
else has to take it for some number all the same. -/

/-- What may stand in front of the digits of a number, and the factor that it stands for. -/
inductive Sign : Bytes → Int → Prop
  | none : Sign [] 1
  | plus : Sign ['+'.toUInt8] 1
  | minus : Sign ['-'.toUInt8] (-1)

/-- A number as the protocol writes it. -/
inductive SignedNumeral : Bytes → Int → Prop
  | signed {sign digits mult n} : Sign sign mult → Numeral digits n →
    SignedNumeral (sign ++ digits) (mult * n)

/-- What a line is taken for where a number should stand: a number of the protocol for itself, no digits for
    0, and a line with another byte for -1; what stands behind a CR does not count. -/
inductive LineNumber : Bytes → Int → Prop
  | numeral {line z} : SignedNumeral line z → z.natAbs < 2 ^ 63 → LineNumber line z
  | noDigits {sign mult} : Sign sign mult → LineNumber sign 0
  | cut {line z rest} : LineNumber line z → LineNumber (line ++ '\r'.toUInt8 :: rest) z
  | other {sign digits rest : Bytes} {mult} {c : UInt8} : Sign sign mult → (∀ b ∈ digits, isdigit b = true) →
      decimalFrom 0 digits < 2 ^ 63 → isdigit c = false → c ≠ '\r'.toUInt8 →
      (sign ++ digits = [] → c ≠ '+'.toUInt8 ∧ c ≠ '-'.toUInt8) →
      LineNumber (sign ++ digits ++ c :: rest) (-1)

/-! ### Dialects

What the protocol writes and what the reader takes differ in the lines only: which are numbers, which are
lengths, and what ends a string.  The grammar of replies is one for both. -/

/-- What may stand in the places of a reply that a reader may check or not. -/
structure Dialect where
  /-- The text of a line. -/
  line : Bytes → Prop
  /-- The line of an integer. -/
  integer : Bytes → Int → Prop
  /-- The line that says how long a string is, or how many elements an array has. -/
  size : Bytes → Int → Prop
  /-- The lengths of a string that is nil. -/
  nilString : Int → Prop
  /-- What stands behind the bytes of a string. -/
  ending : Bytes → Prop
  /-- The numbers of elements of an array without elements. -/
  emptyArray : Int → Prop

/-- The protocol, with integers and sizes that a `long long` and a `long` hold. -/
def protocol : Dialect where
  line text := '\r'.toUInt8 ∉ text ∧ '\n'.toUInt8 ∉ text
  integer text z := SignedNumeral text z ∧ z.natAbs < 2 ^ 63
  size text z := (∃ n, Numeral text n ∧ n < 2 ^ 31 ∧ z = n) ∨ text = bytes "-1" ∧ z = -1
  nilString len := len = -1
  ending text := text = crlf
  emptyArray elements := elements = 0

/-- What is taken for a reply by a reader that checks none of it: a line goes up to the first line break, a
    size is cut to 32 bits, a string is nil whose length is negative, two bytes of any kind end a string, and
    an array has no elements when their number is not positive. -/
def lenient : Dialect where
  line text := ¬ crlf <:+: text
  integer := LineNumber
  size text z := ∃ w, LineNumber text w ∧ z = w.bmod (2 ^ 32)
  nilString len := len < 0
  ending text := text.length = 2
  emptyArray elements := elements ≤ 0 ∧ elements ≠ -1

/-! ### Replies

The grammar itself, for a reader that has room for strings and arrays of some sizes and for arrays in arrays
up to some depth. -/

/-- The text of an item of a type, behind its type byte, and what is made of it: the object, or the number of
    elements of an array that is still to be read. -/
inductive Item (d : Dialect) (allocates : Allocator) : ItemType → Bytes → RedisReply ⊕ Nat → Prop
  | error {line} : d.line line → allocates (line.length + 1) →
      Item d allocates .error (line ++ crlf) (.inl (.error line))
  | status {line} : d.line line → allocates (line.length + 1) →
      Item d allocates .status (line ++ crlf) (.inl (.status line))
  | integer {line value} : d.line line → d.integer line value →
      Item d allocates .integer (line ++ crlf) (.inl (.integer value))
  | nilString {line len} : d.line line → d.size line len → d.nilString len →
      Item d allocates .string (line ++ crlf) (.inl .nil)
  | string {line str ending : Bytes} : d.line line → d.size line str.length → str.length + 2 < 2 ^ 31 →
      d.ending ending → allocates (str.length + 1) →
      Item d allocates .string (line ++ crlf ++ (str ++ ending)) (.inl (.string str))
  | nilArray {line} : d.line line → d.size line (-1) → Item d allocates .array (line ++ crlf) (.inl .nil)
  -- The number of elements is kept in a `size_t`.
  | noElements {line elements} : d.line line → d.size line elements → d.emptyArray elements →
      Item d allocates .array (line ++ crlf) (.inl (.array (elements % 2 ^ 64).toNat []))
  | elements {line} {n : Nat} : d.line line → d.size line n → 0 < n → allocates (n * 8) →
      Item d allocates .array (line ++ crlf) (.inr n)

/-- The byte that stands in front of an item of a type. -/
def typeByte : ItemType → UInt8
  | .error => '-'.toUInt8
  | .status => '+'.toUInt8
  | .integer => ':'.toUInt8
  | .string => '$'.toUInt8
  | .array => '*'.toUInt8

/-- The texts of a list of replies, one after another, with arrays nested at most `depth` deep. -/
inductive ReplyTexts (d : Dialect) (allocates : Allocator) : Nat → List RedisReply → Bytes → Prop
  | nil {depth} : ReplyTexts d allocates depth [] []
  | object {depth type text reply replies rest} : (type = .array → depth ≠ 0) →
    Item d allocates type text (.inl reply) → ReplyTexts d allocates depth replies rest →
      ReplyTexts d allocates depth (reply :: replies) (typeByte type :: (text ++ rest))
  | elements {depth text element body replies rest} : Item d allocates .array text (.inr element.length) →
      ReplyTexts d allocates depth element body → ReplyTexts d allocates (depth + 1) replies rest →
      ReplyTexts d allocates (depth + 1) (.array element.length element :: replies)
        (typeByte .array :: (text ++ (body ++ rest)))

variable {d e : Dialect} {allocates : Allocator}

/-- Texts of replies are joined. -/
theorem ReplyTexts.append {depth : Nat} {first second : List RedisReply} {one two : Bytes}
    (left : ReplyTexts d allocates depth first one) (right : ReplyTexts d allocates depth second two) :
    ReplyTexts d allocates depth (first ++ second) (one ++ two) := by
  induction left with
  | nil => exact right
  | object room item _ ih =>
      rw [List.cons_append, List.cons_append, List.append_assoc]
      exact .object room item (ih right)
  | elements item inside _ _ ih =>
      rw [List.cons_append, List.cons_append, List.append_assoc, List.append_assoc]
      exact .elements item inside (ih right)

/-! ### A wider dialect has more texts -/

/-- What the one dialect allows, the other allows too. -/
structure Dialect.Within (d e : Dialect) : Prop where
  line : ∀ {text}, d.line text → e.line text
  integer : ∀ {text z}, d.integer text z → e.integer text z
  size : ∀ {text z}, d.size text z → e.size text z
  nilString : ∀ {len}, d.nilString len → e.nilString len
  ending : ∀ {text}, d.ending text → e.ending text
  emptyArray : ∀ {elements}, d.emptyArray elements → e.emptyArray elements

/-- An item of one dialect is one of a wider dialect. -/
theorem Item.mono (within : d.Within e) {type : ItemType} {text : Bytes} {result : RedisReply ⊕ Nat}
    (item : Item d allocates type text result) : Item e allocates type text result := by
  cases item with
  | error plain fits => exact .error (within.line plain) fits
  | status plain fits => exact .status (within.line plain) fits
  | integer plain number => exact .integer (within.line plain) (within.integer number)
  | nilString plain size nil =>
      exact .nilString (within.line plain) (within.size size) (within.nilString nil)
  | string plain size short ending fits =>
      exact .string (within.line plain) (within.size size) short (within.ending ending) fits
  | nilArray plain size => exact .nilArray (within.line plain) (within.size size)
  | noElements plain size none =>
      exact .noElements (within.line plain) (within.size size) (within.emptyArray none)
  | elements plain size some fits => exact .elements (within.line plain) (within.size size) some fits

/-- The same replies have the text in the wider dialect. -/
theorem ReplyTexts.mono (within : d.Within e) {depth : Nat} {replies : List RedisReply} {text : Bytes}
    (texts : ReplyTexts d allocates depth replies text) : ReplyTexts e allocates depth replies text := by
  induction texts with
  | nil => exact .nil
  | object room item _ ih => exact .object room (item.mono within) ih
  | elements item _ _ inside rest => exact .elements (item.mono within) inside rest

/-- The length of a nil is a number of the reader. -/
theorem lineNumber_minus_one : LineNumber (bytes "-1") (-1) := by
  have digits : Numeral (bytes "1") 1 := ⟨by decide, List.forall_mem_singleton.mpr (by decide), rfl⟩
  exact .numeral (.signed .minus digits) (by omega)

/-- What the protocol allows is taken for what it is. -/
theorem protocol_within : protocol.Within lenient where
  line := by
    rintro text ⟨noReturn, -⟩ ⟨front, behind, rfl⟩
    exact noReturn (by simp [crlf])
  integer number := .numeral number.1 number.2
  size := by
    rintro text z (⟨n, numeral, fits, rfl⟩ | ⟨rfl, rfl⟩)
    · have whole : LineNumber text ((1 : Int) * n) := .numeral (.signed .none numeral) (by omega)
      exact ⟨(1 : Int) * n, whole, by rw [Int.one_mul, Int.bmod_eq_of_le] <;> omega⟩
    · exact ⟨-1, lineNumber_minus_one, by decide⟩
  nilString := by
    rintro len rfl
    exact Int.negSucc_lt_zero 0
  ending := by
    rintro text rfl
    rfl
  emptyArray := by
    rintro elements rfl
    exact ⟨Int.le_refl 0, by decide⟩

/-- An item ends with a line break, if a string does. -/
theorem Item.ends (broken : ∀ {text}, d.ending text → crlf <:+ text) {type : ItemType} {text : Bytes}
    {result : RedisReply ⊕ Nat} (item : Item d allocates type text result) : crlf <:+ text := by
  cases item with
  | string plain size short ending fits =>
      exact (broken ending).trans ((List.suffix_append ..).trans (List.suffix_append ..))
  | _ => exact List.suffix_append ..

/-- Where items and what follows them end with a line break, all of it does. -/
theorem suffix_cons_append {item rest : Bytes} {byte : UInt8} (here : crlf <:+ item)
    (later : rest = [] ∨ crlf <:+ rest) :
    crlf <:+ byte :: (item ++ rest) := by
  apply List.IsSuffix.trans _ (List.suffix_cons ..)
  rcases later with rfl | later
  · rwa [List.append_nil]
  · exact later.trans (List.suffix_append ..)

/-- Unless there are no replies, their text ends with a line break. -/
theorem ReplyTexts.ends {depth : Nat} {replies : List RedisReply} {text : Bytes}
    (texts : ReplyTexts protocol allocates depth replies text) : text = [] ∨ crlf <:+ text := by
  have broken : ∀ {text}, protocol.ending text → crlf <:+ text := by
    rintro text rfl
    exact List.suffix_rfl
  induction texts with
  | nil => exact Or.inl rfl
  | object _ item _ ih => exact Or.inr (suffix_cons_append (item.ends broken) ih)
  | @elements depth text element body replies rest item _ _ inside ih =>
      refine Or.inr (suffix_cons_append (item.ends broken) ?_)
      rcases ih with rfl | later
      · rwa [List.append_nil]
      · exact Or.inr (later.trans (List.suffix_append ..))

end Waspp.Hiredis
