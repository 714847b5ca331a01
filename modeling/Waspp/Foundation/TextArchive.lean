/-
Module: Waspp.Foundation.TextArchive
Layer: Foundation
Purpose: Text archives of lists of pairs of byte strings, in the format of a serialization library: a
  signature, the class information, the number of pairs, and every string behind its length.  `load_save`
  says that loading undoes saving.
Imports: Waspp.Foundation.CString
Trusted boundary: human-reviewed definition of a documented format
Main exports: save, load, load_save
Open obligations: none
-/
import Waspp.Foundation.CString

namespace TextArchive

open CString

/-! ### Writing -/

/-- A string, behind its length. -/
def saveString (s : Bytes) : Bytes := bytes " " ++ toDecimal s.length ++ bytes " " ++ s

/-- A pair of strings. -/
def savePair (pair : Bytes × Bytes) : Bytes := saveString pair.1 ++ saveString pair.2

/-- The signature of an archive, the version of the library and the information on the class of the list. -/
def signature : Bytes := bytes "22 serialization::archive 10 0 0"

/-- The information on the class of the pairs, which stands in front of the first. -/
def pairClass : Bytes := bytes " 0 0"

/-- The archive of a list. -/
def save (pairs : List (Bytes × Bytes)) : Bytes :=
  signature ++ bytes " " ++ toDecimal pairs.length ++ bytes " 0" ++ pairClass ++ pairs.flatMap savePair

/-! ### Reading -/

/-- `is >> n`: the numeral behind the blanks, and what follows it. -/
def readNumber (s : Bytes) : Option (Nat × Bytes) :=
  let s := s.dropWhile isspace
  let digits := s.takeWhile isdigit
  if digits = [] then none else some (scanDigits 10 0 digits, s.drop digits.length)

/-- A string: its length, one byte between, and its bytes. -/
def readString (s : Bytes) : Option (Bytes × Bytes) :=
  match readNumber s with
  | some (n, _ :: rest) => if n ≤ rest.length then some (rest.take n, rest.drop n) else none
  | _ => none

/-- A given text, and what follows it. -/
def readText (text s : Bytes) : Option Bytes :=
  if text.isPrefixOf s then some (s.drop text.length) else none

/-- As many pairs as are counted. -/
def readPairs : Nat → Bytes → Option (List (Bytes × Bytes))
  | 0, _ => some []
  | n + 1, s => do
      let (first, s) ← readString s
      let (second, s) ← readString s
      let pairs ← readPairs n s
      return (first, second) :: pairs

/-- The list of an archive. -/
def load (s : Bytes) : Option (List (Bytes × Bytes)) := do
  let s ← readText signature s
  let (count, s) ← readNumber s
  let s ← readText (bytes " 0") s
  let s ← readText pairClass s
  readPairs count s

/-! ### Loading what was saved -/

/-- A number that was written is read back, if no digit follows it. -/
theorem readNumber_toDecimal (n : Nat) (rest : Bytes) (ends : rest.head?.all fun b => !isdigit b) :
    readNumber (bytes " " ++ toDecimal n ++ rest) = some (n, rest) := by
  have nonempty : toDecimal n ≠ [] := by
    simp [toDecimal, Nat.toDigits_ne_nil]
  have digits : (toDecimal n ++ rest).takeWhile isdigit = toDecimal n := by
    rw [List.takeWhile_append_of_pos fun b member => isdigit_of_mem_toDecimal member]
    cases rest with
    | nil => simp
    | cons b tail =>
        simp only [List.head?_cons, Option.all_some, Bool.not_eq_true'] at ends
        simp [ends]
  have blanks : (bytes " " ++ toDecimal n ++ rest).dropWhile isspace = toDecimal n ++ rest := by
    cases text : toDecimal n with
    | nil => exact absurd text nonempty
    | cons b tail =>
        have digit : isdigit b = true := isdigit_of_mem_toDecimal (n := n) (by simp [text])
        have visible : isspace b = false := by
          have all : ∀ b : UInt8, isdigit b = true → isspace b = false := forall_byte (by decide +kernel)
          exact all b digit
        have space : isspace ' '.toUInt8 = true := rfl
        simp [bytes, space, visible]
  simp only [readNumber, blanks, digits, nonempty, if_false, scanDigits_toDecimal, List.drop_left]

/-- A string is read back by its length, whatever bytes it has. -/
theorem readString_saveString (s rest : Bytes) : readString (saveString s ++ rest) = some (s, rest) := by
  have number : readNumber (saveString s ++ rest) = some (s.length, bytes " " ++ s ++ rest) := by
    have read := readNumber_toDecimal s.length (bytes " " ++ s ++ rest) rfl
    simpa [saveString, List.append_assoc] using read
  rw [readString, number]
  simp [bytes]

/-- A fixed text is read over. -/
theorem readText_append (text rest : Bytes) : readText text (text ++ rest) = some rest := by
  simp [readText]

/-- The pairs are read back in order. -/
theorem readPairs_flatMap (pairs : List (Bytes × Bytes)) (rest : Bytes) :
    readPairs pairs.length (pairs.flatMap savePair ++ rest) = some pairs := by
  induction pairs with
  | nil => rfl
  | cons pair tail ih =>
      simp only [List.length_cons, readPairs, List.flatMap_cons, savePair, List.append_assoc,
        readString_saveString, Option.bind_eq_bind, Option.bind_some]
      rw [ih]
      rfl

/-- Loading undoes saving. -/
theorem load_save (pairs : List (Bytes × Bytes)) : load (save pairs) = some pairs := by
  have number := readNumber_toDecimal pairs.length (bytes " 0" ++ (pairClass ++ pairs.flatMap savePair)) rfl
  have all := readPairs_flatMap pairs []
  rw [List.append_nil] at all
  simp only [load, save, List.append_assoc, readText_append, Option.bind_eq_bind, Option.bind_some]
  rw [List.append_assoc] at number
  simp only [number, Option.bind_some, readText_append, all]

/-- An archive of one pair. -/
example :
    save [(bytes "sess_id", bytes "a b")] =
      bytes "22 serialization::archive 10 0 0 1 0 0 0 7 sess_id 3 a b" := by
  decide

end TextArchive
