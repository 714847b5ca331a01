/-
Module: Waspp.Foundation.Numerals
Layer: Foundation
Purpose: Decimal numerals, and how `strtol` with base 0 reads them.  A leading zero selects base 8, where
  the reading ends at the first digit that is not octal; so a numeral with a leading zero is read as the
  number it denotes only below 8 (`scanDigits_eight_eq_iff`), and every other numeral is read as written.
Imports: Mathlib.Data.List.TakeWhile, Waspp.Foundation.CString
Trusted boundary: none (fully proved)
Main exports: decimalFrom, Numeral, scanDigits_ten, scanDigits_eight_eq_iff, strtol_numeral_le,
  strtol_numeral_eq_iff, strtol_toDecimal, padded, decimalFrom_padded
Open obligations: none
-/
import Mathlib.Data.List.TakeWhile
import Waspp.Foundation.CString

namespace CString

/-- What a decimal digit is worth. -/
def digitNumber (b : UInt8) : Nat := b.toNat - 48

/-- The number that digits denote in base 10, read on from a number before them. -/
def decimalFrom (n : Nat) (v : Bytes) : Nat :=
  v.foldl (fun n b => n * 10 + digitNumber b) n

/-- A text of one or more digits, and the number it denotes in base 10. -/
structure Numeral (v : Bytes) (n : Nat) : Prop where
  nonempty : v ≠ []
  digit : ∀ b ∈ v, isdigit b = true
  value : decimalFrom 0 v = n

@[simp] theorem decimalFrom_nil (n : Nat) : decimalFrom n [] = n := rfl

@[simp] theorem decimalFrom_cons (n : Nat) (b : UInt8) (v : Bytes) :
    decimalFrom n (b :: v) = decimalFrom (n * 10 + digitNumber b) v := by
  simp only [decimalFrom, List.foldl_cons]

/-- Digits are read on from what the digits before them denote. -/
theorem decimalFrom_append (n : Nat) (v w : Bytes) :
    decimalFrom n (v ++ w) = decimalFrom (decimalFrom n v) w := by
  simp only [decimalFrom, List.foldl_append]

/-- `strtol` gives a decimal digit this value. -/
theorem digitValue_of_isdigit {b : UInt8} (digit : isdigit b = true) :
    digitValue b = some (digitNumber b) ∧ digitNumber b < 10 := by
  have range : 48 ≤ b ∧ b ≤ 57 := by simpa [isdigit] using digit
  have number : 48 ≤ b.toNat ∧ b.toNat ≤ 57 := by simpa [UInt8.le_iff_toNat_le] using range
  refine ⟨by simp [digitValue, range, digitNumber], ?_⟩
  unfold digitNumber
  omega

/-- What is not a digit is no digit. -/
theorem ne_of_isdigit {b c : UInt8} (digit : isdigit b = true) (other : isdigit c = false) : b ≠ c := by
  rintro rfl
  simp [digit] at other

/-- A greater number before the same digits makes a greater number. -/
theorem decimalFrom_lt_of_lt {m n : Nat} (less : m < n) (v : Bytes) : decimalFrom m v < decimalFrom n v := by
  induction v generalizing m n with
  | nil => simpa using less
  | cons b v ih =>
      rw [decimalFrom_cons, decimalFrom_cons]
      apply ih
      omega

/-- More digits denote no smaller a number. -/
theorem le_decimalFrom (n : Nat) (v : Bytes) : n ≤ decimalFrom n v := by
  induction v generalizing n with
  | nil => simp
  | cons b v ih =>
      have next := ih (n * 10 + digitNumber b)
      rw [decimalFrom_cons]
      omega

/-! ### Readings of a numeral -/

/-- Base 10 reads the number. -/
theorem scanDigits_ten {v : Bytes} (digit : ∀ b ∈ v, isdigit b = true) (n : Nat) :
    scanDigits 10 n v = decimalFrom n v := by
  induction v generalizing n with
  | nil => rfl
  | cons b v ih =>
      rcases digitValue_of_isdigit (digit b (by simp)) with ⟨value, below⟩
      rw [scanDigits, decimalFrom_cons, ← ih (fun c member => digit c (by simp [member]))]
      simp only [value, below, if_true]

/-- Base 8 reads no more than the number. -/
theorem scanDigits_eight_le {v : Bytes} (digit : ∀ b ∈ v, isdigit b = true) (n : Nat) :
    scanDigits 8 n v ≤ decimalFrom n v := by
  induction v generalizing n with
  | nil => simp [scanDigits]
  | cons b v ih =>
      rcases digitValue_of_isdigit (digit b (by simp)) with ⟨value, below⟩
      rw [scanDigits, decimalFrom_cons]
      simp only [value]
      split
      · calc scanDigits 8 (n * 8 + digitNumber b) v
            ≤ decimalFrom (n * 8 + digitNumber b) v := ih (fun c member => digit c (by simp [member])) _
          _ ≤ decimalFrom (n * 10 + digitNumber b) v := by
              rcases Nat.eq_zero_or_pos n with rfl | positive
              · simp
              · exact Nat.le_of_lt (decimalFrom_lt_of_lt (by omega) v)
      · have rest := le_decimalFrom (n * 10 + digitNumber b) v
        omega

/-- After a digit that counts, base 8 reads less than the number. -/
theorem scanDigits_eight_lt {v : Bytes} (digit : ∀ b ∈ v, isdigit b = true) (nonempty : v ≠ []) {n : Nat}
    (positive : 0 < n) : scanDigits 8 n v < decimalFrom n v := by
  cases v with
  | nil => exact absurd rfl nonempty
  | cons b v =>
      rcases digitValue_of_isdigit (digit b (by simp)) with ⟨value, below⟩
      rw [scanDigits, decimalFrom_cons]
      simp only [value]
      split
      · calc scanDigits 8 (n * 8 + digitNumber b) v
            ≤ decimalFrom (n * 8 + digitNumber b) v :=
              scanDigits_eight_le (fun c member => digit c (by simp [member])) _
          _ < decimalFrom (n * 10 + digitNumber b) v := decimalFrom_lt_of_lt (by omega) v
      · have rest := le_decimalFrom (n * 10 + digitNumber b) v
        omega

/-- Base 8 reads the number itself exactly when it is below 8. -/
theorem scanDigits_eight_eq_iff {v : Bytes} (digit : ∀ b ∈ v, isdigit b = true) :
    scanDigits 8 0 v = decimalFrom 0 v ↔ decimalFrom 0 v < 8 := by
  induction v with
  | nil => simp [scanDigits]
  | cons b v ih =>
      have others : ∀ c ∈ v, isdigit c = true := fun c member => digit c (by simp [member])
      rcases digitValue_of_isdigit (digit b (by simp)) with ⟨value, below⟩
      rw [scanDigits, decimalFrom_cons]
      simp only [value, Nat.zero_mul, Nat.zero_add]
      have reaches := le_decimalFrom (digitNumber b) v
      by_cases octal : digitNumber b < 8
      · rw [if_pos octal]
        rcases Nat.eq_zero_or_pos (digitNumber b) with zero | positive
        · rw [zero]
          exact ih others
        · cases v with
          | nil => simpa [scanDigits] using octal
          | cons c v =>
              have less := scanDigits_eight_lt others (by simp) positive
              have grown := le_decimalFrom (digitNumber b * 10 + digitNumber c) v
              rw [decimalFrom_cons] at less ⊢
              omega
      · rw [if_neg octal]
        omega

/-! ### `strtol` -/

/-- The magnitude read off a numeral: in base 8 behind a leading zero. -/
theorem scanMagnitude_numeral {v : Bytes} {n : Nat} (numeral : Numeral v n) :
    scanMagnitude v = if v.head? = some 48 then scanDigits 8 0 v else n := by
  have value := scanDigits_ten numeral.digit 0
  rw [numeral.value] at value
  unfold scanMagnitude
  split
  case h_1 rest => exact absurd (numeral.digit 120 (by simp)) (by decide)
  case h_2 rest => exact absurd (numeral.digit 88 (by simp)) (by decide)
  case h_3 rest _ _ => simp [scanDigits, digitValue]
  case h_4 _ _ others =>
      have first : v.head? ≠ some 48 := by
        intro zero
        obtain ⟨rest, rfl⟩ := List.head?_eq_some_iff.mp zero
        exact others rest rfl
      rw [if_neg first, value]

/-- A numeral has no sign and no blanks before it. -/
theorem scanNumeral_numeral {v : Bytes} {n : Nat} (numeral : Numeral v n) :
    scanNumeral v = (false, scanMagnitude v) := by
  have whole : cstr v = v := by
    rw [cstr, List.takeWhile_eq_self_iff]
    intro b member
    exact bne_iff_ne.mpr (ne_of_isdigit (numeral.digit b member) (by decide))
  cases v with
  | nil => exact absurd rfl numeral.nonempty
  | cons b rest =>
      have digit := numeral.digit b (by simp)
      have visible : isspace b = false := forall_byte
        (p := fun b => isdigit b = true → isspace b = false) (by decide +kernel) b digit
      rw [scanNumeral, whole, List.dropWhile_cons_of_neg (by simp [visible])]
      split
      case h_1 other same => exact absurd (List.cons.inj same).1 (ne_of_isdigit digit (by decide))
      case h_2 other same => exact absurd (List.cons.inj same).1 (ne_of_isdigit digit (by decide))
      case h_3 => rfl

/-- `strtol` reads a numeral as a number from 0 to the one it denotes. -/
theorem strtol_numeral_le {v : Bytes} {n : Nat} (numeral : Numeral v n) : 0 ≤ strtol v ∧ strtol v ≤ n := by
  have octal := scanDigits_eight_le numeral.digit 0
  rw [numeral.value] at octal
  rw [strtol, scanNumeral_numeral numeral, scanMagnitude_numeral numeral]
  dsimp only
  split <;> omega

/-- It reads the number itself when there is no leading zero or the number is below 8, and else another one.
    -/
theorem strtol_numeral_eq_iff {v : Bytes} {n : Nat} (numeral : Numeral v n) (fits : n < 2 ^ 31) :
    strtol v = n ↔ v.head? ≠ some 48 ∨ n < 8 := by
  have octal := scanDigits_eight_le numeral.digit 0
  have same := scanDigits_eight_eq_iff numeral.digit
  rw [numeral.value] at octal same
  rw [strtol, scanNumeral_numeral numeral, scanMagnitude_numeral numeral]
  dsimp only
  split
  · rename_i zero
    simp only [zero, ne_eq, not_true_eq_false, false_or, ← same]
    omega
  · rename_i other
    simp only [other, ne_eq, not_false_eq_true, true_or, iff_true]
    omega

/-! ### Numbers that are printed -/

/-- A positive number is printed without a leading zero. -/
theorem head_toDecimal {n : Nat} (positive : 0 < n) : (toDecimal n).head? ≠ some 48 := by
  induction n using Nat.strong_induction_on with
  | h n ih =>
      rcases Nat.lt_or_ge n 10 with small | large
      · have all : ∀ d < 10, 0 < d → (toDecimal d).head? ≠ some 48 := by decide
        exact all n small positive
      · have nonempty : toDecimal (n / 10) ≠ [] := by simp [toDecimal, Nat.toDigits_ne_nil]
        rw [toDecimal, Nat.toDigits_of_base_le (by omega) large, List.map_append, ← toDecimal,
          List.head?_append_of_ne_nil _ nonempty]
        exact ih (n / 10) (by omega) (by omega)

/-- A printed number is a numeral of it. -/
theorem numeral_toDecimal (n : Nat) : Numeral (toDecimal n) n where
  nonempty := by simp [toDecimal, Nat.toDigits_ne_nil]
  digit := fun _ member => isdigit_of_mem_toDecimal member
  value := by
    rw [← scanDigits_ten (fun _ member => isdigit_of_mem_toDecimal member), scanDigits_toDecimal]

/-- The text of a number is read as the number. -/
theorem strtol_toDecimal {n : Nat} (fits : n < 2 ^ 63) : strtol (toDecimal n) = n := by
  rcases Nat.eq_zero_or_pos n with rfl | positive
  · decide
  · rw [strtol, scanNumeral_numeral (numeral_toDecimal n), scanMagnitude_numeral (numeral_toDecimal n),
      if_neg (head_toDecimal positive)]
    dsimp only
    omega

/-! ### Padded numerals -/

/-- The last `k` digits of a number, with zeros in front. -/
def padded : Nat → Nat → Bytes
  | 0, _ => []
  | k + 1, n => padded k (n / 10) ++ [UInt8.ofNat (48 + n % 10)]

/-- The last digit of a number, as a byte, as a number and as a character. -/
theorem digit_facts_ofNat (n : Nat) :
    isdigit (UInt8.ofNat (48 + n % 10)) = true ∧ digitNumber (UInt8.ofNat (48 + n % 10)) = n % 10 ∧
      (Nat.digitChar (n % 10)).toUInt8 = UInt8.ofNat (48 + n % 10) := by
  have all : ∀ d < 10, isdigit (UInt8.ofNat (48 + d)) = true ∧ digitNumber (UInt8.ofNat (48 + d)) = d ∧
      (Nat.digitChar d).toUInt8 = UInt8.ofNat (48 + d) := by
    decide
  exact all (n % 10) (Nat.mod_lt n (by omega))

@[simp] theorem length_padded (k n : Nat) : (padded k n).length = k := by
  induction k generalizing n with
  | zero => rfl
  | succ k ih => simp [padded, ih]

/-- A padded number consists of digits. -/
theorem isdigit_of_mem_padded {k n : Nat} : ∀ b ∈ padded k n, isdigit b = true := by
  induction k generalizing n with
  | zero => simp [padded]
  | succ k ih =>
      intro b member
      rcases List.mem_append.mp member with before | last
      · exact ih b before
      · rw [List.mem_singleton.mp last]
        exact (digit_facts_ofNat n).1

/-- A padded numeral denotes its number. -/
theorem decimalFrom_padded {k n : Nat} (fits : n < 10 ^ k) : decimalFrom 0 (padded k n) = n := by
  induction k generalizing n with
  | zero =>
      have zero : n = 0 := by simpa using fits
      rw [zero]
      rfl
  | succ k ih =>
      have fits' : n / 10 < 10 ^ k := by
        rw [pow_succ] at fits
        omega
      rw [padded, decimalFrom_append, ih fits', decimalFrom_cons, decimalFrom_nil, (digit_facts_ofNat n).2.1]
      omega

/-- A decimal text is the padded one of its length. -/
theorem toDecimal_eq_padded {k n : Nat} (least : 10 ^ k ≤ n) (fits : n < 10 ^ (k + 1)) :
    toDecimal n = padded (k + 1) n := by
  induction k generalizing n with
  | zero =>
      have small : n % 10 = n := by omega
      have digit := (digit_facts_ofNat n).2.2
      rw [small] at digit
      simp [toDecimal, Nat.toDigits_of_lt_base (show n < 10 by omega), padded, small, digit]
  | succ k ih =>
      have least' : 10 ^ k ≤ n / 10 := by
        rw [pow_succ] at least
        omega
      have fits' : n / 10 < 10 ^ (k + 1) := by
        rw [pow_succ] at fits
        omega
      have large : 10 ≤ n := by
        have := Nat.one_le_pow k 10 (by omega)
        omega
      rw [toDecimal, Nat.toDigits_of_base_le (by omega) large, List.map_append, ← toDecimal, ih least' fits']
      simp only [List.map_cons, List.map_nil, (digit_facts_ofNat n).2.2]
      rfl

end CString
