/-
Module: Waspp.Foundation.CString
Layer: Foundation
Purpose: The parts of the C and C++ string libraries that programs over byte strings are written with:
  character classes in the "C" locale, C strings cut at their first NUL, `strtol` and `strtoul` with
  base 0, and the search and slicing members of `std::string`.  A position that the library reports as
  `npos` is `none` here.  Each search has one specification lemma (`find_eq_some_iff`,
  `findIf_eq_some_iff` and their `none` forms), which is all that proofs about callers use.
Imports: Mathlib.Algebra.Group.Int.Defs, Mathlib.Algebra.Group.Nat.Defs, Mathlib.Data.List.Basic,
  Mathlib.Data.List.Infix
Trusted boundary: human-reviewed definitions of documented library functions
Main exports: Bytes, bytes, charInt, wrapInt, cstr, strtol, strtoul, toDecimal, find, findIf, substr
Open obligations: none
-/
import Mathlib.Algebra.Group.Int.Defs
import Mathlib.Algebra.Group.Nat.Defs
import Mathlib.Data.List.Basic
import Mathlib.Data.List.Infix

namespace CString

/-- The contents of a `std::string`. -/
abbrev Bytes := List UInt8

/-- The bytes of an ASCII literal. -/
def bytes (s : String) : Bytes :=
  s.toList.map fun c => c.toUInt8

/-- The value of a `char` promoted to `int`, with `char` signed. -/
def charInt (c : UInt8) : Int :=
  if c.toNat < 128 then c.toNat else (c.toNat : Int) - 256

/-- Conversion of an integer to a 32-bit `int`. -/
def wrapInt (z : Int) : Int :=
  z.bmod (2 ^ 32)

/-- Truncation to a 32-bit `unsigned int`. -/
def wrapUnsigned (n : Nat) : Nat :=
  n % 2 ^ 32

/-- What holds of the 256 bytes holds of every byte. -/
theorem forall_byte {p : UInt8 → Prop} (all : ∀ n : Fin 256, p (UInt8.ofNat n)) (b : UInt8) : p b := by
  have same : UInt8.ofNat b.toNat = b := UInt8.ofNat_toNat
  exact same ▸ all ⟨b.toNat, b.toNat_lt⟩

/-- A text is cut at the first place of a byte in one way. -/
theorem first_cut_unique {c : UInt8} {before before' after after' : Bytes} (first : c ∉ before)
    (first' : c ∉ before')
    (same : before ++ c :: after = before' ++ c :: after') : before = before' ∧ after = after' := by
  rcases List.append_eq_append_iff.mp same with ⟨between, rfl, cut⟩ | ⟨between, rfl, cut⟩
  · cases between with
    | nil => simpa using cut
    | cons b between =>
        obtain ⟨rfl, -⟩ := List.cons.inj cut
        simp at first'
  · cases between with
    | nil => simpa using cut.symm
    | cons b between =>
        obtain ⟨rfl, -⟩ := List.cons.inj cut
        simp at first

/-! ### Character classes -/

/-- `isspace` in the "C" locale. -/
def isspace (c : UInt8) : Bool :=
  c == 32 || (9 ≤ c && c ≤ 13)

/-- `isdigit`. -/
def isdigit (c : UInt8) : Bool :=
  48 ≤ c && c ≤ 57

/-- `toupper` in the "C" locale. -/
def toupper (c : UInt8) : UInt8 :=
  if 97 ≤ c && c ≤ 122 then c - 32 else c

/-- `tolower` in the "C" locale. -/
def tolower (c : UInt8) : UInt8 :=
  if 65 ≤ c && c ≤ 90 then c + 32 else c

/-- The value of a digit in a base up to 36. -/
def digitValue (c : UInt8) : Option Nat :=
  if 48 ≤ c && c ≤ 57 then some (c.toNat - 48)
  else if 65 ≤ c && c ≤ 90 then some (c.toNat - 55)
  else if 97 ≤ c && c ≤ 122 then some (c.toNat - 87)
  else none

/-- `isxdigit`. -/
def isxdigit (c : UInt8) : Bool :=
  match digitValue c with
  | some d => d < 16
  | none => false

/-! ### C strings and numerals -/

/-- The C string that starts at a `std::string`'s first byte: its bytes before the first NUL. -/
def cstr (s : Bytes) : Bytes :=
  s.takeWhile (· != 0)

/-- The value of the longest prefix of digits of the base, read from left to right. -/
def scanDigits (base : Nat) : Nat → Bytes → Nat
  | acc, [] => acc
  | acc, c :: rest =>
      match digitValue c with
      | some d => if d < base then scanDigits base (acc * base + d) rest else acc
      | none => acc

/-- The magnitude read with base 0: a prefix `0x` selects base 16, a leading `0` base 8. -/
def scanMagnitude : Bytes → Nat
  | 48 :: 120 :: rest => scanDigits 16 0 rest
  | 48 :: 88 :: rest => scanDigits 16 0 rest
  | 48 :: rest => scanDigits 8 0 rest
  | s => scanDigits 10 0 s

/-- The sign (`true` for minus) and magnitude of the numeral at the front of a C string. -/
def scanNumeral (s : Bytes) : Bool × Nat :=
  match (cstr s).dropWhile isspace with
  | 45 :: rest => (true, scanMagnitude rest)
  | 43 :: rest => (false, scanMagnitude rest)
  | rest => (false, scanMagnitude rest)

/-- `strtol(s, nullptr, 0)` for a 64-bit `long`. -/
def strtol (s : Bytes) : Int :=
  match scanNumeral s with
  | (true, n) => max (-(n : Int)) (-2 ^ 63)
  | (false, n) => min (n : Int) (2 ^ 63 - 1)

/-- `strtoul(s, nullptr, 0)` for a 64-bit `unsigned long`. -/
def strtoul (s : Bytes) : Nat :=
  match scanNumeral s with
  | (true, n) => if n < 2 ^ 64 then (2 ^ 64 - n) % 2 ^ 64 else 2 ^ 64 - 1
  | (false, n) => min n (2 ^ 64 - 1)

/-- `std::to_string` of a nonnegative integer. -/
def toDecimal (n : Nat) : Bytes :=
  (Nat.toDigits 10 n).map fun c => c.toUInt8

/-- A decimal digit stays one as a byte, with the same value. -/
theorem charToByte_isDigit {c : Char} (digit : c.isDigit = true) :
    isdigit c.toUInt8 = true ∧ digitValue c.toUInt8 = some (c.toNat - 48) := by
  have range : 48 ≤ c.toNat ∧ c.toNat ≤ 57 := by
    simpa [Char.isDigit, Char.le_def, UInt32.le_iff_toNat_le] using digit
  have all : ∀ n : Fin 10, isdigit (UInt8.ofNat (48 + n)) = true ∧
      digitValue (UInt8.ofNat (48 + n)) = some ((48 + n : Nat) - 48) := by
    decide
  have here := all ⟨c.toNat - 48, by omega⟩
  have sum : 48 + (c.toNat - 48) = c.toNat := by omega
  simp only [sum] at here
  exact here

/-- The digits of a decimal text are digits. -/
theorem isdigit_of_mem_toDecimal {n : Nat} {b : UInt8} (member : b ∈ toDecimal n) : isdigit b = true := by
  rcases List.mem_map.mp member with ⟨c, digit, rfl⟩
  exact (charToByte_isDigit (Nat.isDigit_of_mem_toDigits (by omega) (by omega) digit)).1

/-- Digits scan to the number that `Nat.ofDigitChars` reads. -/
theorem scanDigits_map {chars : List Char} (digits : ∀ c ∈ chars, c.isDigit = true) (acc : Nat) :
    scanDigits 10 acc (chars.map fun c => c.toUInt8) = Nat.ofDigitChars 10 chars acc := by
  induction chars generalizing acc with
  | nil => simp [scanDigits]
  | cons c rest ih =>
      have value := (charToByte_isDigit (digits c (by simp))).2
      have small : c.toNat - 48 < 10 := by
        have digit := digits c (by simp)
        have range : 48 ≤ c.toNat ∧ c.toNat ≤ 57 := by
          simpa [Char.isDigit, Char.le_def, UInt32.le_iff_toNat_le] using digit
        omega
      rw [List.map_cons, scanDigits]
      simp only [value, small, if_true]
      rw [ih (fun d member => digits d (by simp [member])), Nat.ofDigitChars_cons, Nat.mul_comm]
      rfl

/-- The decimal text of a number is read as the number. -/
theorem scanDigits_toDecimal (n : Nat) : scanDigits 10 0 (toDecimal n) = n := by
  rw [toDecimal, scanDigits_map fun c digit => Nat.isDigit_of_mem_toDigits (by omega) (by omega) digit,
    Nat.ofDigitChars_ten_toDigits]

/-! ### Search and slicing -/

section Search

variable {α : Type*}

/-- First position at which `test` holds of the remaining list, counted from `i`. -/
def findFrom (test : List α → Bool) (i : Nat) : List α → Option Nat
  | [] => if test [] then some i else none
  | a :: rest => if test (a :: rest) then some i else findFrom test (i + 1) rest

/-- A search gives the first place at which the test holds, counted from where it began. -/
theorem findFrom_eq_some_iff {test : List α → Bool} {i p : Nat} {s : List α} :
    findFrom test i s = some p ↔
      i ≤ p ∧ p - i ≤ s.length ∧ test (s.drop (p - i)) = true ∧
        ∀ q, i ≤ q → q < p → test (s.drop (q - i)) = false := by
  induction s generalizing i with
  | nil =>
      by_cases h : test []
      · simp only [findFrom, h, if_true, Option.some.injEq, List.drop_nil, List.length_nil, true_and]
        constructor
        · rintro rfl
          exact ⟨Nat.le_refl _, by omega, fun q le lt => absurd lt (by omega)⟩
        · rintro ⟨le, zero, -⟩
          omega
      · simp [findFrom, h]
  | cons a rest ih =>
      by_cases h : test (a :: rest)
      · simp only [findFrom, h, if_true, Option.some.injEq]
        constructor
        · rintro rfl
          exact ⟨Nat.le_refl _, by simp, by simpa using h, fun q le lt => absurd lt (by omega)⟩
        · rintro ⟨le, -, -, before⟩
          by_contra ne
          have := before i (Nat.le_refl i) (by omega)
          simp [h] at this
      · simp only [findFrom, h, Bool.false_eq_true, if_false, ih]
        constructor
        · rintro ⟨le, bound, found, before⟩
          obtain ⟨k, rfl⟩ : ∃ k, p = i + 1 + k := ⟨p - (i + 1), by omega⟩
          refine ⟨by omega, by simp; omega, ?_, ?_⟩
          · rw [show i + 1 + k - i = k + 1 by omega, List.drop_succ_cons]
            simpa using found
          · intro q ge lt
            rcases Nat.eq_or_lt_of_le ge with rfl | gt
            · simpa using h
            · rw [show q - i = (q - (i + 1)) + 1 by omega, List.drop_succ_cons]
              exact before q gt lt
        · rintro ⟨le, bound, found, before⟩
          rcases Nat.eq_or_lt_of_le le with rfl | lt
          · simp [h] at found
          · refine ⟨lt, by simp at bound; omega, ?_, ?_⟩
            · rw [show p - i = (p - (i + 1)) + 1 by omega, List.drop_succ_cons] at found
              exact found
            · intro q ge before'
              have := before q (by omega) before'
              rwa [show q - i = (q - (i + 1)) + 1 by omega, List.drop_succ_cons] at this

/-- A search that finds nothing has failed the test at every place. -/
theorem findFrom_eq_none_iff {test : List α → Bool} {i : Nat} {s : List α} :
    findFrom test i s = none ↔ ∀ q ≤ s.length, test (s.drop q) = false := by
  induction s generalizing i with
  | nil => by_cases h : test [] <;> simp [findFrom, h]
  | cons a rest ih =>
      by_cases h : test (a :: rest)
      · simp only [findFrom, h, if_true, reduceCtorEq, false_iff, not_forall]
        exact ⟨0, by simp, by simp [h]⟩
      · simp only [findFrom, h, Bool.false_eq_true, if_false, ih, List.length_cons]
        constructor
        · intro none q bound
          cases q with
          | zero => simpa using h
          | succ q => simpa using none q (by omega)
        · intro none q bound
          simpa using none (q + 1) (by omega)

variable [BEq α]

/-- `s.find(pat, start)`. -/
def find (s pat : List α) (start : Nat) : Option Nat :=
  if start ≤ s.length then findFrom pat.isPrefixOf start (s.drop start) else none

/-- Position of the first element from `start` on that satisfies `test`:
    `s.find_first_of(chars, start)` with `test` the membership in `chars`. -/
def findIf (s : List α) (test : α → Bool) (start : Nat) : Option Nat :=
  if start ≤ s.length then findFrom (fun r => r.head?.any test) start (s.drop start) else none

/-- `find` returns the first occurrence at or after the start. -/
theorem find_eq_some_iff [LawfulBEq α] {s pat : List α} {start p : Nat} :
    find s pat start = some p ↔
      start ≤ p ∧ p ≤ s.length ∧ pat <+: s.drop p ∧
        ∀ q, start ≤ q → q < p → ¬ pat <+: s.drop q := by
  unfold find
  split
  · rename_i bound
    rw [findFrom_eq_some_iff]
    constructor
    · rintro ⟨le, len, found, before⟩
      rw [List.drop_drop, show start + (p - start) = p by omega] at found
      refine ⟨le, by simp at len; omega, by simpa using found, ?_⟩
      intro q ge lt
      have := before q ge lt
      rw [List.drop_drop, show start + (q - start) = q by omega] at this
      simpa [← List.isPrefixOf_iff_prefix] using this
    · rintro ⟨le, len, found, before⟩
      refine ⟨le, by simp; omega, ?_, ?_⟩
      · rw [List.drop_drop, show start + (p - start) = p by omega]
        simpa using found
      · intro q ge lt
        rw [List.drop_drop, show start + (q - start) = q by omega]
        simpa [← List.isPrefixOf_iff_prefix] using before q ge lt
  · rename_i bound
    constructor
    · intro impossible
      cases impossible
    · rintro ⟨le, len, -⟩
      omega

/-- `find` fails when the pattern does not occur at or after the start. -/
theorem find_eq_none_iff [LawfulBEq α] {s pat : List α} {start : Nat} :
    find s pat start = none ↔ ∀ q, start ≤ q → q ≤ s.length → ¬ pat <+: s.drop q := by
  unfold find
  split
  · rename_i bound
    rw [findFrom_eq_none_iff]
    constructor
    · intro none q ge le
      have := none (q - start) (by simp; omega)
      rw [List.drop_drop, show start + (q - start) = q by omega] at this
      simpa [← List.isPrefixOf_iff_prefix] using this
    · intro none q le
      rw [List.drop_drop]
      have := none (start + q) (by omega) (by simp at le; omega)
      simpa [← List.isPrefixOf_iff_prefix] using this
  · rename_i bound
    exact ⟨fun _ q ge le => absurd ge (by omega), fun _ => rfl⟩

/-- An occurrence that `find` reports fits inside the string. -/
theorem find_bounds [LawfulBEq α] {s pat : List α} {start p : Nat}
    (found : find s pat start = some p) : start ≤ p ∧ p + pat.length ≤ s.length := by
  obtain ⟨le, len, occurs, -⟩ := find_eq_some_iff.mp found
  have := occurs.length_le
  simp at this
  exact ⟨le, by omega⟩

/-- `find` succeeds from the start exactly when the pattern occurs. -/
theorem find_isSome_iff [LawfulBEq α] {s pat : List α} : (find s pat 0).isSome = true ↔ pat <:+: s := by
  constructor
  · intro some
    obtain ⟨p, found⟩ := Option.isSome_iff_exists.mp some
    obtain ⟨-, -, occurs, -⟩ := find_eq_some_iff.mp found
    exact occurs.isInfix.trans (List.drop_suffix p s).isInfix
  · intro occurs
    obtain ⟨before, after, rfl⟩ := occurs
    rw [Option.isSome_iff_ne_none]
    intro none
    refine find_eq_none_iff.mp none before.length (Nat.zero_le _) (by simp) ?_
    rw [List.append_assoc, List.drop_left]
    exact List.prefix_append pat after

omit [BEq α] in
/-- `findIf` returns the first matching element at or after the start. -/
theorem findIf_eq_some_iff {s : List α} {test : α → Bool} {start p : Nat} :
    findIf s test start = some p ↔
      start ≤ p ∧ (∃ a, s[p]? = some a ∧ test a = true) ∧
        ∀ q a, start ≤ q → q < p → s[q]? = some a → test a = false := by
  unfold findIf
  have head : ∀ q, ((s.drop q).head?.any test = true) = ∃ a, s[q]? = some a ∧ test a = true := by
    intro q
    simp [List.head?_drop, Option.any_eq_true]
  split
  · rename_i bound
    rw [findFrom_eq_some_iff]
    constructor
    · rintro ⟨le, len, found, before⟩
      rw [List.drop_drop, show start + (p - start) = p by omega, head] at found
      refine ⟨le, found, ?_⟩
      intro q a ge lt elem
      have := before q ge lt
      rw [List.drop_drop, show start + (q - start) = q by omega, List.head?_drop, elem] at this
      simpa using this
    · rintro ⟨le, found, before⟩
      have inside : p < s.length := by
        obtain ⟨a, elem, -⟩ := found
        exact (List.getElem?_eq_some_iff.mp elem).1
      refine ⟨le, by simp; omega, ?_, ?_⟩
      · rwa [List.drop_drop, show start + (p - start) = p by omega, head]
      · intro q ge lt
        rw [List.drop_drop, show start + (q - start) = q by omega, List.head?_drop]
        cases elem : s[q]? with
        | none => rfl
        | some a => simpa using before q a ge lt elem
  · rename_i bound
    constructor
    · intro impossible
      cases impossible
    · rintro ⟨le, ⟨a, elem, -⟩, -⟩
      have := (List.getElem?_eq_some_iff.mp elem).1
      omega

omit [BEq α] in
/-- `findIf` fails when no element at or after the start matches. -/
theorem findIf_eq_none_iff {s : List α} {test : α → Bool} {start : Nat} :
    findIf s test start = none ↔ ∀ q a, start ≤ q → s[q]? = some a → test a = false := by
  unfold findIf
  split
  · rename_i bound
    rw [findFrom_eq_none_iff]
    constructor
    · intro none q a ge elem
      have inside := (List.getElem?_eq_some_iff.mp elem).1
      have := none (q - start) (by simp; omega)
      rw [List.drop_drop, show start + (q - start) = q by omega, List.head?_drop, elem] at this
      simpa using this
    · intro none q le
      rw [List.drop_drop, List.head?_drop]
      cases elem : s[start + q]? with
      | none => rfl
      | some a => simpa using none (start + q) a (by omega) elem
  · rename_i bound
    refine ⟨fun _ q a ge elem => ?_, fun _ => rfl⟩
    have inside := (List.getElem?_eq_some_iff.mp elem).1
    omega

/-- The first `count` elements, all of them for a count of `npos`, which is `none` here. -/
def takeCount (count : Option Nat) (s : List α) : List α :=
  match count with
  | some n => s.take n
  | none => s

/-- `s.substr(pos, count)`; a position past the end is an `std::out_of_range`. -/
def substr (s : List α) (pos : Nat) (count : Option Nat) : Option (List α) :=
  if pos ≤ s.length then some (takeCount count (s.drop pos)) else none

omit [BEq α] in
@[simp] theorem takeCount_some (n : Nat) (s : List α) : takeCount (some n) s = s.take n := rfl

omit [BEq α] in
@[simp] theorem takeCount_none (s : List α) : takeCount none s = s := rfl

end Search

end CString
