/-
Module: Waspp.Foundation.LittleEndian
Layer: Foundation
Purpose: Integers as bytes, the lowest byte first, in two's complement.  `write` keeps as many low bytes as
  it is asked for, and `read` gives the number that bytes spell; reading what was written gives the integer
  modulo the power of 256 (`read_write`).  `wrapSigned` and `wrapUnsigned` are the conversions to an integer
  type of some width.
Imports: Mathlib.Algebra.Group.Int.Defs, Mathlib.Algebra.Group.Nat.Defs
Trusted boundary: none (fully proved)
Main exports: write, read, read_write, take_write, wrapSigned, wrapUnsigned
Open obligations: none
-/
import Mathlib.Algebra.Group.Int.Defs
import Mathlib.Algebra.Group.Nat.Defs

namespace LittleEndian

/-- The low `n` bytes of an integer, the lowest first. -/
def write : Nat → Int → List UInt8
  | 0, _ => []
  | n + 1, v => UInt8.ofNat (v % 256).toNat :: write n (v / 256)

/-- The number that bytes spell, the lowest first. -/
def read : List UInt8 → Nat
  | [] => 0
  | b :: rest => b.toNat + 256 * read rest

@[simp] theorem length_write (n : Nat) (v : Int) : (write n v).length = n := by
  induction n generalizing v with
  | zero => rfl
  | succ n ih => rw [write, List.length_cons, ih]

/-- The lowest bytes of the bytes written. -/
theorem take_write {m n : Nat} (le : m ≤ n) (v : Int) : (write n v).take m = write m v := by
  induction m generalizing n v with
  | zero => rfl
  | succ m ih =>
      cases n with
      | zero => omega
      | succ n => rw [write, write, List.take_succ_cons, ih (by omega)]

/-- The lowest byte is the remainder modulo 256. -/
theorem toNat_lowByte (v : Int) : ((UInt8.ofNat (v % 256).toNat).toNat : Int) = v % 256 := by
  rw [UInt8.toNat_ofNat']
  omega

/-- Reading what was written. -/
theorem read_write (n : Nat) (v : Int) : (read (write n v) : Int) = v % 256 ^ n := by
  induction n generalizing v with
  | zero =>
      rw [pow_zero, Int.emod_one]
      rfl
  | succ n ih =>
      have split : v % 256 ^ (n + 1) = v % 256 + 256 * (v / 256 % 256 ^ n) := by
        have low : v % 256 + 256 * (v / 256) = v := Int.emod_add_mul_ediv v 256
        have high : v / (256 * 256 ^ n) = v / 256 / 256 ^ n := (Int.ediv_ediv_of_nonneg (by decide)).symm
        have rest : v / 256 % 256 ^ n = v / 256 - 256 ^ n * (v / 256 / 256 ^ n) := Int.emod_def _ _
        have whole : v % 256 ^ (n + 1) = v - 256 * (256 ^ n * (v / 256 / 256 ^ n)) := by
          rw [pow_succ', Int.emod_def, high, Int.mul_assoc]
        rw [whole, rest]
        omega
      rw [write, read, Int.natCast_add, Int.natCast_mul, ih, toNat_lowByte, split]
      rfl

/-- Conversion to a signed type of so many bits. -/
def wrapSigned (bits : Nat) (z : Int) : Int := z.bmod (2 ^ bits)

/-- Conversion to an unsigned type of so many bits. -/
def wrapUnsigned (bits : Nat) (z : Int) : Int := z % 2 ^ bits

end LittleEndian
