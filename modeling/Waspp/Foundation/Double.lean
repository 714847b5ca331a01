/-
Module: Waspp.Foundation.Double
Layer: Foundation
Purpose: The values of the type `double`, as far as programs compare them: nan, the infinities and the
  rational numbers with a significand of 53 bits, in the order that the operators see, in which nan
  compares with nothing.  An integer becomes a `double` by rounding to the nearest one, of two to the even
  one.  Rounding keeps the order, and never takes an integer past a value that a `double` holds, so a
  comparison with a rounded integer says about the integer itself what the rules here say.
Imports: Mathlib.Algebra.Order.Field.Power, Mathlib.Data.Nat.Log, Mathlib.Data.Rat.Cast.Order,
  Mathlib.Order.WithBot, Mathlib.Tactic.Linarith, Mathlib.Tactic.Positivity, Mathlib.Tactic.Ring
Trusted boundary: none (fully proved)
Main exports: Double, Double.Representable, Double.not_le, Double.ofInt, Double.ofInt_mono, Double.ofInt_le,
  Double.lt_of_ofInt_lt, Double.difftime
Open obligations: none
-/
import Mathlib.Algebra.Order.Field.Power
import Mathlib.Data.Nat.Log
import Mathlib.Data.Rat.Cast.Order
import Mathlib.Order.WithBot
import Mathlib.Tactic.Linarith
import Mathlib.Tactic.Positivity
import Mathlib.Tactic.Ring

namespace Double

/-- The rational numbers that a `double` holds: a significand of 53 bits times a power of two. -/
def Representable (q : Rat) : Prop :=
  ∃ significand exponent : Int,
    significand.natAbs < 2 ^ 53 ∧ -1074 ≤ exponent ∧ exponent ≤ 971 ∧ q = significand * 2 ^ exponent

end Double

/-- A value of type `double`; the two zeros are one. -/
inductive Double where
  | nan
  | infinite (negative : Bool)
  | finite (value : Rat) (representable : Double.Representable value)

namespace Double

/-! ### Comparisons

The order is that of the rational numbers between the two infinities.  A comparison with nan is false
whichever operator makes it, so that the negation of one operator is the other only for numbers. -/

/-- The number that a value is, which nan is not. -/
def real : Double → Option (WithBot (WithTop Rat))
  | nan => none
  | infinite true => some ⊥
  | infinite false => some ⊤
  | finite q _ => some (q : WithTop Rat)

/-- The operator `<=`. -/
instance : LE Double := ⟨fun x y => ∃ a ∈ x.real, ∃ b ∈ y.real, a ≤ b⟩

/-- The operator `<`. -/
instance : LT Double := ⟨fun x y => ∃ a ∈ x.real, ∃ b ∈ y.real, a < b⟩

instance (x y : Double) : Decidable (x ≤ y) :=
  inferInstanceAs (Decidable (∃ a ∈ x.real, ∃ b ∈ y.real, a ≤ b))

instance (x y : Double) : Decidable (x < y) :=
  inferInstanceAs (Decidable (∃ a ∈ x.real, ∃ b ∈ y.real, a < b))

/-- Every double but `nan` has a place among the reals with both infinities. -/
theorem exists_real {x : Double} (number : x ≠ nan) : ∃ a, x.real = some a := by
  cases x with
  | nan => exact absurd rfl number
  | infinite negative => cases negative <;> exact ⟨_, rfl⟩
  | finite q _ => exact ⟨_, rfl⟩

/-- Two doubles are in order when both are numbers and the numbers are. -/
theorem le_iff {x y : Double} : x ≤ y ↔ ∃ a ∈ x.real, ∃ b ∈ y.real, a ≤ b := Iff.rfl

/-- One double is below another when both are numbers and the numbers are. -/
theorem lt_iff {x y : Double} : x < y ↔ ∃ a ∈ x.real, ∃ b ∈ y.real, a < b := Iff.rfl

/-- Of two numbers one is not greater than the other. -/
protected theorem not_le {x y : Double} (number : x ≠ nan) (number' : y ≠ nan) : ¬ x ≤ y ↔ y < x := by
  rcases exists_real number with ⟨a, same⟩
  rcases exists_real number' with ⟨b, same'⟩
  simp [le_iff, lt_iff, same, same']

protected theorem lt_of_lt_of_le {x y z : Double} (lt : x < y) (le : y ≤ z) : x < z := by
  rcases lt with ⟨a, first, b, second, less⟩
  rcases le with ⟨b', second', c, third, most⟩
  cases second.symm.trans second'
  exact ⟨a, first, c, third, less.trans_le most⟩

/-- Nothing compares with nan. -/
theorem not_le_nan (x : Double) : ¬ x ≤ nan := by simp [le_iff, real]

theorem not_nan_lt (x : Double) : ¬ nan < x := by simp [lt_iff, real]

theorem not_lt_nan (x : Double) : ¬ x < nan := by simp [lt_iff, real]

/-- What is at most another number is not above it. -/
theorem not_lt_of_le {x y : Double} (le : x ≤ y) : ¬ y < x := by
  rcases le with ⟨a, first, b, second, most⟩
  rintro ⟨b', second', a', first', less⟩
  cases first.symm.trans first'
  cases second.symm.trans second'
  exact absurd less (not_lt.mpr most)

/-- Nothing lies above the one infinity, and nothing below the other. -/
theorem not_infinite_lt (x : Double) : ¬ infinite false < x := by simp [lt_iff, real]

theorem not_lt_infinite (x : Double) : ¬ x < infinite true := by simp [lt_iff, real]

/-! ### Rounding

A natural number is rounded by counting how many times it holds the power of two that leaves 53 bits.  What
a `double` holds is a multiple of that power from there on, which is why rounding cannot step over it. -/

/-- How many times a number holds `2 ^ shift`, to the nearest, and of two to the even one. -/
def nearest (n shift : Nat) : Nat :=
  if 2 ^ shift < 2 * (n % 2 ^ shift) ∨ (2 ^ shift = 2 * (n % 2 ^ shift) ∧ n / 2 ^ shift % 2 = 1) then
    n / 2 ^ shift + 1
  else n / 2 ^ shift

/-- A natural number rounded to 53 bits. -/
def roundedNat (n : Nat) : Nat := nearest n (n.log2 - 52) * 2 ^ (n.log2 - 52)

/-- An integer rounded to 53 bits. -/
def rounded (z : Int) : Int := z.sign * roundedNat z.natAbs

/-- Rounding takes the quotient or the next number, and the next one only where something is cut off. -/
theorem nearest_bounds (n shift : Nat) :
    n / 2 ^ shift ≤ nearest n shift ∧ nearest n shift ≤ n / 2 ^ shift + 1 ∧
      (nearest n shift = n / 2 ^ shift + 1 → n % 2 ^ shift ≠ 0) := by
  have pos := Nat.two_pow_pos shift
  unfold nearest
  split
  · next up => exact ⟨Nat.le_succ _, le_rfl, fun _ none => by omega⟩
  · exact ⟨le_rfl, Nat.le_succ _, fun same => by omega⟩

/-- Rounding at one place keeps the order. -/
theorem nearest_mono {n n' : Nat} (le : n ≤ n') (shift : Nat) : nearest n shift ≤ nearest n' shift := by
  have quotients : n / 2 ^ shift ≤ n' / 2 ^ shift := Nat.div_le_div_right le
  have bounds := nearest_bounds n shift
  have bounds' := nearest_bounds n' shift
  rcases quotients.eq_or_lt with same | less
  · have rests : n % 2 ^ shift ≤ n' % 2 ^ shift := by
      have whole := Nat.div_add_mod n (2 ^ shift)
      have whole' := Nat.div_add_mod n' (2 ^ shift)
      rw [same] at whole
      omega
    unfold nearest
    rw [same]
    split <;> split <;> omega
  · omega

/-- Numbers of 53 bits stay as they are. -/
theorem roundedNat_of_short {n : Nat} (short : n < 2 ^ 53) : roundedNat n = n := by
  have none : n.log2 - 52 = 0 := by
    by_cases zero : n = 0
    · subst zero
      decide
    · have bits := (Nat.log2_lt zero).mpr short
      omega
  simp [roundedNat, nearest, none, Nat.mod_one]

/-- What a `double` holds from `2 ^ (52 + shift)` on is a multiple of `2 ^ shift`. -/
theorem Representable.multiple {q : Rat} (representable : Representable q) {shift : Nat}
    (large : 2 ^ (52 + shift) ≤ q) :
    ∃ j : Nat, q = (j * 2 ^ shift : Nat) := by
  rcases representable with ⟨significand, exponent, short, -, -, rfl⟩
  have power : (0 : Rat) < 2 ^ exponent := zpow_pos (by norm_num) _
  have positive : 0 < significand := by
    by_contra negative
    have : (significand : Rat) * 2 ^ exponent ≤ 0 :=
      mul_nonpos_of_nonpos_of_nonneg (by exact_mod_cast not_lt.mp negative) power.le
    have : (0 : Rat) < 2 ^ (52 + shift) := by positivity
    linarith
  have bound : (significand : Rat) < 2 ^ (53 : Int) := by
    have : significand < 2 ^ 53 := by omega
    exact_mod_cast this
  have high : (shift : Int) ≤ exponent := by
    by_contra low
    have scaled : (significand : Rat) * 2 ^ exponent < 2 ^ (53 : Int) * 2 ^ exponent :=
      mul_lt_mul_of_pos_right bound power
    rw [← zpow_add₀ (by norm_num)] at scaled
    have less : (2 : Rat) ^ (53 + exponent) ≤ 2 ^ ((52 + shift : Nat) : Int) :=
      zpow_le_zpow_right₀ (by norm_num) (by push_cast; omega)
    rw [zpow_natCast] at less
    linarith
  obtain ⟨j, rfl⟩ := Int.eq_ofNat_of_zero_le positive.le
  obtain ⟨d, rfl⟩ := Int.le.dest high
  refine ⟨j * 2 ^ d, ?_⟩
  rw [zpow_add₀ (by norm_num), zpow_natCast, zpow_natCast]
  push_cast
  ring

/-- A number that does not fit is at least `2 ^ 52` times what it is rounded to. -/
theorem shift_large {n : Nat} (rounds : n.log2 - 52 ≠ 0) : 2 ^ (52 + (n.log2 - 52)) ≤ n := by
  have nonzero : n ≠ 0 := by
    rintro rfl
    exact rounds rfl
  have bits : 52 + (n.log2 - 52) = n.log2 := by omega
  rw [bits]
  exact Nat.log2_self_le nonzero

/-- Rounding up does not go past what a `double` holds. -/
theorem roundedNat_le {n : Nat} {q : Rat} (representable : Representable q) (le : n ≤ q) :
    roundedNat n ≤ q := by
  by_cases none : n.log2 - 52 = 0
  · simpa [roundedNat, nearest, none, Nat.mod_one] using le
  have large := shift_large none
  generalize shifted : n.log2 - 52 = shift at large
  obtain ⟨j, rfl⟩ := representable.multiple (le_trans (by exact_mod_cast large) le)
  norm_cast at le ⊢
  rw [roundedNat, shifted]
  apply Nat.mul_le_mul_right
  rcases nearest_bounds n shift with ⟨-, bound, up⟩
  have quotient : n / 2 ^ shift ≤ j := Nat.div_le_of_le_mul (by rwa [Nat.mul_comm] at le)
  by_contra past
  have more : nearest n shift = n / 2 ^ shift + 1 := by omega
  have same : n / 2 ^ shift = j := by omega
  have whole := Nat.div_add_mod n (2 ^ shift)
  rw [same, Nat.mul_comm] at whole
  exact up more (by omega)

/-- Rounding down does not go past what a `double` holds. -/
theorem le_roundedNat {n : Nat} {q : Rat} (representable : Representable q) (le : q ≤ n) :
    q ≤ roundedNat n := by
  by_cases none : n.log2 - 52 = 0
  · simpa [roundedNat, nearest, none, Nat.mod_one] using le
  have large := shift_large none
  generalize shifted : n.log2 - 52 = shift at large
  rw [roundedNat, shifted]
  have low := (nearest_bounds n shift).1
  by_cases small : q < 2 ^ (52 + shift)
  · have quotient : 2 ^ 52 ≤ n / 2 ^ shift := by
      rw [Nat.le_div_iff_mul_le (Nat.two_pow_pos shift), ← pow_add]
      exact large
    have : (2 ^ 52 * 2 ^ shift : Nat) ≤ nearest n shift * 2 ^ shift :=
      Nat.mul_le_mul_right _ (quotient.trans low)
    rw [← pow_add] at this
    exact small.le.trans (by exact_mod_cast this)
  · obtain ⟨j, rfl⟩ := representable.multiple (not_lt.mp small)
    norm_cast at le ⊢
    apply Nat.mul_le_mul_right
    exact le_trans ((Nat.le_div_iff_mul_le (Nat.two_pow_pos shift)).mpr le) low

theorem Representable.neg {q : Rat} (representable : Representable q) : Representable (-q) := by
  rcases representable with ⟨significand, exponent, short, low, high, rfl⟩
  exact ⟨-significand, exponent, by rwa [Int.natAbs_neg], low, high, by push_cast; ring⟩


/-- The powers of two around a number are around what it is rounded to. -/
theorem roundedNat_bounds {n : Nat} (nonzero : n ≠ 0) :
    2 ^ n.log2 ≤ roundedNat n ∧ roundedNat n ≤ 2 ^ (n.log2 + 1) := by
  have low := Nat.log2_self_le nonzero
  have high := Nat.lt_log2_self (n := n)
  by_cases none : n.log2 - 52 = 0
  · simp only [roundedNat, nearest, none, pow_zero, Nat.mod_one, Nat.div_one]
    simp only [Nat.mul_zero, Nat.not_lt_zero, Nat.one_ne_zero, false_and, or_self, if_false, Nat.mul_one]
    exact ⟨low, high.le⟩
  · have bounds := nearest_bounds n (n.log2 - 52)
    generalize shifted : n.log2 - 52 = shift at bounds
    have bits : n.log2 = 52 + shift := by omega
    rw [roundedNat, shifted]
    rw [bits] at low high ⊢
    have pos := Nat.two_pow_pos shift
    constructor
    · rw [pow_add]
      apply Nat.mul_le_mul_right
      rw [pow_add] at low
      exact le_trans ((Nat.le_div_iff_mul_le pos).mpr low) bounds.1
    · rw [show 52 + shift + 1 = 53 + shift by omega, pow_add] at high ⊢
      apply Nat.mul_le_mul_right
      have less : n / 2 ^ shift < 2 ^ 53 := Nat.div_lt_of_lt_mul (by rwa [Nat.mul_comm] at high)
      omega

/-- Rounding to 53 bits keeps the order, also where the place changes. -/
theorem roundedNat_mono {n n' : Nat} (le : n ≤ n') : roundedNat n ≤ roundedNat n' := by
  by_cases zero : n = 0
  · subst zero
    simp [roundedNat, nearest]
  have zero' : n' ≠ 0 := by omega
  have logs : n.log2 ≤ n'.log2 := (Nat.le_log2 zero').mpr ((Nat.log2_self_le zero).trans le)
  rcases logs.eq_or_lt with same | less
  · rw [roundedNat, roundedNat, same]
    exact Nat.mul_le_mul_right _ (nearest_mono le _)
  · calc
      roundedNat n ≤ 2 ^ (n.log2 + 1) := (roundedNat_bounds zero).2
      _ ≤ 2 ^ n'.log2 := Nat.pow_le_pow_right (by decide) less
      _ ≤ roundedNat n' := (roundedNat_bounds zero').1

/-! ### Rounded integers

An integer is rounded by its absolute value, so the rules for natural numbers carry over by reflection. -/

theorem rounded_neg (z : Int) : rounded (-z) = -rounded z := by
  rw [rounded, rounded, Int.sign_neg, Int.natAbs_neg, neg_mul]

theorem rounded_natCast (n : Nat) : rounded n = roundedNat n := by
  by_cases zero : n = 0
  · subst zero
    decide
  · rw [rounded, Int.sign_natCast_of_ne_zero zero, one_mul, Int.natAbs_natCast]

/-- Rounding an integer up does not go past what a `double` holds. -/
theorem rounded_le {z : Int} {q : Rat} (representable : Representable q) (le : z ≤ q) : rounded z ≤ q := by
  rcases Int.eq_nat_or_neg z with ⟨n, rfl | rfl⟩
  · rw [rounded_natCast]
    exact_mod_cast roundedNat_le representable (by exact_mod_cast le)
  · rw [rounded_neg, rounded_natCast]
    have reflected : -q ≤ (n : Rat) := by
      push_cast at le
      linarith
    have above := le_roundedNat representable.neg reflected
    push_cast
    linarith

/-- Rounding an integer down does not go past what a `double` holds. -/
theorem le_rounded {z : Int} {q : Rat} (representable : Representable q) (le : q ≤ z) : q ≤ rounded z := by
  have reflected : ((-z : Int) : Rat) ≤ -q := by
    push_cast
    linarith
  have below := rounded_le representable.neg reflected
  rw [rounded_neg] at below
  push_cast at below
  linarith

/-- Rounding integers keeps the order. -/
theorem rounded_mono {z z' : Int} (le : z ≤ z') : rounded z ≤ rounded z' := by
  rcases Int.eq_nat_or_neg z with ⟨n, rfl | rfl⟩ <;> rcases Int.eq_nat_or_neg z' with ⟨n', rfl | rfl⟩
  · rw [rounded_natCast, rounded_natCast]
    exact_mod_cast roundedNat_mono (by exact_mod_cast le)
  · have zero : n = 0 ∧ n' = 0 := by omega
    rw [zero.1, zero.2]
    decide
  · rw [rounded_neg, rounded_natCast, rounded_natCast]
    omega
  · rw [rounded_neg, rounded_neg, rounded_natCast, rounded_natCast]
    have reflected : roundedNat n' ≤ roundedNat n := roundedNat_mono (by omega)
    omega

/-! ### Integers as doubles

The largest values are an exception: what is rounded to `2 ^ 1024` or beyond becomes an infinity, which keeps
the order as well. -/

/-- What is rounded to a number below `2 ^ 1024` a `double` holds. -/
theorem representable_roundedNat {n : Nat} (inside : (roundedNat n).log2 < 1024) :
    Representable (roundedNat n) := by
  by_cases short : n < 2 ^ 53
  · rw [roundedNat_of_short short]
    exact ⟨n, 0, short, by decide, by decide, by simp⟩
  · have nonzero : n ≠ 0 := by omega
    have low := (roundedNat_bounds nonzero).1
    have positive : roundedNat n ≠ 0 := (Nat.two_pow_pos n.log2).trans_le low |>.ne'
    have logs : n.log2 < 1024 := ((Nat.le_log2 positive).mpr low).trans_lt inside
    have least : 53 ≤ n.log2 := (Nat.le_log2 nonzero).mpr (not_lt.mp short)
    have bounds := nearest_bounds n (n.log2 - 52)
    have less : n / 2 ^ (n.log2 - 52) < 2 ^ 53 := by
      have high := Nat.lt_log2_self (n := n)
      rw [show n.log2 + 1 = 53 + (n.log2 - 52) by omega, pow_add, Nat.mul_comm] at high
      exact Nat.div_lt_of_lt_mul high
    have either : nearest n (n.log2 - 52) < 2 ^ 53 ∨ nearest n (n.log2 - 52) = 2 ^ 53 := by omega
    rcases either with fits | carries
    · refine ⟨nearest n (n.log2 - 52), ((n.log2 - 52 : Nat) : Int), fits, by omega, by omega, ?_⟩
      rw [zpow_natCast, roundedNat]
      push_cast
      rfl
    · have whole : roundedNat n = 2 ^ (53 + (n.log2 - 52)) := by rw [roundedNat, carries, pow_add]
      rw [whole, Nat.log2_two_pow] at inside
      refine ⟨(2 ^ 52 : Nat), ((n.log2 - 51 : Nat) : Int), by decide, by omega, by omega, ?_⟩
      rw [zpow_natCast, whole, show 53 + (n.log2 - 52) = 52 + (n.log2 - 51) by omega, pow_add]
      push_cast
      rfl

/-- A rounded integer that is not too large is a double. -/
theorem representable_rounded {z : Int} (inside : (rounded z).natAbs.log2 < 1024) :
    Representable (rounded z) := by
  rcases Int.eq_nat_or_neg z with ⟨n, rfl | rfl⟩
  · rw [rounded_natCast, Int.natAbs_natCast] at inside
    rw [rounded_natCast]
    exact_mod_cast representable_roundedNat inside
  · rw [rounded_neg, rounded_natCast, Int.natAbs_neg, Int.natAbs_natCast] at inside
    rw [rounded_neg, rounded_natCast]
    exact_mod_cast (representable_roundedNat inside).neg

/-- The conversion of an integer to `double`. -/
def ofInt (z : Int) : Double :=
  if inside : (rounded z).natAbs.log2 < 1024 then .finite (rounded z) (representable_rounded inside)
  else .infinite (z < 0)

instance (n : Nat) : OfNat Double n := ⟨ofInt n⟩

/-- `std::difftime(time1, time0)`. -/
def difftime (time1 time0 : Int) : Double := ofInt (time1 - time0)

theorem ofInt_ne_nan (z : Int) : ofInt z ≠ nan := by
  unfold ofInt
  split <;> exact nofun

/-- The first power of two that is too large. -/
def limit : Rat := 2 ^ (53 + 971 : Int)

theorem limit_pos : 0 < limit := zpow_pos (by norm_num) _

/-- Every finite double is below the limit. -/
theorem Representable.lt {q : Rat} (representable : Representable q) : q < limit := by
  rcases representable with ⟨significand, exponent, short, -, high, rfl⟩
  have bound : (significand : Rat) < 2 ^ (53 : Int) := by
    have : significand < 2 ^ 53 := by omega
    exact_mod_cast this
  have two : (1 : Rat) ≤ 2 := by norm_num
  calc (significand : Rat) * 2 ^ exponent
      < 2 ^ (53 : Int) * 2 ^ exponent := mul_lt_mul_of_pos_right bound (zpow_pos (by norm_num) _)
    _ ≤ 2 ^ (53 : Int) * 2 ^ (971 : Int) :=
        mul_le_mul_of_nonneg_left (zpow_le_zpow_right₀ two high) (by positivity)
    _ = limit := (zpow_add₀ (by norm_num) 53 971).symm

/-- An integer becomes what it is rounded to, or the infinity on its side. -/
theorem ofInt_cases (z : Int) :
    (∃ representable, ofInt z = finite (rounded z) representable) ∨
      (ofInt z = infinite false ∧ limit ≤ (rounded z : Rat)) ∨
      (ofInt z = infinite true ∧ (rounded z : Rat) ≤ -limit) := by
  by_cases inside : (rounded z).natAbs.log2 < 1024
  · exact Or.inl ⟨representable_rounded inside, dif_pos inside⟩
  · have large : limit ≤ ((rounded z).natAbs : Rat) := by
      have nonzero : (rounded z).natAbs ≠ 0 := by
        intro zero
        rw [zero] at inside
        exact inside (by decide)
      calc limit
          ≤ 2 ^ ((rounded z).natAbs.log2 : Int) := zpow_le_zpow_right₀ (by norm_num) (by omega)
        _ ≤ ((rounded z).natAbs : Rat) := by
          rw [zpow_natCast]
          exact_mod_cast Nat.log2_self_le nonzero
    have out : ofInt z = infinite (z < 0) := dif_neg inside
    by_cases negative : z < 0
    · have below : rounded z ≤ 0 := rounded_mono negative.le
      rw [Nat.cast_natAbs, abs_of_nonpos below] at large
      push_cast at large
      exact Or.inr (Or.inr ⟨by rw [out, decide_eq_true negative], by linarith⟩)
    · have above : 0 ≤ rounded z := rounded_mono (not_lt.mp negative)
      rw [Nat.cast_natAbs, abs_of_nonneg above] at large
      exact Or.inr (Or.inl ⟨by rw [out, decide_eq_false negative], large⟩)

/-- An integer that is not greater than what a `double` holds is not after rounding. -/
theorem ofInt_le {z : Int} {q : Rat} (representable : Representable q) (le : z ≤ q) :
    ofInt z ≤ finite q representable := by
  have most := rounded_le representable le
  rcases ofInt_cases z with ⟨_, same⟩ | ⟨-, large⟩ | ⟨same, -⟩
  · rw [same]
    exact ⟨_, rfl, _, rfl, by exact_mod_cast most⟩
  · exact absurd (large.trans most) (not_le.mpr representable.lt)
  · rw [same]
    exact ⟨_, rfl, _, rfl, bot_le⟩

/-- An integer that is not less than what a `double` holds is not after rounding. -/
theorem le_ofInt {z : Int} {q : Rat} (representable : Representable q) (le : q ≤ z) :
    finite q representable ≤ ofInt z := by
  have least := le_rounded representable le
  rcases ofInt_cases z with ⟨_, same⟩ | ⟨same, -⟩ | ⟨-, small⟩
  · rw [same]
    exact ⟨_, rfl, _, rfl, by exact_mod_cast least⟩
  · rw [same]
    exact ⟨_, rfl, _, rfl, WithBot.coe_le_coe.mpr le_top⟩
  · have inside := representable.neg.lt
    linarith

/-- What is less than a number after rounding is less than it before. -/
theorem lt_of_ofInt_lt {z : Int} {q : Rat} {representable : Representable q}
    (less : ofInt z < finite q representable) :
    z < q := by
  by_contra not
  have least := le_ofInt representable (not_lt.mp not)
  exact (Double.not_le (x := finite q representable) (by simp) (ofInt_ne_nan z)).mpr less least

/-- Conversion to `double` keeps the order of integers. -/
theorem ofInt_mono {z z' : Int} (le : z ≤ z') : ofInt z ≤ ofInt z' := by
  have most : (rounded z : Rat) ≤ rounded z' := by exact_mod_cast rounded_mono le
  rcases ofInt_cases z with ⟨inside, same⟩ | ⟨same, large⟩ | ⟨same, -⟩
  · rcases ofInt_cases z' with ⟨_, same'⟩ | ⟨same', -⟩ | ⟨-, small⟩
    · rw [same, same']
      exact ⟨_, rfl, _, rfl, by exact_mod_cast most⟩
    · rw [same, same']
      exact ⟨_, rfl, _, rfl, WithBot.coe_le_coe.mpr le_top⟩
    · have lower := inside.neg.lt
      linarith
  · rcases ofInt_cases z' with ⟨inside', -⟩ | ⟨same', -⟩ | ⟨-, small⟩
    · exact absurd (large.trans most) (not_le.mpr inside'.lt)
    · rw [same, same']
      exact ⟨_, rfl, _, rfl, le_rfl⟩
    · have positive := limit_pos
      linarith
  · obtain ⟨b, same'⟩ := exists_real (ofInt_ne_nan z')
    rw [same]
    exact ⟨_, rfl, b, same', bot_le⟩

end Double
