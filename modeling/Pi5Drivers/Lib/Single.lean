import Pi5Drivers.Lib.Common
import Mathlib.Data.BitVec
import Mathlib.Data.Rat.Floor
import Mathlib.Tactic.NormNum
import Mathlib.Tactic.Positivity
import Mathlib.Tactic.Ring

/-! Floating-point numbers of 32 bits: a sign, an exponent of 8 bits and a fraction of 23 bits. -/

namespace Pi5Drivers.Single

section Fields

variable (b : BitVec 32)

def negative : Bool := 2 ^ 31 ≤ b.toNat

def exponent : ℕ := b.toNat / 2 ^ 23 % 2 ^ 8

def fraction : ℕ := b.toNat % 2 ^ 23

/-- Of the numbers without an exponent the fraction is all. -/
def significand : ℕ := if exponent b = 0 then fraction b else 2 ^ 23 + fraction b

/-- The value of a finite number. -/
def value : ℚ :=
  (if negative b then -1 else 1) * significand b * 2 ^ (max (exponent b) 1 - 150 : ℤ)

end Fields

section Values

variable {b : BitVec 32}

theorem fraction_lt (b : BitVec 32) : fraction b < 2 ^ 23 := Nat.mod_lt _ (by decide)

/-- The fields are the number. -/
theorem toNat_fields (b : BitVec 32) : b.toNat = (negative b).toNat * 2 ^ 31 + exponent b * 2 ^ 23 + fraction b := by
  have := b.isLt
  unfold negative exponent fraction
  by_cases h : 2 ^ 31 ≤ b.toNat
  · rw [decide_eq_true h]
    change _ = 1 * _ + _ + _
    omega
  · rw [decide_eq_false h]
    change _ = 0 * _ + _ + _
    omega

end Values

/-! ### Order

Numbers are in the order of their words without the sign, and negative ones in the opposite order. The two zeros
are the same number, and what is not a number is not in order with anything. -/

section Order

variable (x y : BitVec 32)

def nan : Prop := exponent x = 255 ∧ fraction x ≠ 0

instance : Decidable (nan x) := inferInstanceAs (Decidable (_ ∧ _))

/-- The word without the sign. -/
def magnitude : ℕ := x.toNat % 2 ^ 31

def order : ℤ := if negative x then -magnitude x else magnitude x

/-- Both are numbers, and their places are related. -/
def Compared (r : ℤ → ℤ → Prop) : Prop := ¬nan x ∧ ¬nan y ∧ r (order x) (order y)

abbrev Equal : Prop := Compared x y (· = ·)

abbrev Less : Prop := Compared x y (· < ·)

abbrev AtMost : Prop := Compared x y (· ≤ ·)

instance (r : ℤ → ℤ → Prop) [DecidableRel r] : Decidable (Compared x y r) := inferInstanceAs (Decidable (_ ∧ _ ∧ _))

/-- Numbers too small for an exponent are taken to be zero. -/
def flushed : BitVec 32 := if exponent x = 0 then 0 else x

/-- The number with the other sign. -/
def negated : BitVec 32 := x ^^^ 0x80000000#32

end Order

section Flushing

variable {x y : BitVec 32}

theorem nan_iff (x : BitVec 32) : nan x ↔ 0x7f800000 < magnitude x := by
  unfold nan exponent fraction magnitude
  omega

theorem exponent_eq_zero (x : BitVec 32) : exponent x = 0 ↔ magnitude x < 2 ^ 23 := by
  unfold exponent magnitude
  omega

/-- The bits of the exponent. -/
theorem exponent_mask (x : BitVec 32) : x &&& 0x7f800000#32 = 0#32 ↔ exponent x = 0 := by
  have shifted : x &&& 0x7f800000#32 = ((x >>> 23) &&& 255#32) <<< 23 := by
    apply BitVec.eq_of_getLsbD_eq
    intro i small
    have bits : (0x7f800000#32).getLsbD i = (decide (23 ≤ i) && (255#32).getLsbD (i - 23)) := by
      revert i
      decide
    rw [BitVec.getLsbD_and, BitVec.getLsbD_shiftLeft, BitVec.getLsbD_and, BitVec.getLsbD_ushiftRight, bits]
    by_cases high : 23 ≤ i
    · simp [high, small, Nat.add_sub_cancel' high]
    · simp [high]
  have field : ((x >>> 23) &&& 255#32).toNat = exponent x := by
    rw [BitVec.toNat_and, BitVec.toNat_ushiftRight, Nat.shiftRight_eq_div_pow]
    exact Nat.and_two_pow_sub_one_eq_mod _ 8
  have word : (x &&& 0x7f800000#32).toNat = exponent x * 2 ^ 23 := by
    rw [shifted, BitVec.toNat_shiftLeft, field, Nat.shiftLeft_eq]
    unfold exponent
    omega
  rw [← BitVec.toNat_inj, word]
  change _ = 0 ↔ _
  omega

theorem order_flushed (x : BitVec 32) : order (flushed x) = if exponent x = 0 then 0 else order x := by
  unfold flushed
  split <;> rfl

theorem nan_flushed (x : BitVec 32) : nan (flushed x) ↔ nan x := by
  unfold flushed
  split
  · rename_i small
    rw [nan_iff, nan_iff]
    rw [exponent_eq_zero] at small
    change 0x7f800000 < 0 ↔ _
    omega
  · rfl

/-- A number with an exponent is far from zero. -/
theorem order_large (h : exponent x ≠ 0) : order x ≤ -2 ^ 23 ∨ 2 ^ 23 ≤ order x := by
  rw [ne_eq, exponent_eq_zero] at h
  unfold order
  split <;> omega

theorem order_small (h : exponent x = 0) : -2 ^ 23 < order x ∧ order x < 2 ^ 23 := by
  rw [exponent_eq_zero] at h
  unfold order
  split <;> omega

theorem order_zero : order 0 = 0 := rfl

theorem order_least : order 0x00800000 = 2 ^ 23 := rfl

theorem order_least_neg : order 0x80800000 = -2 ^ 23 := rfl

/-! Comparisons with zero are comparisons with the smallest numbers that have an exponent. -/

theorem equal_zero (x : BitVec 32) : Equal (flushed x) 0 ↔ exponent x = 0 := by
  unfold Equal Compared
  rw [nan_flushed, order_flushed, order_zero]
  constructor
  · rintro ⟨-, -, same⟩
    by_contra large
    rw [if_neg large] at same
    have := order_large large
    omega
  · intro small
    refine ⟨?_, by decide, if_pos small⟩
    rintro ⟨all, -⟩
    omega

theorem less_zero (x : BitVec 32) : Less (flushed x) 0 ↔ AtMost x 0x80800000 := by
  unfold Less AtMost Compared
  rw [nan_flushed, order_flushed, order_zero, order_least_neg]
  refine and_congr_right fun _ => and_congr (by decide) ?_
  split
  · have := order_small (by assumption)
    omega
  · have := order_large (by assumption)
    omega

theorem zero_less (x : BitVec 32) : Less 0 (flushed x) ↔ AtMost 0x00800000 x := by
  unfold Less AtMost Compared
  rw [nan_flushed, order_flushed, order_zero, order_least]
  refine and_congr (by decide) (and_congr_right fun _ => ?_)
  split
  · have := order_small (by assumption)
    omega
  · have := order_large (by assumption)
    omega

theorem atMost_zero (x : BitVec 32) : AtMost (flushed x) 0 ↔ Less x 0x00800000 := by
  unfold Less AtMost Compared
  rw [nan_flushed, order_flushed, order_zero, order_least]
  refine and_congr_right fun _ => and_congr (by decide) ?_
  split
  · have := order_small (by assumption)
    omega
  · have := order_large (by assumption)
    omega

theorem zero_atMost (x : BitVec 32) : AtMost 0 (flushed x) ↔ Less 0x80800000 x := by
  unfold Less AtMost Compared
  rw [nan_flushed, order_flushed, order_zero, order_least_neg]
  refine and_congr (by decide) (and_congr_right fun _ => ?_)
  split
  · have := order_small (by assumption)
    omega
  · have := order_large (by assumption)
    omega

/-- A number with an exponent does not tell small numbers from zero. -/
theorem order_flushed_large (large : exponent x ≠ 0 ∨ exponent y ≠ 0) :
    (order (flushed x) = order (flushed y) ↔ order x = order y) ∧ (order (flushed x) < order (flushed y) ↔ order x < order y) := by
  rw [order_flushed, order_flushed]
  by_cases hx : exponent x = 0
  · rw [if_pos hx]
    have far := order_large (large.resolve_left (not_not.mpr hx))
    have near := order_small hx
    rw [if_neg (large.resolve_left (not_not.mpr hx))]
    omega
  · rw [if_neg hx]
    have far := order_large hx
    split
    · have near := order_small (x := y) (by assumption)
      omega
    · exact ⟨Iff.rfl, Iff.rfl⟩

theorem compared_flushed {r : ℤ → ℤ → Prop} (same : r (order (flushed x)) (order (flushed y)) ↔ r (order x) (order y)) :
    Compared (flushed x) (flushed y) r ↔ Compared x y r := by
  rw [Compared, Compared, nan_flushed, nan_flushed, same]

theorem equal_flushed (large : exponent x ≠ 0 ∨ exponent y ≠ 0) : Equal (flushed x) (flushed y) ↔ Equal x y :=
  compared_flushed (order_flushed_large large).1

theorem less_flushed (large : exponent x ≠ 0 ∨ exponent y ≠ 0) : Less (flushed x) (flushed y) ↔ Less x y :=
  compared_flushed (order_flushed_large large).2

theorem atMost_flushed (large : exponent x ≠ 0 ∨ exponent y ≠ 0) : AtMost (flushed x) (flushed y) ↔ AtMost x y :=
  compared_flushed (not_lt.symm.trans ((order_flushed_large large.symm).2.not.trans not_lt))

end Flushing

section Negation

variable (x : BitVec 32)

omit x in
theorem xor_two_pow {n k : ℕ} (h : n < 2 ^ k) : n ^^^ 2 ^ k = 2 ^ k + n := by
  have disjoint : n ^^^ 2 ^ k = 2 ^ k ||| n := by
    apply Nat.eq_of_testBit_eq
    intro i
    rw [Nat.testBit_xor, Nat.testBit_or, Nat.testBit_two_pow]
    by_cases same : k = i
    · simp [← same, Nat.testBit_lt_two_pow h]
    · simp [same]
  have sum := Nat.two_pow_add_eq_or_of_lt h 1
  rw [Nat.mul_one] at sum
  rw [disjoint, sum]

theorem toNat_negated : (negated x).toNat = if x.toNat < 2 ^ 31 then 2 ^ 31 + x.toNat else x.toNat - 2 ^ 31 := by
  have := x.isLt
  rw [negated, BitVec.toNat_xor, show (0x80000000#32).toNat = 2 ^ 31 from rfl]
  split
  · exact xor_two_pow (by assumption)
  · have small : x.toNat - 2 ^ 31 < 2 ^ 31 := by omega
    have whole : x.toNat = (x.toNat - 2 ^ 31) ^^^ 2 ^ 31 := by
      rw [xor_two_pow small]
      omega
    conv_lhs => rw [whole, Nat.xor_assoc, Nat.xor_self, Nat.xor_zero]

theorem magnitude_negated : magnitude (negated x) = magnitude x := by
  have := x.isLt
  rw [magnitude, toNat_negated, magnitude]
  split <;> omega

theorem order_negated : order (negated x) = -order x := by
  have := x.isLt
  have sign : negative (negated x) = !negative x := by
    unfold negative
    rw [toNat_negated, ← decide_not]
    refine decide_eq_decide.mpr ?_
    split <;> omega
  rw [order, order, magnitude_negated, sign]
  cases negative x
  · rfl
  · exact (neg_neg _).symm

theorem nan_negated : nan (negated x) ↔ nan x := by rw [nan_iff, nan_iff, magnitude_negated]

theorem exponent_negated : exponent (negated x) = 0 ↔ exponent x = 0 := by
  rw [exponent_eq_zero, exponent_eq_zero, magnitude_negated]

/-- A flushed number is negated as it is. -/
theorem order_flushed_negated : order (flushed (negated x)) = -order (flushed x) := by
  rw [order_flushed, order_flushed, order_negated]
  simp only [exponent_negated]
  split <;> simp

theorem nan_flushed_negated : nan (flushed (negated x)) ↔ nan (flushed x) := by
  rw [nan_flushed, nan_flushed, nan_negated]

theorem not_nan_zero : ¬nan 0 := by decide

/-- A number is compared with its negation as it is compared with zero. -/
theorem compared_negated {r : ℤ → ℤ → Prop} (same : ∀ n, r n (-n) ↔ r n 0) :
    Compared (flushed x) (flushed (negated x)) r ↔ Compared (flushed x) 0 r := by
  rw [Compared, Compared, nan_flushed_negated, order_flushed_negated, order_zero, same]
  refine and_congr_right fun proper => and_congr_left fun _ => ?_
  exact iff_of_true proper not_nan_zero

theorem negated_compared {r : ℤ → ℤ → Prop} (same : ∀ n, r (-n) n ↔ r 0 n) :
    Compared (flushed (negated x)) (flushed x) r ↔ Compared 0 (flushed x) r := by
  rw [Compared, Compared, nan_flushed_negated, order_flushed_negated, order_zero, same, and_self_left]
  exact (and_iff_right not_nan_zero).symm

end Negation

end Pi5Drivers.Single
