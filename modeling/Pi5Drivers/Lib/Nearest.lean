import Pi5Drivers.Lib.Single
import Mathlib.Data.Fintype.EquivFin
import Mathlib.Data.Fintype.Lattice
import Mathlib.Data.Nat.Log
import Mathlib.Tactic.Linarith

/-! Rounding to nearest. A finite number is nearest to a value if no other one is closer; how ties are broken is left
open. Values that are numbers are rounded to themselves, and rounding does not pass a number. -/

namespace Pi5Drivers.Single

/-- A finite number. -/
def Number (b : BitVec 32) : Prop := exponent b < 255

instance (b : BitVec 32) : Decidable (Number b) := inferInstanceAs (Decidable (_ < _))

/-- No finite number is closer to the value. -/
def Nearest (v : ℚ) (r : BitVec 32) : Prop := Number r ∧ ∀ q, Number q → |value r - v| ≤ |value q - v|

section Fields

variable {e f : ℕ}

theorem toNat_pattern (he : e < 255) (hf : f < 2 ^ 23) : (BitVec.ofNat 32 (e * 2 ^ 23 + f)).toNat = e * 2 ^ 23 + f := by
  rw [BitVec.toNat_ofNat, Nat.mod_eq_of_lt (by omega)]

theorem exponent_pattern (he : e < 255) (hf : f < 2 ^ 23) : exponent (BitVec.ofNat 32 (e * 2 ^ 23 + f)) = e := by
  rw [exponent, toNat_pattern he hf]
  omega

/-- The number with an exponent and a fraction. -/
theorem value_pattern (pos : 0 < e) (he : e < 255) (hf : f < 2 ^ 23) :
    value (BitVec.ofNat 32 (e * 2 ^ 23 + f)) = (2 ^ 23 + f : ℕ) * 2 ^ (e - 150 : ℤ) := by
  have positive : negative (BitVec.ofNat 32 (e * 2 ^ 23 + f)) = false := by
    rw [negative, toNat_pattern he hf, decide_eq_false_iff_not]
    omega
  have fraction_eq : fraction (BitVec.ofNat 32 (e * 2 ^ 23 + f)) = f := by
    rw [fraction, toNat_pattern he hf]
    omega
  rw [value, significand, positive, exponent_pattern he hf, if_neg pos.ne', fraction_eq]
  have most : max (e : ℤ) 1 = e := max_eq_left (by omega)
  rw [show ((max e 1 : ℕ) : ℤ) = e by omega]
  simp

theorem number_pattern (he : e < 255) (hf : f < 2 ^ 23) : Number (BitVec.ofNat 32 (e * 2 ^ 23 + f)) := by
  rw [Number, exponent_pattern he hf]
  exact he

theorem value_zero : value 0 = 0 := by
  have none : significand 0 = 0 := by decide
  rw [value, none]
  simp

/-- Fractions with a numerator of 24 bits are numbers. -/
theorem exists_value {n k : ℕ} (hn : n < 2 ^ 24) (hk : k ≤ 126) : ∃ q, Number q ∧ value q = n / 2 ^ k := by
  rcases Nat.eq_zero_or_pos n with rfl | pos
  · exact ⟨0, by decide, by rw [value_zero, Nat.cast_zero, zero_div]⟩
  have least : 2 ^ Nat.log 2 n ≤ n := Nat.pow_log_le_self 2 pos.ne'
  have most : n < 2 ^ (Nat.log 2 n + 1) := Nat.lt_pow_succ_log_self (by decide) n
  have small : Nat.log 2 n ≤ 23 := Nat.lt_succ_iff.mp (Nat.log_lt_of_lt_pow pos.ne' hn)
  generalize Nat.log 2 n = l at least most small
  have shifted : 2 ^ 23 ≤ n * 2 ^ (23 - l) := by
    calc 2 ^ 23 = 2 ^ l * 2 ^ (23 - l) := by rw [← Nat.pow_add, Nat.add_sub_cancel' small]
      _ ≤ n * 2 ^ (23 - l) := Nat.mul_le_mul_right _ least
  have bounded : n * 2 ^ (23 - l) < 2 ^ 24 := by
    calc n * 2 ^ (23 - l) < 2 ^ (l + 1) * 2 ^ (23 - l) := Nat.mul_lt_mul_of_pos_right most (by positivity)
      _ = 2 ^ 24 := by rw [← Nat.pow_add]; congr 1; omega
  refine ⟨BitVec.ofNat 32 ((l + 127 - k) * 2 ^ 23 + (n * 2 ^ (23 - l) - 2 ^ 23)), number_pattern (by omega) (by omega), ?_⟩
  rw [value_pattern (by omega) (by omega) (by omega), Nat.add_sub_cancel' shifted, Nat.cast_mul, Nat.cast_pow, Nat.cast_ofNat,
    ← zpow_natCast, mul_assoc, ← zpow_add₀ (by norm_num), div_eq_mul_inv, ← zpow_natCast, ← zpow_neg]
  congr 2
  omega

end Fields

section Nearest

variable {v : ℚ} {q r : BitVec 32}

theorem exists_nearest (v : ℚ) : ∃ r, Nearest v r := by
  have : Finite {q : BitVec 32 // Number q} :=
    Finite.of_injective (fun q => q.1.toFin) fun p q same => Subtype.ext (BitVec.toFin_injective same)
  have : Nonempty {q : BitVec 32 // Number q} := ⟨0, by decide⟩
  obtain ⟨⟨r, number⟩, least⟩ := Finite.exists_min fun q : {q : BitVec 32 // Number q} => |value q.1 - v|
  exact ⟨r, number, fun q number => least ⟨q, number⟩⟩

/-- Numbers are rounded to themselves. -/
theorem Nearest.eq (h : Nearest v r) (number : Number q) (same : value q = v) : value r = v := by
  have close := h.2 q number
  rw [same, sub_self, abs_zero] at close
  exact sub_eq_zero.mp (abs_eq_zero.mp (le_antisymm close (abs_nonneg _)))

/-- Rounding does not pass a number. -/
theorem Nearest.le (h : Nearest v r) (number : Number q) (le : value q ≤ v) : value q ≤ value r := by
  have close := h.2 q number
  rw [abs_sub_comm (value q), abs_of_nonneg (sub_nonneg.mpr le)] at close
  have := (abs_le.mp close).1
  linarith

theorem Nearest.nonneg (h : Nearest v r) (nonneg : 0 ≤ v) : 0 ≤ value r :=
  value_zero ▸ h.le (by decide) (value_zero.symm ▸ nonneg)

/-- Zero is not closer. -/
theorem Nearest.le_two_mul (h : Nearest v r) (nonneg : 0 ≤ v) : value r ≤ 2 * v := by
  have close := h.2 0 (by decide)
  rw [value_zero, zero_sub, abs_neg, abs_of_nonneg nonneg] at close
  have := (abs_le.mp close).2
  linarith

end Nearest

/-! ### Rounding a scaled value -/

section Scaled

variable {v : ℚ} {s n : ℕ} {q : BitVec 32}

/-- Numbers from `2 ^ -s` on are multiples of `2 ^ -(s + 23)`. -/
theorem exists_multiple (large : 1 ≤ value q * 2 ^ s) : ∃ k : ℤ, value q = k / 2 ^ (s + 23) := by
  have below : (significand q : ℚ) < 2 ^ 24 := by
    have := fraction_lt q
    unfold significand
    split <;> exact_mod_cast (by omega)
  have scaled (z : ℤ) : (2 : ℚ) ^ z * 2 ^ s = 2 ^ (z + s) := by rw [← zpow_natCast, ← zpow_add₀ two_ne_zero]
  have sign : negative q = false := by
    by_contra minus
    rw [value, Bool.eq_true_of_not_eq_false minus, if_pos rfl] at large
    have : (0 : ℚ) ≤ significand q * 2 ^ ((max (exponent q) 1 : ℕ) - 150 : ℤ) * 2 ^ s :=
      mul_nonneg (mul_nonneg (Nat.cast_nonneg _) (zpow_nonneg zero_le_two _)) (pow_nonneg zero_le_two _)
    linarith
  rw [value, sign, if_neg Bool.false_ne_true, one_mul] at large ⊢
  generalize ((max (exponent q) 1 : ℕ) - 150 : ℤ) = z at large ⊢
  rw [mul_assoc, scaled] at large
  have whole : 0 ≤ z + s + 23 := by
    by_contra short
    have tiny : (2 : ℚ) ^ (z + s) ≤ 2 ^ (-24 : ℤ) := zpow_le_zpow_right₀ one_le_two (by omega)
    have : (significand q : ℚ) * 2 ^ (z + s) < 2 ^ 24 * 2 ^ (-24 : ℤ) :=
      mul_lt_mul below tiny (zpow_pos two_pos _) (by positivity)
    norm_num at this
    linarith
  obtain ⟨j, hj⟩ := Int.eq_ofNat_of_zero_le whole
  refine ⟨significand q * 2 ^ j, ?_⟩
  rw [eq_div_iff (by positivity), mul_assoc, ← zpow_natCast, ← zpow_add₀ two_ne_zero]
  push_cast
  rw [← zpow_natCast (2 : ℚ) j, ← hj, add_assoc z]

theorem value_scaled {f : ℕ} (hs : s ≤ 126) (hf : f < 2 ^ 23) :
    value (BitVec.ofNat 32 ((127 - s) * 2 ^ 23 + f)) = (2 ^ 23 + f : ℕ) / 2 ^ (s + 23) := by
  have power : ((127 - s : ℕ) - 150 : ℤ) = -((s + 23 : ℕ) : ℤ) := by omega
  rw [value_pattern (by omega) (by omega) hf, div_eq_mul_inv, ← zpow_natCast, ← zpow_neg, power]

/-- A value is rounded by rounding its multiple to 24 bits. -/
theorem nearest_of_scaled {f : ℕ} (hs : s ≤ 126) (hf : f < 2 ^ 23) (same : n = 2 ^ 23 + f) (least : 1 ≤ v * 2 ^ s)
    (close : |(n : ℚ) - v * 2 ^ (s + 23)| ≤ 1 / 2) : Nearest v (BitVec.ofNat 32 ((127 - s) * 2 ^ 23 + f)) := by
  have positive : (0 : ℚ) < 2 ^ (s + 23) := by positivity
  have valued := value_scaled hs hf
  rw [← same] at valued
  have distance (k : ℚ) : |k / 2 ^ (s + 23) - v| = |k - v * 2 ^ (s + 23)| / 2 ^ (s + 23) := by
    rw [← abs_of_pos positive, ← abs_div, abs_of_pos positive, sub_div, mul_div_cancel_right₀ _ positive.ne']
  -- the integer is at least as close as any other one
  have closest (k : ℤ) : |(n : ℚ) - v * 2 ^ (s + 23)| ≤ |(k : ℚ) - v * 2 ^ (s + 23)| := by
    by_cases same : k = n
    · rw [same, Int.cast_natCast]
    have apart : (1 : ℚ) ≤ |(k : ℚ) - n| := by exact_mod_cast Int.one_le_abs (sub_ne_zero.mpr same)
    have := abs_sub_le (k : ℚ) (v * 2 ^ (s + 23)) n
    rw [abs_sub_comm (v * 2 ^ (s + 23))] at this
    linarith
  refine ⟨number_pattern (by omega) hf, fun q _ => ?_⟩
  rw [valued, distance]
  by_cases large : 1 ≤ value q * 2 ^ s
  · obtain ⟨k, hk⟩ := exists_multiple large
    rw [hk, distance]
    exact div_le_div_of_nonneg_right (closest k) positive.le
  · -- smaller numbers are further away than `2 ^ -s`
    obtain ⟨b, unit⟩ : ∃ b : ℤ, (2 : ℚ) ^ s * b = 2 ^ (s + 23) := ⟨8388608, by norm_num [pow_add]⟩
    have bound := closest b
    rw [← unit] at positive bound ⊢
    have scale : (0 : ℚ) < 2 ^ s := by positivity
    have some : (0 : ℚ) < b := pos_of_mul_pos_right positive scale.le
    have left : v * (2 ^ s * b) - b ≤ (v - value q) * (2 ^ s * b) := by nlinarith
    have above : (b : ℚ) ≤ v * (2 ^ s * b) := by nlinarith
    rw [abs_sub_comm (b : ℚ), abs_of_nonneg (sub_nonneg.mpr above)] at bound
    rw [div_le_iff₀ positive]
    calc |(n : ℚ) - v * (2 ^ s * b)| ≤ (v - value q) * (2 ^ s * b) := bound.trans left
      _ ≤ |value q - v| * (2 ^ s * b) :=
        mul_le_mul_of_nonneg_right ((neg_sub (value q) v ▸ neg_le_abs (value q - v))) positive.le

end Scaled

end Pi5Drivers.Single
