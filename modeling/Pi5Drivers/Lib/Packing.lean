import Pi5Drivers.Lib.Common
import Mathlib.Data.List.Basic
import Mathlib.Data.List.TakeDrop
import Mathlib.Algebra.BigOperators.Group.List.Basic
import Mathlib.Tactic.Ring

/-! Records of fields with fixed sizes. A record is the fields one after the other; it is read by
cutting it at the same sizes. A number is a field of bytes, the least significant first. -/

namespace Pi5Drivers

section Fields

variable {α : Type*} {a b c l p : List α} {n : ℕ} {sizes : List ℕ}

/-- The elements from `first` up to `last`. -/
def slice (l : List α) (first last : ℕ) : List α := (l.take last).drop first

/-- `p` in place of what there is at `n`. -/
def patch (l : List α) (n : ℕ) (p : List α) : List α := l.take n ++ p ++ l.drop (n + p.length)

/-- The fields of these sizes at the front of a list. -/
def cut : List ℕ → List α → List (List α)
  | [], _ => []
  | n :: sizes, l => l.take n :: cut sizes (l.drop n)

theorem slice_append (ha : a.length = n) : slice (a ++ b ++ c) n (n + b.length) = b := by
  subst ha
  rw [slice, List.append_assoc, List.take_append]
  simp

theorem slice_append_drop {first last : ℕ} (h : first ≤ last) : slice l first last ++ l.drop last = l.drop first := by
  have rest : l.drop last = (l.drop first).drop (last - first) := by rw [List.drop_drop, Nat.add_sub_cancel' h]
  rw [slice, List.drop_take, rest, List.take_append_drop]

theorem length_slice {first last : ℕ} (h : last ≤ l.length) : (slice l first last).length = last - first := by
  rw [slice, List.length_drop, List.length_take, Nat.min_eq_left h]

theorem patch_append (ha : a.length = n) (hp : p.length = b.length) : patch (a ++ b ++ c) n p = a ++ p ++ c := by
  subst ha
  rw [patch, hp, List.append_assoc]
  simp [List.drop_append]

/-- What is written into an area that nothing was written to yet. -/
theorem patch_blank {x : α} {m : ℕ} (ha : a.length = n) (room : p.length ≤ m) :
    patch (a ++ List.replicate m x) n p = a ++ p ++ List.replicate (m - p.length) x := by
  have area : List.replicate m x = List.replicate p.length x ++ List.replicate (m - p.length) x := by
    rw [List.replicate_append_replicate, Nat.add_sub_cancel' room]
  rw [area, ← List.append_assoc]
  exact patch_append ha List.length_replicate.symm

theorem length_patch (inside : n + p.length ≤ l.length) : (patch l n p).length = l.length := by
  simp only [patch, List.length_append, List.length_take, List.length_drop]
  omega

/-- A record is cut into the fields it was made of. -/
theorem cut_flatten (fields : List (List α)) (c : List α) : cut (fields.map List.length) (fields.flatten ++ c) = fields := by
  induction fields with
  | nil => rfl
  | cons f fields ih =>
    rw [List.map_cons, cut, List.flatten_cons, List.append_assoc, List.take_left, List.drop_left, ih]

/-- The fields and what is behind them are the list. -/
theorem flatten_cut (sizes : List ℕ) (l : List α) : (cut sizes l).flatten ++ l.drop sizes.sum = l := by
  induction sizes generalizing l with
  | nil => rfl
  | cons n sizes ih =>
    have rest := ih (l.drop n)
    rw [List.drop_drop] at rest
    rw [cut, List.flatten_cons, List.sum_cons, List.append_assoc, rest, List.take_append_drop]

theorem length_cut (fits : sizes.sum ≤ l.length) : (cut sizes l).map List.length = sizes := by
  induction sizes generalizing l with
  | nil => rfl
  | cons n sizes ih =>
    rw [List.sum_cons] at fits
    rw [cut, List.map_cons, ih (by rw [List.length_drop]; omega), List.length_take, Nat.min_eq_left (by omega)]

end Fields

section Numbers

variable {n v : ℕ} {l : List (BitVec 8)}

/-- The `n` lowest bytes of a number. -/
def le : ℕ → ℕ → List (BitVec 8)
  | 0, _ => []
  | n + 1, v => BitVec.ofNat 8 v :: le n (v / 256)

def fromLe : List (BitVec 8) → ℕ
  | [] => 0
  | b :: l => b.toNat + 256 * fromLe l

@[simp] theorem length_le : (le n v).length = n := by
  induction n generalizing v with
  | zero => rfl
  | succ n ih => rw [le, List.length_cons, ih]

theorem fromLe_le : fromLe (le n v) = v % 256 ^ n := by
  induction n generalizing v with
  | zero => simp [le, fromLe, Nat.mod_one]
  | succ n ih =>
    have split : v % 256 ^ (n + 1) = v % 256 + 256 * (v / 256 % 256 ^ n) := by rw [Nat.pow_succ', Nat.mod_mul]
    rw [le, fromLe, ih, BitVec.toNat_ofNat, split]

theorem fromLe_le_of_lt (h : v < 256 ^ n) : fromLe (le n v) = v := fromLe_le.trans (Nat.mod_eq_of_lt h)

theorem le_fromLe : le l.length (fromLe l) = l := by
  induction l with
  | nil => rfl
  | cons b l ih =>
    have low : BitVec.ofNat 8 (b.toNat + 256 * fromLe l) = b := by
      apply BitVec.eq_of_toNat_eq
      rw [BitVec.toNat_ofNat]
      have := b.isLt
      omega
    have high : (b.toNat + 256 * fromLe l) / 256 = fromLe l := by
      have := b.isLt
      omega
    rw [List.length_cons, le, fromLe, low, high, ih]

theorem eq_le_of_fromLe (size : l.length = n) (value : fromLe l = v) : l = le n v := by
  rw [← size, ← value, le_fromLe]

theorem fromLe_lt : fromLe l < 256 ^ l.length := by
  induction l with
  | nil => exact Nat.one_pos
  | cons b l ih =>
    have := b.isLt
    rw [fromLe, List.length_cons, Nat.pow_succ']
    omega

end Numbers

section Words

variable {w k : ℕ} {x y : BitVec w} {a b c d : BitVec 8}

/-- A word in front of which there are `k` bits. -/
theorem toNat_or_shiftLeft (low : x.toNat < 2 ^ k) (high : 2 ^ k * y.toNat < 2 ^ w) : (x ||| y <<< k).toNat = x.toNat + 2 ^ k * y.toNat := by
  rw [BitVec.toNat_or, BitVec.toNat_shiftLeft, Nat.shiftLeft_eq, Nat.mul_comm, Nat.mod_eq_of_lt high, Nat.or_comm,
    ← Nat.two_pow_add_eq_or_of_lt low, Nat.add_comm]

def word16 (a b : BitVec 8) : BitVec 16 := a.setWidth 16 ||| b.setWidth 16 <<< 8

def word32 (a b c d : BitVec 8) : BitVec 32 := a.setWidth 32 ||| b.setWidth 32 <<< 8 ||| c.setWidth 32 <<< 16 ||| d.setWidth 32 <<< 24

theorem toNat_word16 : (word16 a b).toNat = fromLe [a, b] := by
  have ha := a.isLt
  have hb := b.isLt
  have low : (a.setWidth 16).toNat = a.toNat := BitVec.toNat_setWidth_of_le (by decide)
  have high : (b.setWidth 16).toNat = b.toNat := BitVec.toNat_setWidth_of_le (by decide)
  rw [word16, toNat_or_shiftLeft (by omega) (by omega), low, high]
  rfl

theorem toNat_word32 : (word32 a b c d).toNat = fromLe [a, b, c, d] := by
  have ha := a.isLt
  have hb := b.isLt
  have hc := c.isLt
  have hd := d.isLt
  have byte (e : BitVec 8) : (e.setWidth 32).toNat = e.toNat := BitVec.toNat_setWidth_of_le (by decide)
  have two : (a.setWidth 32 ||| b.setWidth 32 <<< 8).toNat = a.toNat + 2 ^ 8 * b.toNat := by
    rw [toNat_or_shiftLeft (by rw [byte]; omega) (by rw [byte]; omega), byte, byte]
  have three : (a.setWidth 32 ||| b.setWidth 32 <<< 8 ||| c.setWidth 32 <<< 16).toNat =
      a.toNat + 2 ^ 8 * b.toNat + 2 ^ 16 * c.toNat := by
    rw [toNat_or_shiftLeft (by rw [two]; omega) (by rw [byte]; omega), two, byte]
  rw [word32, toNat_or_shiftLeft (by rw [three]; omega) (by rw [byte]; omega), three, byte]
  simp only [fromLe]
  omega

end Words

end Pi5Drivers
