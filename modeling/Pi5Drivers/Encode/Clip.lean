import Mathlib.Tactic.FieldSimp
import Pi5Drivers.Encode.Commands
import Pi5Drivers.Lib.Single

/-! What a draw may paint. The viewport is a rectangle of floats, which the encoder turns into numbers with 16 bits
behind the point by moving their bits. A pixel is painted where its centre is in the viewport, and all of this is
exact in numbers of 32 bits. -/

namespace Pi5Drivers.Encode

open Single

/-! ### Numbers of 32 bits -/

def viewportFixed32 (bits : BitVec 32) : Option (BitVec 32) :=
  if bits &&& 0x7fffffff = 0 then some 0
  else if 0x45800000 < bits then none
  else
    let shift : ℤ := ((bits >>> 23) &&& 255).toNat - 127 - 7
    let mantissa := (bits &&& 0x7fffff) ||| 0x800000
    some (if 0 ≤ shift then mantissa <<< shift.toNat else if shift ≤ -32 then 0 else mantissa >>> (-shift).toNat)

/-- The corner and the size of a viewport. -/
structure Fixed32 where
  x : BitVec 32
  y : BitVec 32
  width : BitVec 32
  height : BitVec 32
deriving DecidableEq, Repr

def viewportRect32 (bits : Fin 4 → BitVec 32) (width height : BitVec 32) : Option Fixed32 := do
  let x ← viewportFixed32 (bits 0)
  let y ← viewportFixed32 (bits 1)
  let w ← viewportFixed32 (bits 2)
  let h ← viewportFixed32 (bits 3)
  if w ≠ 0 ∧ h ≠ 0 ∧ x.setWidth 64 + w.setWidth 64 ≤ width.setWidth 64 <<< 16 ∧
      y.setWidth 64 + h.setWidth 64 ≤ height.setWidth 64 <<< 16 then some ⟨x, y, w, h⟩
  else none

def clipRect32 (d : Draw) : Box :=
  let r : Box :=
    if d.viewportSet then
      let fixed := (viewportRect32 d.viewport d.width d.height).getD ⟨0, 0, 0, 0⟩
      ⟨(fixed.x + 32767) >>> 16, (fixed.y + 32767) >>> 16, (fixed.x + fixed.width + 32767) >>> 16,
        (fixed.y + fixed.height + 32767) >>> 16⟩
    else ⟨0, 0, d.width, d.height⟩
  let s := d.pipeline.scissor
  let r : Box :=
    if d.pipeline.flags &&& 8 ≠ 0 then
      ⟨if r.left < s.left then s.left else r.left, if r.top < s.top then s.top else r.top,
        if s.right < r.right then s.right else r.right, if s.bottom < r.bottom then s.bottom else r.bottom⟩
    else r
  if r.right ≤ r.left ∨ r.bottom ≤ r.top then { r with right := r.left, bottom := r.top } else r

def Box.toRect (b : Box) : Rect := ⟨b.left.toNat, b.top.toNat, b.right.toNat, b.bottom.toNat⟩

/-- A pixel of a rectangle. -/
def Rect.Inside (r : Rect) (x y : ℕ) : Prop := r.left ≤ x ∧ x < r.right ∧ r.top ≤ y ∧ y < r.bottom

/-! ### Floats with 16 bits behind the point -/

section Floats

variable {bits : BitVec 32} {n : ℕ}

theorem exponent_eq (bits : BitVec 32) : ((bits >>> 23) &&& 255).toNat = exponent bits := by
  rw [BitVec.toNat_and, BitVec.toNat_ushiftRight, Nat.shiftRight_eq_div_pow]
  exact Nat.and_two_pow_sub_one_eq_mod _ 8

theorem mantissa_eq (bits : BitVec 32) : ((bits &&& 0x7fffff) ||| 0x800000).toNat = 2 ^ 23 + fraction bits := by
  have low : (bits &&& 0x7fffff).toNat = fraction bits := by
    rw [BitVec.toNat_and]
    exact Nat.and_two_pow_sub_one_eq_mod _ 23
  rw [BitVec.toNat_or, low, Nat.or_comm]
  exact (Nat.two_pow_add_eq_or_of_lt (fraction_lt bits) 1).symm

/-- The bits without the sign. -/
theorem unsigned_eq (bits : BitVec 32) : bits &&& 0x7fffffff = 0 ↔ exponent bits = 0 ∧ fraction bits = 0 := by
  have low : (bits &&& 0x7fffffff).toNat = bits.toNat % 2 ^ 31 := by
    rw [BitVec.toNat_and]
    exact Nat.and_two_pow_sub_one_eq_mod _ 31
  have same : bits &&& 0x7fffffff = 0 ↔ bits.toNat % 2 ^ 31 = 0 := by
    rw [← low]
    exact ⟨congrArg BitVec.toNat, fun h => BitVec.eq_of_toNat_eq h⟩
  rw [same, exponent, fraction]
  omega

/-- Numbers up to 4096 are not negative, and only 4096 itself has its exponent. -/
theorem small_fields (h : ¬0x45800000 < bits) :
    negative bits = false ∧ exponent bits ≤ 139 ∧ (exponent bits = 139 → fraction bits = 0) := by
  have small : bits.toNat ≤ 0x45800000 := BitVec.not_lt.mp h
  unfold negative exponent fraction
  refine ⟨decide_eq_false (by omega), by omega, by omega⟩

/-- A value below 1 in the highest place that is kept. -/
theorem floor_value (positive : negative bits = false) {k : ℕ} (hk : max (exponent bits) 1 + k = 134) :
    ⌊value bits * 65536⌋ = (significand bits / 2 ^ k : ℕ) := by
  have power : (2 : ℚ) ^ (max (exponent bits) 1 - 150 : ℤ) * 65536 = 1 / (2 ^ k : ℕ) := by
    have exponents : (max (exponent bits) 1 - 150 : ℤ) = -(k : ℤ) - 16 := by
      have := congrArg (Nat.cast (R := ℤ)) hk
      push_cast at this
      omega
    rw [exponents, zpow_sub₀ (by norm_num), zpow_neg, zpow_natCast]
    push_cast
    norm_num
  have whole : value bits * 65536 = (significand bits : ℚ) / (2 ^ k : ℕ) := by
    rw [value, positive, if_neg (by decide), one_mul, mul_assoc, power, mul_one_div]
  rw [whole]
  exact Rat.floor_natCast_div_natCast _ _

/-- A value whose bits are all before the point. -/
theorem floor_value_large (positive : negative bits = false) {k : ℕ} (hk : exponent bits = 134 + k) :
    ⌊value bits * 65536⌋ = (significand bits * 2 ^ k : ℕ) := by
  have power : (2 : ℚ) ^ (max (exponent bits) 1 - 150 : ℤ) * 65536 = (2 ^ k : ℕ) := by
    have exponents : (max (exponent bits) 1 - 150 : ℤ) = (k : ℤ) - 16 := by
      rw [hk]
      push_cast
      omega
    rw [exponents, zpow_sub₀ (by norm_num), zpow_natCast]
    push_cast
    norm_num
  have whole : value bits * 65536 = (significand bits * 2 ^ k : ℕ) := by
    rw [value, positive, if_neg (by decide), one_mul, mul_assoc, power, Nat.cast_mul]
  rw [whole]
  exact Int.floor_natCast _

/-- The fixed number is the largest one that is not above the value. -/
theorem viewportFixed_floor (h : viewportFixed bits = some n) : (n : ℤ) = ⌊value bits * 65536⌋ ∧ n ≤ 2 ^ 28 := by
  unfold viewportFixed at h
  split at h
  · obtain rfl := Option.some.inj h
    obtain ⟨none, no⟩ := (unsigned_eq bits).mp (by assumption)
    have zero : value bits = 0 := by rw [value, significand, if_pos none, no, Nat.cast_zero, mul_zero, zero_mul]
    rw [zero, zero_mul]
    exact ⟨rfl, by decide⟩
  split at h
  · exact nomatch h
  rename_i range
  obtain ⟨positive, small, last⟩ := small_fields range
  have short := fraction_lt bits
  obtain rfl := Option.some.inj h
  rw [exponent_eq, mantissa_eq]
  by_cases large : 134 ≤ exponent bits
  · obtain ⟨k, hk⟩ := Nat.exists_eq_add_of_le large
    have normal : significand bits = 2 ^ 23 + fraction bits := if_neg (by omega)
    rw [if_pos large, hk, Nat.add_sub_cancel_left, Nat.shiftLeft_eq, ← normal, floor_value_large positive hk]
    refine ⟨rfl, ?_⟩
    rw [normal]
    obtain rfl | rfl | rfl | rfl | rfl | rfl : k = 0 ∨ k = 1 ∨ k = 2 ∨ k = 3 ∨ k = 4 ∨ k = 5 := by omega
    all_goals omega
  · rw [if_neg large]
    have hk : max (exponent bits) 1 + (134 - max (exponent bits) 1) = 134 := by omega
    rw [floor_value positive hk]
    by_cases tiny : exponent bits + 32 ≤ 134
    · rw [if_pos tiny]
      refine ⟨?_, by decide⟩
      have below : significand bits < 2 ^ (134 - max (exponent bits) 1) := by
        refine Nat.lt_of_lt_of_le (m := 2 ^ 24) ?_ (Nat.pow_le_pow_right (by decide) (by omega))
        unfold significand
        split <;> omega
      rw [Nat.div_eq_of_lt below]
    · have normal : significand bits = 2 ^ 23 + fraction bits := if_neg (by omega)
      have same : max (exponent bits) 1 = exponent bits := by omega
      rw [if_neg tiny, same, normal, Nat.shiftRight_eq_div_pow]
      refine ⟨rfl, Nat.le_trans (Nat.div_le_self _ _) (by omega)⟩

/-- The same number in 32 bits. -/
theorem viewportFixed32_eq (bits : BitVec 32) : (viewportFixed32 bits).map BitVec.toNat = viewportFixed bits := by
  rcases exact' : viewportFixed bits with _ | n
  · unfold viewportFixed at exact'
    unfold viewportFixed32
    split at exact'
    · exact nomatch exact'
    · split at exact'
      · rename_i h h'
        rw [if_neg h, if_pos h']
        rfl
      · exact nomatch exact'
  · have bound := (viewportFixed_floor exact').2
    unfold viewportFixed at exact'
    unfold viewportFixed32
    split at exact'
    · rename_i h
      rw [if_pos h, ← exact']
      rfl
    split at exact'
    · exact nomatch exact'
    rename_i h h'
    rw [if_neg h, if_neg h']
    have same := Option.some.inj exact'
    simp only at same ⊢
    rw [Option.map_some, Option.some_inj]
    rw [exponent_eq] at same ⊢
    by_cases large : 134 ≤ exponent bits
    · have shift : ((exponent bits : ℤ) - 127 - 7).toNat = exponent bits - 134 := by omega
      rw [if_pos large] at same
      rw [if_pos (by omega), shift, BitVec.toNat_shiftLeft, same]
      exact Nat.mod_eq_of_lt (by omega)
    · rw [if_neg large] at same
      rw [if_neg (by omega)]
      by_cases tiny : exponent bits + 32 ≤ 134
      · rw [if_pos tiny] at same
        rw [if_pos (by omega)]
        exact same
      · have shift : (-((exponent bits : ℤ) - 127 - 7)).toNat = 134 - exponent bits := by omega
        rw [if_neg tiny] at same
        rw [if_neg (by omega), shift, BitVec.toNat_ushiftRight, same]

end Floats

/-! ### Rectangles -/

section Rectangles

variable {d : Draw} {f : Fixed32}

def Fixed32.toFixed (f : Fixed32) : Fixed := ⟨f.x.toNat, f.y.toNat, f.width.toNat, f.height.toNat⟩

theorem fixed_small {bits fixed : BitVec 32} (h : viewportFixed32 bits = some fixed) :
    viewportFixed bits = some fixed.toNat ∧ fixed.toNat ≤ 2 ^ 28 := by
  have same := viewportFixed32_eq bits
  rw [h] at same
  exact ⟨same.symm, (viewportFixed_floor same.symm).2⟩

/-- The sums of 64 bits are those of the numbers. -/
theorem inFrame_iff (a b size : BitVec 32) :
    a.setWidth 64 + b.setWidth 64 ≤ size.setWidth 64 <<< 16 ↔ a.toNat + b.toNat ≤ size.toNat * 65536 := by
  have ha := a.isLt
  have hb := b.isLt
  have hs := size.isLt
  have wide (v : BitVec 32) : (v.setWidth 64).toNat = v.toNat := BitVec.toNat_setWidth_of_le (by decide)
  rw [BitVec.le_def, BitVec.toNat_add, BitVec.toNat_shiftLeft, wide, wide, wide, Nat.shiftLeft_eq, Nat.mod_eq_of_lt (by omega),
    Nat.mod_eq_of_lt (by omega)]

theorem viewportRect32_eq (bits : Fin 4 → BitVec 32) (width height : BitVec 32) :
    (viewportRect32 bits width height).map Fixed32.toFixed = viewportRect bits width height := by
  have nonzero (v : BitVec 32) : v.toNat ≠ 0 ↔ v ≠ 0 :=
    not_congr ⟨fun h => BitVec.eq_of_toNat_eq h, congrArg BitVec.toNat⟩
  unfold viewportRect32 viewportRect
  simp only [← viewportFixed32_eq]
  rcases viewportFixed32 (bits 0) with _ | x
  · rfl
  rcases viewportFixed32 (bits 1) with _ | y
  · rfl
  rcases viewportFixed32 (bits 2) with _ | w
  · rfl
  rcases viewportFixed32 (bits 3) with _ | h
  · rfl
  change Option.map _ (if _ then _ else _) = if w.toNat ≠ 0 ∧ h.toNat ≠ 0 ∧ x.toNat + w.toNat ≤ width.toNat * 65536 ∧
    y.toNat + h.toNat ≤ height.toNat * 65536 then _ else _
  simp only [nonzero, inFrame_iff]
  split <;> rfl

/-- What is known of a viewport that is accepted. -/
structure Accepted (d : Draw) (f : Fixed32) : Prop where
  x : (f.x.toNat : ℤ) = ⌊value (d.viewport 0) * 65536⌋
  y : (f.y.toNat : ℤ) = ⌊value (d.viewport 1) * 65536⌋
  width : (f.width.toNat : ℤ) = ⌊value (d.viewport 2) * 65536⌋
  height : (f.height.toNat : ℤ) = ⌊value (d.viewport 3) * 65536⌋
  across : f.x.toNat + f.width.toNat ≤ d.width.toNat * 65536
  down : f.y.toNat + f.height.toNat ≤ d.height.toNat * 65536
  small : f.x.toNat + f.width.toNat + 32767 < 2 ^ 32 ∧ f.y.toNat + f.height.toNat + 32767 < 2 ^ 32

theorem viewportRect32_accepted (h : viewportRect32 d.viewport d.width d.height = some f) : Accepted d f := by
  unfold viewportRect32 at h
  rcases hx : viewportFixed32 (d.viewport 0) with _ | x <;> rw [hx] at h
  · exact nomatch h
  rcases hy : viewportFixed32 (d.viewport 1) with _ | y <;> rw [hy] at h
  · exact nomatch h
  rcases hw : viewportFixed32 (d.viewport 2) with _ | w <;> rw [hw] at h
  · exact nomatch h
  rcases hh : viewportFixed32 (d.viewport 3) with _ | hgt <;> rw [hh] at h
  · exact nomatch h
  obtain ⟨ex, sx⟩ := fixed_small hx
  obtain ⟨ey, sy⟩ := fixed_small hy
  obtain ⟨ew, sw⟩ := fixed_small hw
  obtain ⟨eh, sh⟩ := fixed_small hh
  change (if _ then _ else _) = _ at h
  split at h
  · rename_i inside
    rw [inFrame_iff, inFrame_iff] at inside
    obtain rfl := Option.some.inj h
    exact ⟨(viewportFixed_floor ex).1, (viewportFixed_floor ey).1, (viewportFixed_floor ew).1, (viewportFixed_floor eh).1,
      inside.2.2.1, inside.2.2.2, by simp only; omega, by simp only; omega⟩
  · exact nomatch h

/-- An edge, moved to the first pixel whose centre is not before it. -/
theorem edge_eq {a : BitVec 32} (small : a.toNat + 32767 < 2 ^ 32) : ((a + 32767) >>> 16).toNat = (a.toNat + 32767) / 65536 := by
  have sum : (a + 32767).toNat = a.toNat + 32767 := BitVec.toNat_add_of_lt small
  rw [BitVec.toNat_ushiftRight, sum, Nat.shiftRight_eq_div_pow]

theorem edge_sum_eq {a b : BitVec 32} (small : a.toNat + b.toNat + 32767 < 2 ^ 32) :
    ((a + b + 32767) >>> 16).toNat = (a.toNat + b.toNat + 32767) / 65536 := by
  have sum : (a + b).toNat = a.toNat + b.toNat := BitVec.toNat_add_of_lt (by omega)
  rw [edge_eq (by rw [sum]; exact small), sum]

theorem toNat_max (a b : BitVec 32) : (if a < b then b else a).toNat = max a.toNat b.toNat := by
  split
  · rename_i h
    exact (Nat.max_eq_right (Nat.le_of_lt h)).symm
  · rename_i h
    exact (Nat.max_eq_left (BitVec.not_lt.mp h)).symm

theorem toNat_min (a b : BitVec 32) : (if b < a then b else a).toNat = min a.toNat b.toNat := by
  split
  · rename_i h
    exact (Nat.min_eq_right (Nat.le_of_lt h)).symm
  · rename_i h
    exact (Nat.min_eq_left (BitVec.not_lt.mp h)).symm

theorem scissored (r s : Box) (c : Prop) [Decidable c] :
    (if c then
        (⟨if r.left < s.left then s.left else r.left, if r.top < s.top then s.top else r.top,
          if s.right < r.right then s.right else r.right, if s.bottom < r.bottom then s.bottom else r.bottom⟩ : Box)
      else r).toRect =
      if c then
        ⟨max r.toRect.left s.left.toNat, max r.toRect.top s.top.toNat, min r.toRect.right s.right.toNat,
          min r.toRect.bottom s.bottom.toNat⟩
      else r.toRect := by
  split
  · change Rect.mk _ _ _ _ = Rect.mk _ _ _ _
    rw [toNat_max, toNat_max, toNat_min, toNat_min]
    rfl
  · rfl

theorem emptied (r : Box) :
    (if r.right ≤ r.left ∨ r.bottom ≤ r.top then { r with right := r.left, bottom := r.top } else r).toRect =
      if r.toRect.right ≤ r.toRect.left ∨ r.toRect.bottom ≤ r.toRect.top then
        { r.toRect with right := r.toRect.left, bottom := r.toRect.top }
      else r.toRect := by
  have same : (r.right ≤ r.left ∨ r.bottom ≤ r.top) ↔ (r.toRect.right ≤ r.toRect.left ∨ r.toRect.bottom ≤ r.toRect.top) := Iff.rfl
  by_cases empty : r.right ≤ r.left ∨ r.bottom ≤ r.top
  · rw [if_pos empty, if_pos (same.mp empty)]
    rfl
  · rw [if_neg empty, if_neg fun no => empty (same.mpr no)]

/-- Nothing wraps in 32 bits. -/
theorem clipRect32_eq (d : Draw) : (clipRect32 d).toRect = clipRect d := by
  have start : (if d.viewportSet then
        let fixed := (viewportRect32 d.viewport d.width d.height).getD ⟨0, 0, 0, 0⟩
        (⟨(fixed.x + 32767) >>> 16, (fixed.y + 32767) >>> 16, (fixed.x + fixed.width + 32767) >>> 16,
          (fixed.y + fixed.height + 32767) >>> 16⟩ : Box)
      else ⟨0, 0, d.width, d.height⟩).toRect =
        if d.viewportSet then
          ⟨(d.fixed.x + 32767) / 65536, (d.fixed.y + 32767) / 65536, (d.fixed.x + d.fixed.width + 32767) / 65536,
            (d.fixed.y + d.fixed.height + 32767) / 65536⟩
        else ⟨0, 0, d.width.toNat, d.height.toNat⟩ := by
    split
    · rw [Draw.fixed, ← viewportRect32_eq]
      rcases h : viewportRect32 d.viewport d.width d.height with _ | f
      · rfl
      · obtain ⟨-, -, -, -, -, -, sx, sy⟩ := viewportRect32_accepted h
        change Rect.mk _ _ _ _ = Rect.mk _ _ _ _
        rw [Option.getD_some, edge_eq (by omega), edge_eq (by omega), edge_sum_eq sx, edge_sum_eq sy]
        rfl
    · rfl
  unfold clipRect32 clipRect
  simp only
  rw [← start, emptied, scissored]

theorem inside_emptied (r : Rect) (x y : ℕ) :
    (if r.right ≤ r.left ∨ r.bottom ≤ r.top then { r with right := r.left, bottom := r.top } else r).Inside x y ↔ r.Inside x y := by
  unfold Rect.Inside
  split
  · simp only
    omega
  · exact Iff.rfl

/-- The pixels that are painted are those whose centres are in the viewport, in the scissor where there is one. The numbers of the
viewport are its floats without the bits that have no place. -/
theorem clipRect_exact (d : Draw) (f : Fixed32) (set : d.viewportSet = true)
    (accepted : viewportRect32 d.viewport d.width d.height = some f) :
    Accepted d f ∧ (clipRect32 d).toRect = clipRect d ∧
      ∀ x y, (clipRect32 d).toRect.Inside x y ↔
        (f.x.toNat ≤ x * 65536 + 32768 ∧ x * 65536 + 32768 < f.x.toNat + f.width.toNat ∧
          f.y.toNat ≤ y * 65536 + 32768 ∧ y * 65536 + 32768 < f.y.toNat + f.height.toNat) ∧
        (d.pipeline.flags &&& 8 ≠ 0 → d.pipeline.scissor.toRect.Inside x y) ∧ x < d.width.toNat ∧ y < d.height.toNat := by
  have known := viewportRect32_accepted accepted
  have fixed : d.fixed = f.toFixed := by
    rw [Draw.fixed, ← viewportRect32_eq, accepted]
    rfl
  refine ⟨known, clipRect32_eq d, fun x y => ?_⟩
  have across := known.across
  have down := known.down
  rw [clipRect32_eq, clipRect, inside_emptied, if_pos set, fixed]
  by_cases scissor : d.pipeline.flags &&& 8 ≠ 0
  · rw [if_pos scissor]
    simp only [Rect.Inside, Box.toRect, Fixed32.toFixed, max_le_iff, lt_min_iff, imp_iff_right scissor]
    omega
  · rw [if_neg scissor]
    simp only [Rect.Inside, Fixed32.toFixed, scissor, false_imp_iff, true_and]
    omega

/-- A draw whose viewport begins and ends in the middle of a pixel. -/
def halves : Draw :=
  ⟨4, 1, 256, 0x10000, 0x20000, 0, 0x30000, 0x30100, 0x30200, 0x30300, 0x30400, 0x30500, 0x40000, 64, 3, 0, 0, 0, 0, 4, 7,
    fun i => [0x3f000000, 0, 0x40000000, 0x3f800000].getD i.val 0, true, false,
    ⟨4, 1, 15, ⟨0, 0, 0, 0⟩, fun i => if i.val % 3 = 0 then 1 else 0, 0, fun _ => 0, ⟨0, 0, 0, 0⟩⟩⟩

/-- The pixel in which it begins is painted, and the one in which it ends is not. -/
theorem halves_exact : (clipRect32 halves).toRect.Inside 0 0 ∧ ¬(clipRect32 halves).toRect.Inside 2 0 := by
  have exact' := (clipRect_exact halves ⟨0x8000, 0, 0x20000, 0x10000⟩ (by decide) (by decide)).2.2
  exact ⟨(exact' 0 0).mpr ⟨by decide, fun no => absurd rfl no, by decide, by decide⟩, fun no => absurd ((exact' 2 0).mp no).1 (by decide)⟩

end Rectangles

end Pi5Drivers.Encode
