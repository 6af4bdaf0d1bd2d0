import Pi5Drivers.Lib.BitField
import Pi5Drivers.Display.Start

/-! The registers of a timing, read back. Every value of a timing has its own place in them, the clock lies
in the range of the oscillator, and both readers of the registers, the check of a new mode and the
takeover from the firmware, find the timing that was written. -/

namespace Pi5Drivers.Display

/-! ### Places in a register -/

section Places

variable {x y : BitVec 32} {k : ℕ}

/-- A value above another one, and neither reaches into the other. -/
theorem toNat_place (high : x.toNat < 2 ^ (32 - k)) (low : y.toNat < 2 ^ k) (hk : k ≤ 32) :
    (x <<< k ||| y).toNat = x.toNat * 2 ^ k + y.toNat := by
  have fits : x.toNat * 2 ^ k < 2 ^ 32 := by
    calc x.toNat * 2 ^ k < 2 ^ (32 - k) * 2 ^ k := Nat.mul_lt_mul_of_pos_right high (Nat.two_pow_pos k)
      _ = 2 ^ 32 := by rw [← Nat.pow_add, Nat.sub_add_cancel hk]
  rw [BitVec.toNat_or, BitVec.toNat_shiftLeft, Nat.shiftLeft_eq, Nat.mod_eq_of_lt fits, ← Nat.shiftLeft_eq,
    ← Nat.shiftLeft_add_eq_or_of_lt low]

theorem toNat_pair {m n : ℕ} (hx : x.toNat = m) (hy : y.toNat = n) (hm : m < 2 ^ 16) (hn : n < 2 ^ 16) :
    (x <<< 16 ||| y).toNat = m * 2 ^ 16 + n := by
  rw [toNat_place (hx ▸ hm) (hy ▸ hn) (by decide), hx, hy]

theorem toNat_lowHalf (x : BitVec 32) : (x &&& 65535).toNat = x.toNat % 65536 := by
  rw [BitVec.toNat_and]
  exact Nat.and_two_pow_sub_one_eq_mod x.toNat 16

theorem toNat_highHalf (x : BitVec 32) : (x >>> 16).toNat = x.toNat / 65536 := by
  rw [BitVec.toNat_ushiftRight, Nat.shiftRight_eq_div_pow]

theorem toNat_wide {n : ℕ} (h : n ≤ 32) (a : BitVec n) : (wide a).toNat = a.toNat :=
  BitVec.toNat_setWidth_of_le h

theorem toNat_wide_sub {n : ℕ} (h : n ≤ 32) {a b : BitVec n} (le : b.toNat ≤ a.toNat) :
    (wide a - wide b).toNat = a.toNat - b.toNat := by
  rw [BitVec.toNat_sub_of_le (by rw [BitVec.le_def, toNat_wide h, toNat_wide h]; exact le), toNat_wide h, toNat_wide h]

end Places

/-! ### Supported timings -/

/-- The numbers of a timing. -/
structure Numbers where
  hDisplay : ℕ
  hFront : ℕ
  hSync : ℕ
  hBack : ℕ
  vDisplay : ℕ
  vFront : ℕ
  vSync : ℕ
  vBack : ℕ

namespace Timing

variable (t : Timing)

def numbers : Numbers where
  hDisplay := t.hDisplay.toNat
  hFront := t.hSyncStart.toNat - t.hDisplay.toNat
  hSync := t.hSyncEnd.toNat - t.hSyncStart.toNat
  hBack := t.hTotal.toNat - t.hSyncEnd.toNat
  vDisplay := t.vDisplay.toNat
  vFront := t.vSyncStart.toNat - t.vDisplay.toNat
  vSync := t.vSyncEnd.toNat - t.vSyncStart.toNat
  vBack := t.vTotal.toNat - t.vSyncEnd.toNat

/-- What a supported timing is like, in numbers. -/
structure Bounded : Prop where
  clock : 25000 ≤ t.clock.toNat ∧ t.clock.toNat ≤ 222000
  hDisplay : 640 ≤ t.hDisplay.toNat ∧ t.hDisplay.toNat ≤ 4096
  vDisplay : 480 ≤ t.vDisplay.toNat ∧ t.vDisplay.toNat ≤ 2160
  hEdges : t.hDisplay.toNat ≤ t.hSyncStart.toNat ∧ t.hSyncStart.toNat < t.hSyncEnd.toNat ∧ t.hSyncEnd.toNat < t.hTotal.toNat ∧
    t.hTotal.toNat ≤ 8192
  vEdges : t.vDisplay.toNat ≤ t.vSyncStart.toNat ∧ t.vSyncStart.toNat < t.vSyncEnd.toNat ∧ t.vSyncEnd.toNat < t.vTotal.toNat ∧
    t.vTotal.toNat ≤ 8192
  even : t.hDisplay.toNat % 2 = 0 ∧ t.hSyncStart.toNat % 2 = 0 ∧ t.hSyncEnd.toNat % 2 = 0 ∧ t.hTotal.toNat % 2 = 0
  porches : t.numbers.hBack ≤ 2047 ∧ t.numbers.hSync ≤ 2047 ∧ t.numbers.vBack ≤ 511 ∧ t.numbers.vSync ≤ 31 ∧ t.numbers.vFront ≤ 127

theorem even_of_or {a b : BitVec 16} (h : (a ||| b) &&& 1 = 0) : a &&& 1 = 0 ∧ b &&& 1 = 0 := by
  rw [BitVec.and_or_distrib_right] at h
  exact BitVec.or_eq_zero_iff.mp h

theorem even_of_and {a : BitVec 16} (h : a &&& 1 = 0) : a.toNat % 2 = 0 := by
  have := congrArg BitVec.toNat h
  rwa [BitVec.toNat_and, show (1 : BitVec 16).toNat = 1 from rfl, Nat.and_one_is_mod] at this

theorem NativeSupported.bounded {t : Timing} (h : t.NativeSupported) : t.Bounded := by
  obtain ⟨⟨odd, c0, -, h0, h1, v0, v1, e0, e1, e2, e3, f0, f1, f2, f3, -⟩, c1, p0, p1, p2, p3, p4⟩ := h
  obtain ⟨odd, o3⟩ := even_of_or odd
  obtain ⟨odd, o2⟩ := even_of_or odd
  obtain ⟨o0, o1⟩ := even_of_or odd
  simp only [BitVec.le_def, BitVec.lt_def] at c0 h0 h1 v0 v1 e0 e1 e2 e3 f0 f1 f2 f3 c1
  exact ⟨⟨c0, c1⟩, ⟨h0, h1⟩, ⟨v0, v1⟩, ⟨e0, e1, e2, e3⟩, ⟨f0, f1, f2, f3⟩,
    ⟨even_of_and o0, even_of_and o1, even_of_and o2, even_of_and o3⟩, ⟨p0, p1, p2, p3, p4⟩⟩

end Timing

/-! ### The clock -/

section Clock

/-- What a supported clock makes of the divider. -/
structure Oscillates (clock div : ℕ) : Prop where
  divider : 1 ≤ div ∧ div ≤ 1023
  low : 8000000000 ≤ clock * 10000 * div
  high : clock * 10000 * div ≤ 11999999999

theorem dividers_oscillate {t : Timing} (h : 25000 ≤ t.clock.toNat ∧ t.clock.toNat ≤ 222000) :
    (dividers t).1 ≤ (dividers t).2.1 ∧ (dividers t).2.1 ≤ 1023 ∧ Oscillates t.clock.toNat (dividers t).2.2 := by
  obtain ⟨slow, fast⟩ := h
  generalize bitRate : t.clock.toNat * 10000 = b
  have pos : 0 < b := by omega
  have lowest : (8000000000 + b - 1) / b * b ≤ 8000000000 + b - 1 := Nat.div_mul_le_self _ _
  have covered : 8000000000 ≤ (8000000000 + b - 1) / b * b := by
    have := Nat.lt_div_mul_add (a := 8000000000 + b - 1) pos
    omega
  have highest : 11999999999 / b * b ≤ 11999999999 := Nat.div_mul_le_self _ _
  have order : (8000000000 + b - 1) / b ≤ 11999999999 / b := (Nat.le_div_iff_mul_le pos).mpr (by omega)
  have few : 11999999999 / b ≤ 1023 := Nat.div_le_of_le_mul (by omega)
  have one : 1 ≤ (8000000000 + b - 1) / b := (Nat.le_div_iff_mul_le pos).mpr (by omega)
  simp only [dividers, bitRate]
  generalize (8000000000 + b - 1) / b = lo at *
  generalize 11999999999 / b = hi at *
  refine ⟨order, few, ⟨by omega, by omega⟩, ?_, ?_⟩
  · rw [bitRate]
    calc 8000000000 ≤ lo * b := covered
      _ ≤ b * (lo + (hi - lo) / 2) := by rw [Nat.mul_comm]; exact Nat.mul_le_mul_left b (by omega)
  · rw [bitRate]
    calc b * (lo + (hi - lo) / 2) ≤ hi * b := by rw [Nat.mul_comm hi]; exact Nat.mul_le_mul_left b (by omega)
      _ ≤ 11999999999 := highest

/-- The offset of the oscillator for a clock and a divider. -/
def offsetOf (clock div : ℕ) : ℕ := clock * 10000 * div * 2 ^ 21 / 54000000

theorem Oscillates.offset_lt {clock div : ℕ} (h : Oscillates clock div) : offsetOf clock div < 2 ^ 31 := by
  have := h.high
  unfold offsetOf
  omega

/-- The clock that the oscillator makes, in Hz, is never too fast, and slower by less than its rounding. -/
theorem Oscillates.clock {clock div : ℕ} (h : Oscillates clock div) :
    offsetOf clock div * 54000000 / 2 ^ 21 / (div * 10) ≤ clock * 1000 ∧
      clock * 1000 ≤ offsetOf clock div * 54000000 / 2 ^ 21 / (div * 10) + 3 := by
  have pos : 0 < div * 10 := by have := h.divider; omega
  have exact_ : clock * 10000 * div = clock * 1000 * (div * 10) := by ring
  have near : offsetOf clock div * 54000000 / 2 ^ 21 ≤ clock * 10000 * div ∧
      clock * 10000 * div ≤ offsetOf clock div * 54000000 / 2 ^ 21 + 27 := by
    unfold offsetOf
    omega
  rw [exact_] at near
  generalize offsetOf clock div * 54000000 / 2 ^ 21 = y at near ⊢
  constructor
  · calc y / (div * 10) ≤ clock * 1000 * (div * 10) / (div * 10) := Nat.div_le_div_right near.1
      _ = clock * 1000 := Nat.mul_div_cancel _ pos
  · rw [← Nat.sub_le_iff_le_add, Nat.le_div_iff_mul_le pos, Nat.sub_mul]
    omega

end Clock

/-! ### What is written -/

section Written

variable {t : Timing} {v s : NativeState}

/-- The pixels of a clock of the pixel valve. -/
def pixelsOf (v : NativeState) : ℕ := if v .pvVertical &&& 0x20000000 ≠ 0 then 1 else 2

theorem pixelsOf_cases (v : NativeState) : pixelsOf v = 1 ∨ pixelsOf v = 2 := by
  unfold pixelsOf
  split
  · exact .inl rfl
  · exact .inr rfl

theorem toNat_pixels (v : NativeState) :
    (if v .pvVertical &&& 0x20000000 ≠ 0 then 1 else 2 : BitVec 32).toNat = pixelsOf v := by
  unfold pixelsOf
  split <;> rfl

/-- The registers that do not keep what they had. -/
def rewritten : List NativeField :=
  [.pvHa, .pvHb, .pvVa, .pvVb, .phyReset, .phyPower, .lane0, .lane1, .lane2, .laneClock, .refClock, .postDivider, .vcoDivider, .pllConfig,
    .tmdsWord, .misc0, .misc1, .misc2, .misc3, .misc4, .misc5, .misc6, .misc7, .misc8, .pllReset, .pllPower, .rmOffset, .packetConfig,
    .scheduler, .ha, .hb, .va0, .vb0, .va1, .vb1, .avi0, .avi1, .avi2, .avi3, .avi4, .avi5, .avi6, .avi7, .avi8, .vidControl]

/-- The registers of a timing as they are put together. -/
structure Assembled (t : Timing) (v s : NativeState) : Prop where
  pvHa : s .pvHa = ((wide t.hTotal - wide t.hSyncEnd) / if v .pvVertical &&& 0x20000000 ≠ 0 then 1 else 2) <<< 16 |||
    (wide t.hSyncEnd - wide t.hSyncStart) / if v .pvVertical &&& 0x20000000 ≠ 0 then 1 else 2
  pvHb : s .pvHb = ((wide t.hSyncStart - wide t.hDisplay) / if v .pvVertical &&& 0x20000000 ≠ 0 then 1 else 2) <<< 16 |||
    wide t.hDisplay / if v .pvVertical &&& 0x20000000 ≠ 0 then 1 else 2
  pvVa : s .pvVa = (wide t.vTotal - wide t.vSyncEnd) <<< 16 ||| (wide t.vSyncEnd - wide t.vSyncStart)
  pvVb : s .pvVb = (wide t.vSyncStart - wide t.vDisplay) <<< 16 ||| wide t.vDisplay
  ha : s .ha = (wide t.hSyncStart - wide t.hDisplay) <<< 16 ||| (t.flags &&& 3) <<< 14 ||| wide t.hDisplay
  hb : s .hb = (wide t.hTotal - wide t.hSyncEnd) <<< 16 ||| (wide t.hSyncEnd - wide t.hSyncStart)
  va : ∀ f ∈ [NativeField.va0, .va1], s f =
    (wide t.vSyncEnd - wide t.vSyncStart) <<< 24 ||| (wide t.vSyncStart - wide t.vDisplay) <<< 16 ||| wide t.vDisplay
  vb : ∀ f ∈ [NativeField.vb0, .vb1], s f = wide t.vTotal - wide t.vSyncEnd
  vcoDivider : s .vcoDivider = 0x400 ||| BitVec.ofNat 32 (dividers t).2.2
  rmOffset : s .rmOffset = 0x80000000 ||| BitVec.ofNat 32 (offsetOf t.clock.toNat (dividers t).2.2)
  pllReset : s .pllReset = v .pllReset ||| 1
  scheduler : s .scheduler &&& ~~~3 = v .scheduler &&& ~~~3
  vidControl : s .vidControl &&& ~~~0x98050000 = v .vidControl &&& ~~~0x98050000
  kept : ∀ f, f ∉ rewritten → s f = v f

/-- What is put into a register leaves the bits outside of its mask. -/
theorem masked_or {w : ℕ} {x a c m : BitVec w} (inside : c &&& m = m) (h : a &&& m = 0) : ((x &&& c) ||| a) &&& m = x &&& m := by
  rw [BitVec.and_or_distrib_right, h, BitVec.and_assoc, inside]
  exact BitVec.or_zero

theorem nativeBuild_assembled (h : t.NativeSupported) (v : NativeState) : ∃ s, nativeBuild t v = some s ∧ Assembled t v s := by
  obtain ⟨order, few, -⟩ := dividers_oscillate h.bounded.clock
  rw [nativeBuild, if_pos h]
  simp only
  rw [if_neg (not_or.mpr ⟨Nat.not_lt.mpr order, Nat.not_lt.mpr few⟩)]
  refine ⟨_, rfl, rfl, rfl, rfl, rfl, rfl, rfl, ?_, ?_, rfl, rfl, rfl, ?_, ?_, ?_⟩
  · simp
  · simp
  · exact masked_or (by decide) (by split <;> decide)
  · simp only [BitVec.or_assoc]
    exact masked_or (by decide) (by split <;> split <;> decide)
  · intro f
    cases f <;> first | exact fun _ => rfl | exact fun no => absurd (by decide) no

/-- The numbers of a timing in the places of the registers. -/
structure Packed (n : Numbers) (flags : BitVec 32) (pixels : ℕ) (s : NativeState) : Prop where
  pvHa : (s .pvHa).toNat = n.hBack / pixels * 2 ^ 16 + n.hSync / pixels
  pvHb : (s .pvHb).toNat = n.hFront / pixels * 2 ^ 16 + n.hDisplay / pixels
  pvVa : (s .pvVa).toNat = n.vBack * 2 ^ 16 + n.vSync
  pvVb : (s .pvVb).toNat = n.vFront * 2 ^ 16 + n.vDisplay
  ha : (s .ha).toNat = n.hFront * 2 ^ 16 + flags.toNat % 4 * 2 ^ 14 + n.hDisplay
  hb : (s .hb).toNat = n.hBack * 2 ^ 16 + n.hSync
  va : ∀ f ∈ [NativeField.va0, .va1], (s f).toNat = n.vSync * 2 ^ 24 + n.vFront * 2 ^ 16 + n.vDisplay
  vb : ∀ f ∈ [NativeField.vb0, .vb1], (s f).toNat = n.vBack
  /-- No number reaches into the next place. -/
  fits : n.hDisplay < 2 ^ 14 ∧ n.hFront < 2 ^ 13 ∧ n.hSync < 2 ^ 11 ∧ n.hBack < 2 ^ 11 ∧
    n.vDisplay < 2 ^ 16 ∧ n.vFront < 2 ^ 8 ∧ n.vSync < 2 ^ 8 ∧ n.vBack < 2 ^ 9
  /-- No pixel is lost where the pixel valve counts pairs. -/
  whole : n.hDisplay / pixels * pixels = n.hDisplay ∧ n.hFront / pixels * pixels = n.hFront ∧
    n.hSync / pixels * pixels = n.hSync ∧ n.hBack / pixels * pixels = n.hBack

/-- The places are wide enough. -/
theorem Timing.Bounded.fits {t : Timing} (b : t.Bounded) : t.numbers.hDisplay < 2 ^ 14 ∧ t.numbers.hFront < 2 ^ 13 ∧
    t.numbers.hSync < 2 ^ 11 ∧ t.numbers.hBack < 2 ^ 11 ∧ t.numbers.vDisplay < 2 ^ 16 ∧ t.numbers.vFront < 2 ^ 8 ∧
    t.numbers.vSync < 2 ^ 8 ∧ t.numbers.vBack < 2 ^ 9 := by
  have hd := b.hDisplay
  have vd := b.vDisplay
  have he := b.hEdges
  have porches := b.porches
  simp only [Timing.numbers] at porches ⊢
  omega

theorem Timing.Bounded.whole {t : Timing} (b : t.Bounded) (v : NativeState) :
    t.numbers.hDisplay / pixelsOf v * pixelsOf v = t.numbers.hDisplay ∧ t.numbers.hFront / pixelsOf v * pixelsOf v = t.numbers.hFront ∧
      t.numbers.hSync / pixelsOf v * pixelsOf v = t.numbers.hSync ∧ t.numbers.hBack / pixelsOf v * pixelsOf v = t.numbers.hBack := by
  have even := b.even
  rcases pixelsOf_cases v with one | two
  · simp only [one, Nat.div_one, Nat.mul_one, and_self]
  · simp only [two, Timing.numbers]
    omega

theorem Assembled.packed (h : Assembled t v s) (b : t.Bounded) : Packed t.numbers t.flags (pixelsOf v) s := by
  obtain ⟨he0, he1, he2, -⟩ := b.hEdges
  obtain ⟨ve0, ve1, ve2, -⟩ := b.vEdges
  obtain ⟨w0, w1, w2, w3, w4, w5, w6, w7⟩ := b.fits
  have hf : (wide t.hSyncStart - wide t.hDisplay).toNat = t.numbers.hFront := toNat_wide_sub (by decide) he0
  have hs : (wide t.hSyncEnd - wide t.hSyncStart).toNat = t.numbers.hSync := toNat_wide_sub (by decide) he1.le
  have hb : (wide t.hTotal - wide t.hSyncEnd).toNat = t.numbers.hBack := toNat_wide_sub (by decide) he2.le
  have vf : (wide t.vSyncStart - wide t.vDisplay).toNat = t.numbers.vFront := toNat_wide_sub (by decide) ve0
  have vs : (wide t.vSyncEnd - wide t.vSyncStart).toNat = t.numbers.vSync := toNat_wide_sub (by decide) ve1.le
  have vb : (wide t.vTotal - wide t.vSyncEnd).toNat = t.numbers.vBack := toNat_wide_sub (by decide) ve2.le
  have hd : (wide t.hDisplay).toNat = t.numbers.hDisplay := toNat_wide (by decide) t.hDisplay
  have vd : (wide t.vDisplay).toNat = t.numbers.vDisplay := toNat_wide (by decide) t.vDisplay
  have flags : (t.flags &&& 3).toNat = t.flags.toNat % 4 := by
    rw [BitVec.toNat_and]
    exact Nat.and_two_pow_sub_one_eq_mod t.flags.toNat 2
  have half {x : BitVec 32} {n : ℕ} (hx : x.toNat = n) :
      (x / if v .pvVertical &&& 0x20000000 ≠ 0 then 1 else 2).toNat = n / pixelsOf v := by
    rw [BitVec.toNat_udiv, toNat_pixels, hx]
  have small {n : ℕ} (hn : n < 2 ^ 16) : n / pixelsOf v < 2 ^ 16 := (Nat.div_le_self _ _).trans_lt hn
  refine ⟨?_, ?_, ?_, ?_, ?_, ?_, fun f mem => ?_, fun f mem => ?_, b.fits, b.whole v⟩
  · rw [h.pvHa]
    exact toNat_pair (half hb) (half hs) (small (by omega)) (small (by omega))
  · rw [h.pvHb]
    exact toNat_pair (half hf) (half hd) (small (by omega)) (small (by omega))
  · rw [h.pvVa]
    exact toNat_pair vb vs (by omega) (by omega)
  · rw [h.pvVb]
    exact toNat_pair vf vd (by omega) (by omega)
  · have low : ((t.flags &&& 3) <<< 14 ||| wide t.hDisplay).toNat = t.flags.toNat % 4 * 2 ^ 14 + t.numbers.hDisplay := by
      rw [toNat_place (by rw [flags]; omega) (by rw [hd]; omega) (by decide), flags, hd]
    rw [h.ha, BitVec.or_assoc, toNat_pair hf low (by omega) (by omega), Nat.add_assoc]
  · rw [h.hb]
    exact toNat_pair hb hs (by omega) (by omega)
  · have low := toNat_pair vf vd (by omega) (by omega)
    rw [h.va f mem, BitVec.or_assoc, toNat_place (by rw [vs]; omega) (by rw [low]; omega) (by decide), vs, low, Nat.add_assoc]
  · rw [h.vb f mem, vb]

/-- The clock's registers: the divider and the offset of the oscillator, below the bits that switch them on. -/
theorem Assembled.clocked (h : Assembled t v s) (b : t.Bounded) :
    (s .vcoDivider).toNat = 2 ^ 10 + (dividers t).2.2 ∧ (s .rmOffset).toNat = 2 ^ 31 + offsetOf t.clock.toNat (dividers t).2.2 := by
  obtain ⟨-, -, oscillates⟩ := dividers_oscillate b.clock
  have few := oscillates.divider
  have small := oscillates.offset_lt
  have value (n : ℕ) (hn : n < 2 ^ 32) : (BitVec.ofNat 32 n).toNat = n := by
    rw [BitVec.toNat_ofNat, Nat.mod_eq_of_lt hn]
  constructor
  · have := toNat_place (x := 1) (y := BitVec.ofNat 32 (dividers t).2.2) (k := 10) (by decide) (by rw [value _ (by omega)]; omega) (by decide)
    rw [h.vcoDivider]
    rw [value _ (by omega)] at this
    exact this
  · have := toNat_place (x := 1) (y := BitVec.ofNat 32 (offsetOf t.clock.toNat (dividers t).2.2)) (k := 31) (by decide)
      (by rw [value _ (by omega)]; exact small) (by decide)
    rw [h.rmOffset]
    rw [value _ (by omega)] at this
    exact this

end Written

/-! ### What is read -/

section Readback

variable {t : Timing} {v s : NativeState}

/-- The registers as a check of the signal reads them. -/
def NativeState.signal (s : NativeState) (hvsControl : BitVec 32) : Signal :=
  ⟨s .pvHa, s .pvHb, s .pvVa, s .pvVb, s .pvVertical, s .vcoDivider, s .rmOffset, hvsControl⟩

/-- The control register of the scaler for a raster. -/
def scanControl (t : Timing) : BitVec 32 := 0x80000000 ||| (wide t.hDisplay - 1) <<< 16 ||| (wide t.vDisplay - 1)

theorem pair_high {m n : ℕ} (hn : n < 2 ^ 16) : (m * 2 ^ 16 + n) / 65536 = m := by omega

theorem pair_low {m n : ℕ} (hn : n < 2 ^ 16) : (m * 2 ^ 16 + n) % 65536 = n := by omega

/-- The clock of the signal is the requested one up to its rounding. -/
theorem clocked_signal (assembled : Assembled t v s) (b : t.Bounded) (hvsControl : BitVec 32) : (s.signal hvsControl).Clocked t := by
  obtain ⟨-, -, oscillates⟩ := dividers_oscillate b.clock
  obtain ⟨vco, offset⟩ := assembled.clocked b
  obtain ⟨one, few⟩ := oscillates.divider
  have div : (s .vcoDivider &&& 1023).toNat = (dividers t).2.2 := by
    rw [BitVec.toNat_and, vco]
    refine (Nat.and_two_pow_sub_one_eq_mod _ 10).trans ?_
    omega
  have rm : (s .rmOffset &&& 0x7fffffff).toNat = offsetOf t.clock.toNat (dividers t).2.2 := by
    rw [BitVec.toNat_and, offset]
    refine (Nat.and_two_pow_sub_one_eq_mod _ 31).trans ?_
    have := oscillates.offset_lt
    omega
  obtain ⟨le, near⟩ := oscillates.clock
  have divides : (dividers t).2.2 ≠ 0 := by omega
  simp only [Signal.Clocked, NativeState.signal, div, rm]
  rw [if_pos divides, if_neg (by omega)]
  omega

/-- The registers of a timing, read back, show it. -/
theorem shows_signal (assembled : Assembled t v s) (b : t.Bounded) : (s.signal (scanControl t)).Shows t := by
  have packed := assembled.packed b
  obtain ⟨he0, he1, he2, -⟩ := b.hEdges
  obtain ⟨ve0, ve1, ve2, -⟩ := b.vEdges
  obtain ⟨w0, w1, w2, w3, w4, w5, w6, w7⟩ := b.fits
  obtain ⟨e0, e1, e2, e3⟩ := b.whole v
  have vertical : s .pvVertical = v .pvVertical := assembled.kept .pvVertical (by decide)
  have small {n : ℕ} (hn : n < 2 ^ 16) : n / pixelsOf v < 2 ^ 16 := (Nat.div_le_self _ _).trans_lt hn
  -- a count of the pixel valve, in pixels
  have scaled {x : BitVec 32} {n : ℕ} (hx : x.toNat = n / pixelsOf v) (hn : n / pixelsOf v * pixelsOf v = n) (fits : n < 2 ^ 16)
      {y : BitVec 32} (hy : y.toNat = n) : (x * if v .pvVertical &&& 0x20000000 ≠ 0 then 1 else 2) = y := by
    apply BitVec.eq_of_toNat_eq
    rw [BitVec.toNat_mul, toNat_pixels, hx, hn, hy]
    exact Nat.mod_eq_of_lt (by omega)
  simp only [Signal.Shows, NativeState.signal, vertical]
  refine ⟨?_, ?_, ?_, ?_, ?_, ?_, ?_, ?_, clocked_signal assembled b (scanControl t), rfl⟩
  · refine scaled ?_ e0 (by omega) (toNat_wide (by decide) t.hDisplay)
    rw [toNat_lowHalf, packed.pvHb, pair_low (small (by omega))]
  · apply BitVec.eq_of_toNat_eq
    rw [toNat_lowHalf, packed.pvVb, pair_low (by omega), toNat_wide (by decide)]
    rfl
  · refine scaled ?_ e1 (by omega) (toNat_wide_sub (by decide) he0)
    rw [toNat_highHalf, packed.pvHb, pair_high (small (by omega))]
  · refine scaled ?_ e2 (by omega) (toNat_wide_sub (by decide) he1.le)
    rw [toNat_lowHalf, packed.pvHa, pair_low (small (by omega))]
  · refine scaled ?_ e3 (by omega) (toNat_wide_sub (by decide) he2.le)
    rw [toNat_highHalf, packed.pvHa, pair_high (small (by omega))]
  · apply BitVec.eq_of_toNat_eq
    rw [toNat_highHalf, packed.pvVb, pair_high (by omega), toNat_wide_sub (by decide) ve0]
    rfl
  · apply BitVec.eq_of_toNat_eq
    rw [toNat_lowHalf, packed.pvVa, pair_low (by omega), toNat_wide_sub (by decide) ve1.le]
    rfl
  · apply BitVec.eq_of_toNat_eq
    rw [toNat_highHalf, packed.pvVa, pair_high (by omega), toNat_wide_sub (by decide) ve2.le]
    rfl

/-- What was found are these registers, and the sizes of the raster are those that the takeover compares with them. -/
structure Firmware.Reads (fw : Firmware) (s : NativeState) : Prop where
  pvHa : fw.read 1 0x0c = s .pvHa
  pvHb : fw.read 1 0x10 = s .pvHb
  pvVa : fw.read 1 0x14 = s .pvVa
  pvVb : fw.read 1 0x18 = s .pvVb
  width : (s .pvHb &&& 65535) * 2 = fw.width
  height : s .pvVb &&& 65535 = fw.height

/-- Two timings have the same raster. -/
def Timing.SameRaster (a b : Timing) : Prop :=
  a.hDisplay = b.hDisplay ∧ a.hSyncStart = b.hSyncStart ∧ a.hSyncEnd = b.hSyncEnd ∧ a.hTotal = b.hTotal ∧
    a.vDisplay = b.vDisplay ∧ a.vSyncStart = b.vSyncStart ∧ a.vSyncEnd = b.vSyncEnd ∧ a.vTotal = b.vTotal

/-- The takeover reads the raster of the timing that was written with two pixels for a clock. -/
theorem timing_reads {fw : Firmware} (assembled : Assembled t v s) (b : t.Bounded) (two : pixelsOf v = 2) (reads : fw.Reads s) (p : Port) :
    (fw.timing p).SameRaster t := by
  have packed := assembled.packed b
  obtain ⟨he0, he1, he2, he3⟩ := b.hEdges
  obtain ⟨ve0, ve1, ve2, ve3⟩ := b.vEdges
  obtain ⟨w0, w1, w2, w3, w4, w5, w6, w7⟩ := b.fits
  obtain ⟨e0, e1, e2, e3⟩ := two ▸ b.whole v
  have ha := packed.pvHa
  have hb := packed.pvHb
  have va := packed.pvVa
  have vb := packed.pvVb
  rw [two] at ha hb
  have low (x : BitVec 32) : (x &&& 65535#32).toNat = x.toNat % 65536 := toNat_lowHalf x
  have haLow : (s .pvHa &&& 65535#32).toNat = t.numbers.hSync / 2 := by rw [low, ha, pair_low (by omega)]
  have haHigh : (s .pvHa >>> 16).toNat = t.numbers.hBack / 2 := by rw [toNat_highHalf, ha, pair_high (by omega)]
  have hbLow : (s .pvHb &&& 65535#32).toNat = t.numbers.hDisplay / 2 := by rw [low, hb, pair_low (by omega)]
  have hbHigh : (s .pvHb >>> 16).toNat = t.numbers.hFront / 2 := by rw [toNat_highHalf, hb, pair_high (by omega)]
  have vaLow : (s .pvVa &&& 65535#32).toNat = t.numbers.vSync := by rw [low, va, pair_low (by omega)]
  have vaHigh : (s .pvVa >>> 16).toNat = t.numbers.vBack := by rw [toNat_highHalf, va, pair_high (by omega)]
  have vbLow : (s .pvVb &&& 65535#32).toNat = t.numbers.vDisplay := by rw [low, vb, pair_low (by omega)]
  have vbHigh : (s .pvVb >>> 16).toNat = t.numbers.vFront := by rw [toNat_highHalf, vb, pair_high (by omega)]
  have width : fw.width.toNat = t.numbers.hDisplay := by
    have doubled : fw.width.toNat = (s .pvHb &&& 65535#32).toNat * 2 % 2 ^ 32 := by
      rw [← reads.width, BitVec.toNat_mul]
      rfl
    rw [doubled, hbLow, e0]
    omega
  have height : fw.height.toNat = t.numbers.vDisplay := (congrArg BitVec.toNat reads.height.symm).trans vbLow
  have twice {x : BitVec 32} {n : ℕ} (hx : x.toNat = n / 2) (even : n / 2 * 2 = n) (fits : n < 2 ^ 16) : (2#32 * x).toNat = n := by
    rw [BitVec.toNat_mul, hx, show (2#32).toNat = 2 from rfl, Nat.mul_comm, even]
    omega
  have start : (fw.width + 2#32 * (fw.read 1 16 >>> 16)).setWidth 16 = t.hSyncStart := by
    apply BitVec.eq_of_toNat_eq
    rw [BitVec.toNat_setWidth, BitVec.toNat_add, width, reads.pvHb, twice hbHigh e1 (by omega)]
    simp only [Timing.numbers]
    omega
  have vStart : (fw.height + (fw.read 1 24 >>> 16)).setWidth 16 = t.vSyncStart := by
    apply BitVec.eq_of_toNat_eq
    rw [BitVec.toNat_setWidth, BitVec.toNat_add, height, reads.pvVb, vbHigh]
    simp only [Timing.numbers]
    omega
  refine ⟨?_, start, ?_, ?_, ?_, vStart, ?_, ?_⟩
  · apply BitVec.eq_of_toNat_eq
    simp only [Firmware.timing, BitVec.toNat_setWidth, width, Timing.numbers]
    omega
  · apply BitVec.eq_of_toNat_eq
    simp only [Firmware.timing, BitVec.natCast_eq_ofNat, BitVec.ofNat_eq_ofNat, start]
    rw [BitVec.toNat_setWidth, BitVec.toNat_add, reads.pvHa, twice haLow e2 (by omega), toNat_wide (by decide)]
    simp only [Timing.numbers]
    omega
  · apply BitVec.eq_of_toNat_eq
    simp only [Firmware.timing, Firmware.hTotal, BitVec.natCast_eq_ofNat, BitVec.ofNat_eq_ofNat]
    rw [reads.pvHa, reads.pvHb, BitVec.toNat_setWidth, BitVec.toNat_mul, BitVec.toNat_add, BitVec.toNat_add, BitVec.toNat_add,
      haHigh, haLow, hbHigh, hbLow, show (2#32).toNat = 2 from rfl]
    simp only [Timing.numbers] at e0 e1 e2 e3 ⊢
    omega
  · apply BitVec.eq_of_toNat_eq
    simp only [Firmware.timing, BitVec.toNat_setWidth, height, Timing.numbers]
    omega
  · apply BitVec.eq_of_toNat_eq
    simp only [Firmware.timing, BitVec.natCast_eq_ofNat, BitVec.ofNat_eq_ofNat, vStart]
    rw [BitVec.toNat_setWidth, BitVec.toNat_add, reads.pvVa, vaLow, toNat_wide (by decide)]
    simp only [Timing.numbers]
    omega
  · apply BitVec.eq_of_toNat_eq
    simp only [Firmware.timing, Firmware.vTotal, BitVec.natCast_eq_ofNat, BitVec.ofNat_eq_ofNat]
    rw [reads.pvVa, reads.pvVb, BitVec.toNat_setWidth, BitVec.toNat_add, BitVec.toNat_add, BitVec.toNat_add, vaHigh, vaLow, vbHigh, vbLow]
    simp only [Timing.numbers]
    omega

end Readback

/-! ### Agreement -/

/-- What the registers of a timing are: its numbers in their places, a clock in the range of the oscillator and the other bits kept, so
that both readers find the timing. -/
structure Encodes (t : Timing) (v s : NativeState) (div : ℕ) : Prop where
  packed : Packed t.numbers t.flags (pixelsOf v) s
  oscillates : Oscillates t.clock.toNat div
  vcoDivider : (s .vcoDivider).toNat = 2 ^ 10 + div
  rmOffset : (s .rmOffset).toNat = 2 ^ 31 + offsetOf t.clock.toNat div
  offset_lt : offsetOf t.clock.toNat div < 2 ^ 31
  kept : ∀ f, f ∉ rewritten → s f = v f
  pllReset : s .pllReset = v .pllReset ||| 1
  scheduler : s .scheduler &&& ~~~3 = v .scheduler &&& ~~~3
  vidControl : s .vidControl &&& ~~~0x98050000 = v .vidControl &&& ~~~0x98050000
  shows : (s.signal (scanControl t)).Shows t
  recovers : pixelsOf v = 2 → ∀ (fw : Firmware) (p : Port), fw.Reads s → (fw.timing p).SameRaster t

/-- Every timing that the driver can program is built, whatever the registers had, and both readers find it. -/
theorem nativeBuild_encodes (t : Timing) (v : NativeState) (h : t.NativeSupported) :
    ∃ s, nativeBuild t v = some s ∧ Encodes t v s (dividers t).2.2 := by
  have b := h.bounded
  obtain ⟨-, -, oscillates⟩ := dividers_oscillate b.clock
  obtain ⟨s, built, assembled⟩ := nativeBuild_assembled h v
  obtain ⟨vco, offset⟩ := assembled.clocked b
  exact ⟨s, built, assembled.packed b, oscillates, vco, offset, oscillates.offset_lt, assembled.kept, assembled.pllReset,
    assembled.scheduler, assembled.vidControl, shows_signal assembled b, fun two fw p reads => timing_reads assembled b two reads p⟩

/-- Full HD. -/
def fullHd : Timing := ⟨2, 16, 148500, 1920, 2008, 2052, 2200, 0, 1080, 1084, 1089, 1125, 0, 60, 3⟩

theorem fullHd_encodes : ∃ s, nativeBuild fullHd (fun _ => 0) = some s ∧ Encodes fullHd (fun _ => 0) s (dividers fullHd).2.2 :=
  nativeBuild_encodes fullHd (fun _ => 0) (by decide)

end Pi5Drivers.Display
