import Mathlib.Tactic.SplitIfs
import Pi5Drivers.Rp1Gpio.Hardware

/-! The registers bit by bit: which bits belong to a pin, which of them a write can change, and what the
state of a pin is after one. -/

namespace Pi5Drivers.Rp1Gpio

structure Cell where
  block : Block
  address : ℕ
  bit : ℕ

def Regs.cell (r : Regs) (x : Cell) : Bool := (r x.block x.address).getLsbD x.bit

/-- Only some bits differ. -/
def Only (S : Set Cell) (r r' : Regs) : Prop := ∀ x ∉ S, r'.cell x = r.cell x

variable {S T : Set Cell} {r r' r'' : Regs} {block : Block} {a p q : ℕ} {old v : BitVec 32}

theorem Only.refl (S : Set Cell) (r : Regs) : Only S r r := fun _ _ => rfl

theorem Only.trans (h : Only S r r') (h' : Only S r' r'') : Only S r r'' := fun x hx => (h' x hx).trans (h x hx)

theorem Only.mono (h : Only S r r') (sub : S ⊆ T) : Only T r r' := fun x hx => h x fun inside => hx (sub inside)

/-! ### Offsets -/

section Offsets

variable {base : ℕ}

theorem home_reg (aligned : base % 0x4000 = 0) (low : a < 0x1000) : home (base + a) = base + a := by
  unfold home
  omega

theorem home_set (aligned : base % 0x4000 = 0) (low : a < 0x1000) : home (base + rp1Set + a) = base + a := by
  unfold home rp1Set
  omega

theorem home_clear (aligned : base % 0x4000 = 0) (low : a < 0x1000) : home (base + rp1Clear + a) = base + a := by
  unfold home rp1Clear
  omega

theorem written_reg (aligned : base % 0x4000 = 0) (low : a < 0x1000) : written (base + a) old v = v := by
  have direct : (base + a) / 0x1000 % 4 = 0 := by omega
  rw [written, if_neg (by omega), if_neg (by omega)]

theorem written_set (aligned : base % 0x4000 = 0) (low : a < 0x1000) : written (base + rp1Set + a) old v = old ||| v :=
  if_pos (by unfold rp1Set; omega)

theorem written_clear (aligned : base % 0x4000 = 0) (low : a < 0x1000) : written (base + rp1Clear + a) old v = old &&& ~~~v := by
  have clears : (base + rp1Clear + a) / 0x1000 % 4 = 3 := by
    unfold rp1Clear
    omega
  rw [written, if_neg (by omega), if_pos clears]

end Offsets

theorem bankOffset_aligned (p : ℕ) : bankOffset p % 0x4000 = 0 := by
  unfold bankOffset
  split_ifs <;> rfl

theorem bankPin_lt (hp : p < 54) : bankPin p < 28 := by
  unfold bankPin
  split_ifs <;> omega

/-- Pins of different banks, or different pins of one bank. -/
theorem pin_place (ne : p ≠ q) : bankOffset p ≠ bankOffset q ∨ bankPin p ≠ bankPin q := by
  unfold bankOffset bankPin
  split_ifs <;> omega

theorem ctrl_low (hp : p < 54) : rp1Ctrl (bankPin p) < 0x1000 := by
  have := bankPin_lt hp
  unfold rp1Ctrl
  omega

theorem pad_low (hp : p < 54) : rp1Pad (bankPin p) < 0x1000 := by
  have := bankPin_lt hp
  unfold rp1Pad
  omega

theorem out_low : rp1Out < 0x1000 := by decide

theorem oe_low : rp1Oe < 0x1000 := by decide

/-! ### Bits -/

/-- The bits that a write may change. -/
def touchedBy (block : Block) (offset : ℕ) (v : BitVec 32) : Set Cell :=
  { x | x.block = block ∧ x.address = home offset ∧ (offset / 0x1000 % 4 = 2 ∨ offset / 0x1000 % 4 = 3 → v.getLsbD x.bit = true) }

theorem write_only (r : Regs) (block : Block) (offset : ℕ) (v : BitVec 32) : Only (touchedBy block offset v) r (r.write block offset v) := by
  rintro ⟨b, a, i⟩ outside
  simp only [Regs.cell, Regs.write]
  by_cases here : b = block ∧ a = home offset
  · obtain ⟨rfl, rfl⟩ := here
    have off : (offset / 0x1000 % 4 = 2 ∨ offset / 0x1000 % 4 = 3) ∧ v.getLsbD i = false := by
      by_contra on
      refine outside ⟨rfl, rfl, fun kind => ?_⟩
      by_contra zero
      exact on ⟨kind, Bool.eq_false_iff.mpr zero⟩
    rw [if_pos ⟨rfl, rfl⟩, written]
    by_cases sets : offset / 0x1000 % 4 = 2
    · rw [if_pos sets, BitVec.getLsbD_or, off.2, Bool.or_false]
    · rw [if_neg sets, if_pos (off.1.resolve_left sets)]
      by_cases bound : i < 32
      · rw [BitVec.getLsbD_and, BitVec.getLsbD_not, off.2, decide_eq_true bound, Bool.not_false, Bool.and_true, Bool.and_true]
      · rw [BitVec.getLsbD_of_ge _ _ (Nat.not_lt.mp bound), BitVec.getLsbD_of_ge _ _ (Nat.not_lt.mp bound)]
  · rw [if_neg here]

/-- The bits that say whether a pin is an output that is driven. -/
def watched (p : ℕ) : Set Cell := fun x => match x.block with
  | .io => x.address = bankOffset p + rp1Ctrl (bankPin p)
  | .rio => x.address = bankOffset p + rp1Oe ∧ x.bit = bankPin p
  | .pads => x.address = bankOffset p + rp1Pad (bankPin p)

@[simp] theorem mem_watched_io {i : ℕ} : ⟨.io, a, i⟩ ∈ watched p ↔ a = bankOffset p + rp1Ctrl (bankPin p) := Iff.rfl

@[simp] theorem mem_watched_rio {i : ℕ} : ⟨.rio, a, i⟩ ∈ watched p ↔ a = bankOffset p + rp1Oe ∧ i = bankPin p := Iff.rfl

@[simp] theorem mem_watched_pads {i : ℕ} : ⟨.pads, a, i⟩ ∈ watched p ↔ a = bankOffset p + rp1Pad (bankPin p) := Iff.rfl

/-- The bit that has the level of a pin. -/
def levelCell (p : ℕ) : Cell := ⟨.rio, bankOffset p + rp1Out, bankPin p⟩

/-- The bit that enables the interrupts of a pin. -/
def enableCell (p : ℕ) : Cell := ⟨.io, rp1Inte, p⟩

/-- What a snapshot of a pin looks at. -/
def seen (p : ℕ) : Set Cell := watched p ∪ {levelCell p}

/-- The bits of a pin. -/
def own (p : ℕ) : Set Cell := seen p ∪ {enableCell p}

theorem watched_disjoint (hp : p < 54) (hq : q < 54) (ne : p ≠ q) : ∀ x ∈ watched p, x ∉ watched q := by
  have bp := bankOffset_aligned p
  have bq := bankOffset_aligned q
  have lp := bankPin_lt hp
  have lq := bankPin_lt hq
  have place := pin_place ne
  rintro ⟨b, a, i⟩ mine other
  cases b <;> simp only [mem_watched_io, mem_watched_rio, mem_watched_pads, rp1Ctrl, rp1Pad, rp1Oe] at mine other <;> omega

theorem levelCell_watched (p q : ℕ) : levelCell p ∉ watched q := by
  have bp := bankOffset_aligned p
  have bq := bankOffset_aligned q
  rintro ⟨same, -⟩
  simp only [levelCell, rp1Out, rp1Oe] at same
  omega

theorem enableCell_watched (p q : ℕ) (hq : q < 54) : enableCell p ∉ watched q := by
  have bq := bankOffset_aligned q
  have lq := bankPin_lt hq
  intro same
  change rp1Inte = bankOffset q + rp1Ctrl (bankPin q) at same
  unfold rp1Inte rp1Ctrl at same
  omega

theorem levelCell_inj (same : levelCell p = levelCell q) : p = q := by
  have bp := bankOffset_aligned p
  have bq := bankOffset_aligned q
  by_contra ne
  have place := pin_place ne
  simp only [levelCell, Cell.mk.injEq, true_and] at same
  omega

theorem seen_disjoint (hp : p < 54) (hq : q < 54) (ne : p ≠ q) : ∀ x ∈ seen p, x ∉ own q := by
  rintro x (mine | rfl) ((other | other) | other)
  · exact watched_disjoint hp hq ne x mine other
  · exact levelCell_watched q p (other ▸ mine)
  · exact enableCell_watched q p hp (other ▸ mine)
  · exact levelCell_watched p q other
  · exact ne (levelCell_inj other)
  · cases other

end Pi5Drivers.Rp1Gpio
