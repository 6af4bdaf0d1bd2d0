import Pi5Drivers.BcmGpio.Driver

/-! The registers bit by bit. A step of the driver changes some bits, gives them values that can be
told, and leaves the others alone, also where they are in the same word. -/

namespace Pi5Drivers.BcmGpio

inductive Cell
  | gio (r : Reg) (pin : ℕ)
  | pinctrl (x : ℕ)
  | aml (pin : ℕ)

def Machine.cell (m : Machine) : Cell → Bool
  | .gio r pin => m.bit r pin
  | .pinctrl x => (m.pinctrl (x / 32)).getLsbD (x % 32)
  | .aml pin => m.aml.getLsbD pin

/-- Only some bits differ. -/
def Only (S : Set Cell) (m m' : Machine) : Prop := ∀ c ∉ S, m'.cell c = m.cell c

variable {S T : Set Cell} {m m' m'' : Machine} {f g : PinFields} {aon : Bool} {r s : Reg} {p q x n b : ℕ} {mask value : BitVec 64}

theorem Only.refl (S : Set Cell) (m : Machine) : Only S m m := fun _ _ => rfl

theorem Only.trans (h : Only S m m') (h' : Only S m' m'') : Only S m m'' := fun c hc => (h' c hc).trans (h c hc)

theorem Only.mono (h : Only S m m') (sub : S ⊆ T) : Only T m m' := fun c hc => h c fun hs => hc (sub hs)

/-! ### Banks -/

theorem getLsbD_half (mask : BitVec 64) (bank k : ℕ) : (Machine.half mask bank).getLsbD k = (decide (k < 32) && mask.getLsbD (bank * 32 + k)) := by
  simp only [Machine.half, BitVec.getLsbD_setWidth, BitVec.getLsbD_ushiftRight]

theorem half_at (mask : BitVec 64) (p : ℕ) : (Machine.half mask (p / 32)).getLsbD (p % 32) = mask.getLsbD p := by
  rw [getLsbD_half, decide_eq_true (Nat.mod_lt p (by decide)), Bool.true_and, Nat.mul_comm, Nat.div_add_mod]

theorem writeGio_bit (m : Machine) (bank : ℕ) (r s : Reg) (v : BitVec 32) (p : ℕ) : (m.writeGio bank r v).bit s p =
    if p / 32 = bank ∧ s = r then (if r = .status then m.bit s p && !v.getLsbD (p % 32) else v.getLsbD (p % 32)) else m.bit s p := by
  simp only [Machine.bit, Machine.writeGio]
  split
  · next here =>
    obtain ⟨rfl, rfl⟩ := here
    split
    · have : p % 32 < 32 := Nat.mod_lt p (by decide)
      simp [this]
    · rfl
  · rfl

/-- The pins of the mask that are in the bank take their values. -/
theorem updateBank_bit (m : Machine) (mask value : BitVec 64) (bank p : ℕ) (hr : r ≠ .status) : (m.updateBank r mask value bank).bit s p =
    if s = r ∧ p / 32 = bank ∧ mask.getLsbD p = true then value.getLsbD p else m.bit s p := by
  unfold Machine.updateBank
  dsimp only
  split
  · rw [writeGio_bit, if_neg hr]
    by_cases here : p / 32 = bank ∧ s = r
    · obtain ⟨rfl, rfl⟩ := here
      have : p % 32 < 32 := Nat.mod_lt p (by decide)
      simp only [true_and, if_true, BitVec.getLsbD_or, BitVec.getLsbD_and, BitVec.getLsbD_not, half_at, this, decide_true, Bool.true_and]
      cases mask.getLsbD p <;> simp [Machine.bit]
    · rw [if_neg here, if_neg fun h => here ⟨h.2.1, h.1⟩]
  · next none =>
    rw [if_neg]
    rintro ⟨rfl, rfl, on⟩
    rw [Decidable.not_not] at none
    rw [← half_at, none] at on
    simp at on

theorem update_bit (m : Machine) (mask value : BitVec 64) (p : ℕ) (hr : r ≠ .status) : (m.update r mask value).bit s p =
    if s = r ∧ mask.getLsbD p = true then value.getLsbD p else m.bit s p := by
  rw [Machine.update, updateBank_bit _ _ _ _ _ hr, updateBank_bit _ _ _ _ _ hr]
  by_cases on : s = r ∧ mask.getLsbD p = true
  · have : p < 64 := BitVec.lt_of_getLsbD on.2
    rw [if_pos on]
    by_cases low : p / 32 = 0
    · rw [if_neg (by omega), if_pos ⟨on.1, low, on.2⟩]
    · rw [if_pos ⟨on.1, by omega, on.2⟩]
  · rw [if_neg on, if_neg fun h => on ⟨h.1, h.2.2⟩, if_neg fun h => on ⟨h.1, h.2.2⟩]

/-- The bits of a register for some pins. -/
def column (r : Reg) (s : Set ℕ) : Set Cell := fun c => match c with
  | .gio t p => t = r ∧ p ∈ s
  | _ => False

theorem updateBank_pinctrl (m : Machine) (r : Reg) (mask value : BitVec 64) (bank : ℕ) :
    (m.updateBank r mask value bank).pinctrl = m.pinctrl ∧ (m.updateBank r mask value bank).aml = m.aml := by
  unfold Machine.updateBank
  dsimp only
  split
  · exact ⟨rfl, rfl⟩
  · exact ⟨rfl, rfl⟩

theorem updateBank_only (m : Machine) (mask value : BitVec 64) (bank : ℕ) (hr : r ≠ .status) :
    Only (column r (pins mask)) m (m.updateBank r mask value bank) := by
  obtain ⟨words, aml⟩ := updateBank_pinctrl m r mask value bank
  rintro (⟨s, p⟩ | x | p) outside
  · exact (updateBank_bit m mask value bank p hr).trans (if_neg fun h => outside ⟨h.1, h.2.2⟩)
  · simp only [Machine.cell, words]
  · simp only [Machine.cell, aml]

theorem update_only (m : Machine) (mask value : BitVec 64) (hr : r ≠ .status) : Only (column r (pins mask)) m (m.update r mask value) :=
  (updateBank_only m mask value 0 hr).trans (updateBank_only _ mask value 1 hr)

theorem clearStatus_only (m : Machine) (bank : ℕ) (mask : BitVec 64) :
    Only (column .status (pins mask)) m (m.writeGio bank .status (Machine.half mask bank)) := by
  rintro (⟨s, p⟩ | x | p) outside
  · change (m.writeGio bank .status (Machine.half mask bank)).bit s p = m.bit s p
    rw [writeGio_bit, if_pos rfl]
    split
    · next here =>
      obtain ⟨rfl, rfl⟩ := here
      have off : mask.getLsbD p = false := Bool.eq_false_iff.mpr fun on => outside ⟨rfl, on⟩
      rw [half_at, off]
      simp
    · rfl
  · rfl
  · rfl

theorem writeDataBank_eq (m : Machine) (toSet toClear : BitVec 64) (bank : ℕ) :
    m.writeDataBank toSet (toSet ||| toClear) bank = m.updateBank .data (toSet ||| toClear) toSet bank := by
  have inside : Machine.half toSet bank &&& Machine.half (toSet ||| toClear) bank = Machine.half toSet bank := by
    refine BitVec.eq_of_getLsbD_eq fun k hk => ?_
    simp only [BitVec.getLsbD_and, getLsbD_half, BitVec.getLsbD_or, hk, decide_true, Bool.true_and]
    cases toSet.getLsbD (bank * 32 + k) <;> rfl
  unfold Machine.writeDataBank Machine.updateBank
  dsimp only
  rw [inside]

/-! ### Fields -/

/-- The bits below some position. -/
def Low (mask : BitVec 32) (n : ℕ) : Prop := ∀ i, mask.getLsbD i = decide (i < n)

theorem low_fifteen : Low 15 4 := by
  intro i
  by_cases h : i < 32
  · revert i
    decide
  · rw [BitVec.getLsbD_of_ge _ _ (by omega), decide_eq_false (by omega)]

theorem low_three : Low 3 2 := by
  intro i
  by_cases h : i < 32
  · revert i
    decide
  · rw [BitVec.getLsbD_of_ge _ _ (by omega), decide_eq_false (by omega)]

/-- The bits of a field. -/
def span (position n : ℕ) : Set Cell := fun c => match c with
  | .pinctrl x => position ≤ x ∧ x < position + n
  | _ => False

theorem fieldWrite_cell {mask v : BitVec 32} (low : Low mask n) (fits : p % 32 + n ≤ 32) (m : Machine) (x : ℕ) :
    (m.fieldWrite p mask v).cell (.pinctrl x) = if p ≤ x ∧ x < p + n then v.getLsbD (x - p) else m.cell (.pinctrl x) := by
  simp only [Machine.cell, Machine.fieldWrite, Machine.writePinctrl]
  by_cases word : x / 32 = p / 32
  · have bound : x % 32 < 32 := Nat.mod_lt x (by decide)
    rw [if_pos word, word]
    simp only [BitVec.getLsbD_or, BitVec.getLsbD_and, BitVec.getLsbD_not, BitVec.getLsbD_shiftLeft, low _, bound, decide_true, Bool.true_and]
    by_cases before : x % 32 < p % 32
    · rw [if_neg (by omega)]
      simp [before]
    · have offset : x % 32 - p % 32 = x - p := by omega
      rw [offset, decide_eq_false before]
      by_cases inside : x - p < n
      · rw [if_pos (by omega), decide_eq_true inside]
        simp
      · rw [if_neg (by omega), decide_eq_false inside]
        simp
  · rw [if_neg word, if_neg (by omega)]

theorem fieldWrite_only {mask v : BitVec 32} (low : Low mask n) (fits : p % 32 + n ≤ 32) (m : Machine) :
    Only (span p n) m (m.fieldWrite p mask v) := by
  rintro (⟨s, q⟩ | x | q) outside
  · rfl
  · exact (fieldWrite_cell low fits m x).trans (if_neg outside)
  · rfl

theorem getLsbD_fieldRead {mask : BitVec 32} (low : Low mask n) (fits : p % 32 + n ≤ 32) (m : Machine) (i : ℕ) :
    (m.fieldRead p mask).getLsbD i = (decide (i < n) && m.cell (.pinctrl (p + i))) := by
  simp only [Machine.fieldRead, BitVec.getLsbD_and, BitVec.getLsbD_ushiftRight, low i, Machine.cell]
  by_cases inside : i < n
  · rw [show (p + i) / 32 = p / 32 by omega, show (p + i) % 32 = p % 32 + i by omega, Bool.and_comm]
  · simp [inside]

theorem fieldRead_congr {mask : BitVec 32} (low : Low mask n) (fits : p % 32 + n ≤ 32) (same : ∀ c ∈ span p n, m'.cell c = m.cell c) :
    m'.fieldRead p mask = m.fieldRead p mask := by
  refine BitVec.eq_of_getLsbD_eq fun i _ => ?_
  rw [getLsbD_fieldRead low fits, getLsbD_fieldRead low fits]
  by_cases inside : i < n
  · rw [same (.pinctrl (p + i)) ⟨Nat.le_add_right p i, by omega⟩]
  · rw [decide_eq_false inside, Bool.false_and, Bool.false_and]

/-! ### Pins -/

/-- The bit that holds the level of a pin. -/
def levelCell (aon : Bool) (p : ℕ) : Cell := if aon = true ∧ p < 32 then .aml p else .gio .data p

/-- The bits of a pin. -/
def Own (f : PinFields) (aon : Bool) (p : ℕ) : Set Cell := fun c => match c with
  | .gio _ q => q = p
  | .pinctrl x => f.Covers x
  | .aml q => aon = true ∧ q = p

/-- What a snapshot of a pin looks at. -/
def Seen (f : PinFields) (aon : Bool) (p : ℕ) : Set Cell := fun c => match c with
  | .gio .mask _ | .gio .status _ => False
  | .gio .data q => q = p ∧ levelCell aon p = .gio .data p
  | .gio _ q => q = p
  | .pinctrl x => f.Covers x
  | .aml q => q = p ∧ levelCell aon p = .aml p

theorem levelCell_seen (f : PinFields) (aon : Bool) (p : ℕ) : levelCell aon p ∈ Seen f aon p := by
  unfold levelCell
  split
  · next first => exact ⟨rfl, if_pos first⟩
  · next second => exact ⟨rfl, if_neg second⟩

theorem seen_own : Seen f aon p ⊆ Own f aon p := by
  rintro (⟨s, q⟩ | x | q) seen
  · cases s <;> first | exact seen.elim | exact seen.1 | exact seen
  · exact seen
  · refine ⟨?_, seen.1⟩
    by_contra main
    have := seen.2
    rw [levelCell, if_neg fun h => main h.1] at this
    cases this

theorem data_at (m : Machine) (aon : Bool) (hp : p < 64) : (m.data aon).getLsbD p = m.cell (levelCell aon p) := by
  unfold Machine.data levelCell
  rw [BitVec.getLsbD_append]
  by_cases low : p < 32
  · have lower : p / 32 = 0 := by omega
    rw [if_pos low]
    cases aon <;> simp [low, Machine.cell, Machine.bit, lower, Nat.mod_eq_of_lt low]
  · have upper : p / 32 = 1 := by omega
    have place : p % 32 = p - 32 := by omega
    simp [low, Machine.cell, Machine.bit, upper, place]

theorem span_seen (inside : ∀ x, b ≤ x → x < b + n → f.Covers x) : span b n ⊆ Seen f aon p := by
  rintro (⟨s, q⟩ | x | q) hc
  · exact hc.elim
  · exact inside x hc.1 hc.2
  · exact hc.elim

theorem snapshot_congr (fits : f.Fits) (hp : p < 64) (same : ∀ c ∈ Seen f aon p, m'.cell c = m.cell c) :
    m'.snapshot f p (m'.data aon) = m.snapshot f p (m.data aon) := by
  have bits (r : Reg) (seen : .gio r p ∈ Seen f aon p) : m'.bit r p = m.bit r p := same (.gio r p) seen
  have mux : m'.fieldRead f.muxBit 15 = m.fieldRead f.muxBit 15 :=
    fieldRead_congr low_fifteen fits.1 fun c hc => same c (span_seen (fun x low high => .inl ⟨low, high⟩) hc)
  have pull (b : ℕ) (hb : f.pullBit = some b) : m'.fieldRead b 3 = m.fieldRead b 3 :=
    fieldRead_congr low_three (fits.2 b hb).1 fun c hc => same c (span_seen (fun x low high => .inr ⟨b, hb, low, high⟩) hc)
  have pull : f.pullBit.elim 0 (fun b => m'.fieldRead b 3) = f.pullBit.elim 0 fun b => m.fieldRead b 3 := by
    cases hb : f.pullBit with
    | none => rfl
    | some b => exact pull b hb
  have level : (m'.data aon).getLsbD p = (m.data aon).getLsbD p := by
    rw [data_at _ _ hp, data_at _ _ hp]
    exact same _ (levelCell_seen f aon p)
  simp only [Machine.snapshot, mux, pull, level, bits .dir rfl, bits .oden rfl, bits .edge rfl, bits .both rfl, bits .level rfl]

/-- Two pins share no bit. -/
theorem own_disjoint (apart : f.Apart g) (ne : p ≠ q) : ∀ c ∈ Own f aon p, c ∉ Own g aon q := by
  rintro (⟨s, t⟩ | x | t) mine other
  · exact ne (mine.symm.trans other)
  · exact apart.not_covers mine other
  · exact ne (mine.2.symm.trans other.2)

end Pi5Drivers.BcmGpio
