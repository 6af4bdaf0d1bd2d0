import Pi5Drivers.Rp1Gpio.Cells

/-! What restoring and claiming a pin do. Neither touches the bits of another pin at any write, a pin that
is restored is as it was, and an output that is driven before and after is driven all the way. -/

namespace Pi5Drivers.Rp1Gpio

open GpioClx

variable {S : Set Cell} {r r' r₀ : Regs} {m m' : Machine} {block : Block} {a k p q : ℕ} {v w : BitVec 32} {s : PinState}

/-! ### Reading a pin -/

theorem word_congr (same : ∀ i, r'.cell ⟨block, a, i⟩ = r.cell ⟨block, a, i⟩) : r' block a = r block a :=
  BitVec.eq_of_getLsbD_eq fun i _ => same i

theorem and_pinBit_congr (same : v.getLsbD k = w.getLsbD k) : v &&& pinBit k = w &&& pinBit k := by
  refine BitVec.eq_of_getLsbD_eq fun i hi => ?_
  rw [BitVec.getLsbD_and, BitVec.getLsbD_and]
  by_cases bound : k < 32
  · rw [getLsbD_pinBit bound]
    by_cases here : i = k
    · rw [here, same]
    · rw [decide_eq_false here, Bool.and_false, Bool.and_false]
  · have zero : (pinBit k : BitVec 32) = 0 := BitVec.shiftLeft_eq_zero (Nat.not_lt.mp bound)
    rw [zero]
    simp

theorem and_pinBit_ne_zero (bound : k < 32) : v &&& pinBit k ≠ 0 ↔ v.getLsbD k = true := by
  rw [Ne, and_eq_zero, pins_pinBit bound, Set.disjoint_singleton_right, not_not, mem_pins]

theorem snapshot_congr (hp : p < 54) (same : ∀ x ∈ seen p, r'.cell x = r.cell x) : gpioSnapshot r' p = gpioSnapshot r p := by
  have aligned := bankOffset_aligned p
  have control : r' .io (bankOffset p + rp1Ctrl (bankPin p)) = r .io (bankOffset p + rp1Ctrl (bankPin p)) :=
    word_congr fun i => same _ (.inl (mem_watched_io.mpr rfl))
  have pad : r' .pads (bankOffset p + rp1Pad (bankPin p)) = r .pads (bankOffset p + rp1Pad (bankPin p)) :=
    word_congr fun i => same _ (.inl (mem_watched_pads.mpr rfl))
  have output : r' .rio (bankOffset p + rp1Out) &&& localBit p = r .rio (bankOffset p + rp1Out) &&& localBit p :=
    and_pinBit_congr (same (levelCell p) (.inr rfl))
  have enable : r' .rio (bankOffset p + rp1Oe) &&& localBit p = r .rio (bankOffset p + rp1Oe) &&& localBit p :=
    and_pinBit_congr (same ⟨.rio, bankOffset p + rp1Oe, bankPin p⟩ (.inl (mem_watched_rio.mpr ⟨rfl, rfl⟩)))
  simp only [gpioSnapshot, Regs.gpioRead, home_reg aligned (ctrl_low hp), home_reg aligned (pad_low hp), home_reg aligned out_low,
    home_reg aligned oe_low, control, pad, output, enable]

/-- The pin is an output that is driven. -/
def Live (p : ℕ) (r : Regs) : Prop := (gpioSnapshot r p).Live

theorem live_iff (hp : p < 54) : Live p r ↔ r .io (bankOffset p + rp1Ctrl (bankPin p)) &&& (31 ||| rp1ControlOverrides) = 5 ∧
    r .rio (bankOffset p + rp1Oe) &&& localBit p ≠ 0 ∧ r .pads (bankOffset p + rp1Pad (bankPin p)) &&& rp1PadOd = 0 := by
  have aligned := bankOffset_aligned p
  have masked (c : BitVec 32) : c &&& ~~~rp1IrqReset &&& (31 ||| rp1ControlOverrides) = c &&& (31 ||| rp1ControlOverrides) := by
    rw [BitVec.and_assoc]
    rfl
  simp only [Live, PinState.Live, gpioSnapshot, Regs.gpioRead, home_reg aligned (ctrl_low hp), home_reg aligned (pad_low hp),
    home_reg aligned oe_low, masked]

theorem live_congr (hp : p < 54) (same : ∀ x ∈ watched p, r'.cell x = r.cell x) : Live p r' ↔ Live p r := by
  have control : r' .io (bankOffset p + rp1Ctrl (bankPin p)) = r .io (bankOffset p + rp1Ctrl (bankPin p)) :=
    word_congr fun i => same _ (mem_watched_io.mpr rfl)
  have pad : r' .pads (bankOffset p + rp1Pad (bankPin p)) = r .pads (bankOffset p + rp1Pad (bankPin p)) :=
    word_congr fun i => same _ (mem_watched_pads.mpr rfl)
  have enable : r' .rio (bankOffset p + rp1Oe) &&& localBit p = r .rio (bankOffset p + rp1Oe) &&& localBit p :=
    and_pinBit_congr (same ⟨.rio, bankOffset p + rp1Oe, bankPin p⟩ (mem_watched_rio.mpr ⟨rfl, rfl⟩))
  rw [live_iff hp, live_iff hp, control, pad, enable]

/-! ### Writes -/

/-- At every write only some bits differ from what they were. -/
abbrev Within (S : Set Cell) (m m' : Machine) : Prop := m.Passed (Only S m.now) m'

theorem Within.refl (S : Set Cell) (m : Machine) : Within S m m := Journal.Passed.refl (.refl S m.now)

theorem Within.write (h : Within S m m') (inside : touchedBy block a v ⊆ S) : Within S m (m'.gpioWrite block a v) :=
  h.trans (.write (h.1.trans ((write_only m'.now block a v).mono inside)))

theorem Within.trans {m'' : Machine} (h : Within S m m') (h' : Within S m' m'') : Within S m m'' :=
  Journal.Passed.trans h (h'.mono fun _ later => h.1.trans later)

theorem Within.mono {T : Set Cell} (h : Within S m m') (sub : S ⊆ T) : Within T m m' :=
  Journal.Passed.mono h fun _ only => only.mono sub

/-- Writes to other bits do not change what is driven. -/
theorem Within.live (h : Within S m m') (hp : p < 54) (apart : ∀ x ∈ watched p, x ∉ S) : m.Keeps (Live p) m' :=
  Journal.Passed.mono h fun _ only => live_congr hp fun x hx => only x (apart x hx)

theorem Within.snapshot (h : Within S m m') (hp : p < 54) (apart : ∀ x ∈ seen p, x ∉ S) : gpioSnapshot m'.now p = gpioSnapshot m.now p :=
  snapshot_congr hp fun x hx => h.1 x (apart x hx)

section Writes

variable {base reg : ℕ}

theorem touchedBy_set (aligned : base % 0x4000 = 0) (low : a < 0x1000) :
    touchedBy block (base + rp1Set + a) v = { x | x.block = block ∧ x.address = base + a ∧ v.getLsbD x.bit = true } := by
  have sets : (base + rp1Set + a) / 0x1000 % 4 = 2 := by
    unfold rp1Set
    omega
  ext x
  simp [touchedBy, home_set aligned low, sets]

theorem touchedBy_clear (aligned : base % 0x4000 = 0) (low : a < 0x1000) :
    touchedBy block (base + rp1Clear + a) v = { x | x.block = block ∧ x.address = base + a ∧ v.getLsbD x.bit = true } := by
  have clears : (base + rp1Clear + a) / 0x1000 % 4 = 3 := by
    unfold rp1Clear
    omega
  ext x
  simp [touchedBy, home_clear aligned low, clears]

theorem touchedBy_reg (aligned : base % 0x4000 = 0) (low : a < 0x1000) :
    touchedBy block (base + a) v ⊆ { x | x.block = block ∧ x.address = base + a } := by
  rintro x ⟨same, here, -⟩
  exact ⟨same, here.trans (home_reg aligned low)⟩

end Writes

theorem ctrl_seen : { x : Cell | x.block = .io ∧ x.address = bankOffset p + rp1Ctrl (bankPin p) } ⊆ seen p := by
  rintro ⟨b, a, i⟩ ⟨rfl, rfl⟩
  exact .inl (mem_watched_io.mpr rfl)

theorem pad_seen : { x : Cell | x.block = .pads ∧ x.address = bankOffset p + rp1Pad (bankPin p) } ⊆ seen p := by
  rintro ⟨b, a, i⟩ ⟨rfl, rfl⟩
  exact .inl (mem_watched_pads.mpr rfl)

theorem localBit_bit (hp : p < 54) (i : ℕ) : (localBit p).getLsbD i = true ↔ i = bankPin p := by
  have := bankPin_lt hp
  rw [localBit, getLsbD_pinBit (by omega), decide_eq_true_eq]

theorem out_seen (hp : p < 54) :
    { x : Cell | x.block = .rio ∧ x.address = bankOffset p + rp1Out ∧ (localBit p).getLsbD x.bit = true } ⊆ seen p := by
  rintro ⟨b, a, i⟩ ⟨rfl, rfl, bit⟩
  exact .inr (congrArg (Cell.mk .rio _) ((localBit_bit hp i).mp bit))

theorem oe_seen (hp : p < 54) :
    { x : Cell | x.block = .rio ∧ x.address = bankOffset p + rp1Oe ∧ (localBit p).getLsbD x.bit = true } ⊆ seen p := by
  rintro ⟨b, a, i⟩ ⟨rfl, rfl, bit⟩
  exact .inl (mem_watched_rio.mpr ⟨rfl, (localBit_bit hp i).mp bit⟩)

/-! ### Restoring -/

theorem float_within (hp : p < 54) (m : Machine) : Within (seen p) m (m.float p) := by
  have aligned := bankOffset_aligned p
  refine ((Within.refl (seen p) m).write ?_).write ?_
  · rw [touchedBy_set aligned (pad_low hp)]
    exact fun x hx => pad_seen ⟨hx.1, hx.2.1⟩
  · rw [touchedBy_clear aligned oe_low]
    exact oe_seen hp

/-- Writing the bit of a pin, set or cleared. -/
theorem touchedBy_pick {c : Prop} [Decidable c] {base : ℕ} (aligned : base % 0x4000 = 0) (low : a < 0x1000) :
    touchedBy block (base + (if c then rp1Set else rp1Clear) + a) v = { x | x.block = block ∧ x.address = base + a ∧ v.getLsbD x.bit = true } := by
  split
  · exact touchedBy_set aligned low
  · exact touchedBy_clear aligned low

theorem gpioRestore_within (hp : p < 54) (s : PinState) (m : Machine) : Within (seen p) m (gpioRestore s p m) := by
  have aligned := bankOffset_aligned p
  unfold gpioRestore
  dsimp only
  have start {c : Prop} [Decidable c] : Within (seen p) m (if c then m else m.float p) := by
    split
    · exact .refl _ m
    · exact float_within hp m
  refine (((start.write ?_).write ?_).write ?_).write ?_
  · rw [touchedBy_pick aligned out_low]
    exact out_seen hp
  · exact (touchedBy_reg aligned (ctrl_low hp)).trans ctrl_seen
  · rw [touchedBy_pick aligned oe_low]
    exact oe_seen hp
  · exact (touchedBy_reg aligned (pad_low hp)).trans pad_seen

/-- The bit of a pin becomes what it was in another word. -/
theorem pick_bit (bound : k < 32) (old w : BitVec 32) :
    (if w &&& pinBit k ≠ 0 then old ||| pinBit k else old &&& ~~~pinBit k) &&& pinBit k = w &&& pinBit k := by
  refine and_pinBit_congr ?_
  split
  · next on => simp [(and_pinBit_ne_zero bound).mp on, getLsbD_pinBit bound]
  · next off =>
    rw [and_pinBit_ne_zero bound, Bool.not_eq_true] at off
    simp [off, getLsbD_pinBit bound]

theorem written_pick {c : Prop} [Decidable c] {base : ℕ} {old : BitVec 32} (aligned : base % 0x4000 = 0) (low : a < 0x1000) :
    written (base + (if c then rp1Set else rp1Clear) + a) old v = if c then old ||| v else old &&& ~~~v := by
  split
  · exact written_set aligned low
  · exact written_clear aligned low

theorem home_pick {c : Prop} [Decidable c] {base : ℕ} (aligned : base % 0x4000 = 0) (low : a < 0x1000) :
    home (base + (if c then rp1Set else rp1Clear) + a) = base + a := by
  split
  · exact home_set aligned low
  · exact home_clear aligned low

/-- A pin that is restored is as it was. -/
theorem gpioRestore_snapshot (hp : p < 54) (r₀ : Regs) (m : Machine) :
    gpioSnapshot (gpioRestore (gpioSnapshot r₀ p) p m).now p = gpioSnapshot r₀ p := by
  have aligned := bankOffset_aligned p
  have bound : bankPin p < 32 := Nat.lt_trans (bankPin_lt hp) (by decide)
  have apart : bankOffset p + rp1Out ≠ bankOffset p + rp1Oe := by simp [rp1Out, rp1Oe]
  unfold gpioRestore
  dsimp only
  simp only [gpioSnapshot, Regs.gpioRead, Machine.gpioWrite, Journal.write_now, Regs.write, home_reg aligned (ctrl_low hp),
    home_reg aligned (pad_low hp), home_reg aligned out_low, home_reg aligned oe_low, home_pick aligned out_low, home_pick aligned oe_low,
    written_reg aligned (ctrl_low hp), written_reg aligned (pad_low hp), written_pick aligned out_low, written_pick aligned oe_low,
    reduceCtorEq, false_and, true_and, and_self, if_true, if_false, apart, apart.symm, localBit, pick_bit bound, BitVec.and_assoc, BitVec.and_self]

/-! ### Driven outputs -/

/-- One more write after which the pin is still driven. -/
theorem passed_write (h : m.Passed (Live p) m') (next : Live p m'.now → Live p (m'.now.write block a v)) :
    m.Passed (Live p) (m'.gpioWrite block a v) := h.trans (.write (next h.1))

theorem live_ctrl (hp : p < 54) (driven : v &&& (31 ||| rp1ControlOverrides) = 5) (h : Live p r) :
    Live p (r.write .io (bankOffset p + rp1Ctrl (bankPin p)) v) := by
  have aligned := bankOffset_aligned p
  obtain ⟨-, enable, pad⟩ := (live_iff hp).mp h
  refine (live_iff hp).mpr ⟨?_, ?_, ?_⟩
  · simp only [Regs.write, home_reg aligned (ctrl_low hp), written_reg aligned (ctrl_low hp), and_self, if_true, driven]
  · simpa only [Regs.write, reduceCtorEq, false_and, if_false] using enable
  · simpa only [Regs.write, reduceCtorEq, false_and, if_false] using pad

theorem live_pad (hp : p < 54) (driven : v &&& rp1PadOd = 0) (h : Live p r) :
    Live p (r.write .pads (bankOffset p + rp1Pad (bankPin p)) v) := by
  have aligned := bankOffset_aligned p
  obtain ⟨control, enable, -⟩ := (live_iff hp).mp h
  refine (live_iff hp).mpr ⟨?_, ?_, ?_⟩
  · simpa only [Regs.write, reduceCtorEq, false_and, if_false] using control
  · simpa only [Regs.write, reduceCtorEq, false_and, if_false] using enable
  · simp only [Regs.write, home_reg aligned (pad_low hp), written_reg aligned (pad_low hp), and_self, if_true, driven]

theorem live_oe (hp : p < 54) (h : Live p r) : Live p (r.write .rio (bankOffset p + rp1Set + rp1Oe) (localBit p)) := by
  have aligned := bankOffset_aligned p
  have bound : bankPin p < 32 := Nat.lt_trans (bankPin_lt hp) (by decide)
  obtain ⟨control, -, pad⟩ := (live_iff hp).mp h
  refine (live_iff hp).mpr ⟨?_, ?_, ?_⟩
  · simpa only [Regs.write, reduceCtorEq, false_and, if_false] using control
  · simp only [Regs.write, home_set aligned oe_low, written_set aligned oe_low, and_self, if_true]
    exact (and_pinBit_ne_zero bound).mpr (by simp [localBit, getLsbD_pinBit bound])
  · simpa only [Regs.write, reduceCtorEq, false_and, if_false] using pad

/-- Levels do not matter. -/
theorem live_out {c : Prop} [Decidable c] (hp : p < 54) (h : Live p r) :
    Live p (r.write .rio (bankOffset p + (if c then rp1Set else rp1Clear) + rp1Out) (localBit p)) := by
  refine (live_congr hp fun x hx => write_only r .rio _ _ x fun inside => ?_).mpr h
  rw [touchedBy_pick (bankOffset_aligned p) out_low] at inside
  obtain ⟨b, a, i⟩ := x
  obtain ⟨rfl, rfl, -⟩ := inside
  have := (mem_watched_rio.mp hx).1
  simp [rp1Out, rp1Oe] at this

theorem gpioRestore_steady (hp : p < 54) (board : rp1HeaderPins ≤ p) (r₀ : Regs) (m : Machine) :
    m.Steady (Live p) (gpioRestore (gpioSnapshot r₀ p) p m) := by
  intro start finish
  have aligned := bankOffset_aligned p
  unfold Live at finish
  rw [gpioRestore_snapshot hp] at finish
  obtain ⟨control, enable, pad⟩ := finish
  obtain ⟨control', enable', pad'⟩ := (live_iff hp).mp start
  unfold gpioRestore
  dsimp only
  rw [if_pos ⟨board, enable, pad, control, by rwa [Regs.gpioRead, home_reg aligned (ctrl_low hp)],
    by rwa [Regs.gpioRead, home_reg aligned oe_low], by rwa [Regs.gpioRead, home_reg aligned (pad_low hp)]⟩]
  rw [if_pos enable]
  have level := passed_write (.refl start) (live_out (c := (gpioSnapshot r₀ p).output ≠ 0) hp)
  exact passed_write (passed_write (passed_write level (live_ctrl hp control)) (live_oe hp)) (live_pad hp pad)

/-! ### Claiming -/

section Claims

variable {boot : ℕ → PinState} {interrupts : ℕ → Bool} {function : BitVec 32} {output : Bool} {configuration : BitVec 8} {strength : ℕ}

theorem configure_within (hp : p < 54) (m : Machine) :
    Within (seen p) m (configure boot interrupts function output configuration strength p m) := by
  have aligned := bankOffset_aligned p
  unfold configure
  dsimp only
  have start {c : Prop} [Decidable c] : Within (seen p) m (if c then m else m.float p) := by
    split
    · exact .refl _ m
    · exact float_within hp m
  refine Within.write ?_ ((touchedBy_reg aligned (pad_low hp)).trans pad_seen)
  have control {n : Machine} {v : BitVec 32} (h : Within (seen p) m n) :
      Within (seen p) m (n.gpioWrite .io (bankOffset p + rp1Ctrl (bankPin p)) v) :=
    h.write ((touchedBy_reg aligned (ctrl_low hp)).trans ctrl_seen)
  split
  · refine (control start).write ?_
    rw [touchedBy_set aligned oe_low]
    exact oe_seen hp
  · exact control start

theorem claimedControl_driven (on : Bool) (c : BitVec 32) : claimedControl on 5 c &&& (31 ||| rp1ControlOverrides) = 5 := by
  have cleared : ~~~(31 ||| rp1ControlOverrides ||| rp1IrqReset) &&& (31 ||| rp1ControlOverrides) = 0#32 := by decide
  have events : ~~~rp1IrqEvents &&& (31 ||| rp1ControlOverrides) = 31 ||| rp1ControlOverrides := by decide
  have five : (5 : BitVec 32) &&& (31 ||| rp1ControlOverrides) = 5 := by decide
  unfold claimedControl
  cases on
  · simp only [Bool.false_eq_true, if_false, BitVec.and_or_distrib_right, BitVec.and_assoc, events, cleared, five]
    simp
  · simp only [if_true, BitVec.and_or_distrib_right, BitVec.and_assoc, cleared, five]
    simp

theorem claimedPad_driven (b : BitVec 32) (output : Bool) (pad : BitVec 32) :
    claimedPad b 5 output configuration strength pad &&& rp1PadOd = 0 ↔ output = true := by
  have off : ~~~rp1PadOd &&& rp1PadOd = 0#32 := by decide
  have on : ¬rp1PadOd = 0#32 := by decide
  unfold claimedPad
  dsimp only
  cases output
  · rw [if_neg (by decide), BitVec.and_or_distrib_right, BitVec.and_self]
    refine ⟨fun zero => absurd ?_ on, nofun⟩
    simpa using (BitVec.or_eq_zero_iff.mp zero).2
  · rw [if_pos (.inl rfl), BitVec.and_assoc, off]
    simp

theorem configure_steady (hp : p < 54) (board : rp1HeaderPins ≤ p) (m : Machine) :
    m.Steady (Live p) (configure boot interrupts 5 output configuration strength p m) := by
  intro start finish
  have aligned := bankOffset_aligned p
  obtain ⟨control, enable, pad⟩ := (live_iff hp).mp start
  have driven : output = true := by
    have last := ((live_iff hp).mp finish).2.2
    unfold configure at last
    simp only [Machine.gpioWrite, Journal.write_now, Regs.write, home_reg aligned (pad_low hp), written_reg aligned (pad_low hp), and_self,
      if_true] at last
    exact (claimedPad_driven _ _ _).mp last
  clear finish
  subst driven
  unfold configure
  dsimp only
  rw [if_pos (c := rp1HeaderPins ≤ p ∧ _) ⟨board, rfl, rfl, by rwa [Regs.gpioRead, home_reg aligned (ctrl_low hp)],
    by rwa [Regs.gpioRead, home_reg aligned oe_low], by rwa [Regs.gpioRead, home_reg aligned (pad_low hp)]⟩]
  rw [if_pos rfl]
  refine passed_write (passed_write (passed_write (.refl start) ?_) (live_oe hp)) ?_
  · exact live_ctrl hp (claimedControl_driven (interrupts p) _)
  · exact live_pad hp ((claimedPad_driven _ _ _).mpr rfl)

end Claims

/-! ### Levels and interrupts -/

/-- The bits that have the levels of some pins. -/
def levels (s : Set ℕ) : Set Cell := { x | ∃ q ∈ s, x = levelCell q }

theorem masks_place : ∀ bank < 3, ∀ i < 32, (masks bank).getLsbD i = true →
    bankOffset (starts bank + i) = bank * 0x4000 ∧ bankPin (starts bank + i) = i := by
  decide

theorem touchedBy_levels {toSet toClear x : BitVec 64} {bank kind : ℕ} (hb : bank < 3) (inside : pins x ⊆ pins (toSet ||| toClear))
    (touches : touchedBy .rio (bank * 0x4000 + (kind + rp1Out)) (BitVec.setWidth 32 (x >>> starts bank) &&& masks bank) =
      { c | c.block = .rio ∧ c.address = bank * 0x4000 + rp1Out ∧ (BitVec.setWidth 32 (x >>> starts bank) &&& masks bank).getLsbD c.bit = true }) :
    touchedBy .rio (bank * 0x4000 + (kind + rp1Out)) (BitVec.setWidth 32 (x >>> starts bank) &&& masks bank) ⊆
      levels (pins (toSet ||| toClear)) := by
  rw [touches]
  rintro ⟨b, a, i⟩ ⟨rfl, rfl, bit⟩
  rw [BitVec.getLsbD_and, BitVec.getLsbD_setWidth, BitVec.getLsbD_ushiftRight, Bool.and_eq_true, Bool.and_eq_true, decide_eq_true_eq] at bit
  obtain ⟨⟨low, on⟩, known⟩ := bit
  obtain ⟨offset, place⟩ := masks_place bank hb i low known
  exact ⟨starts bank + i, inside on, by rw [levelCell, offset, place]⟩

theorem writeBank_within {bank : ℕ} (hb : bank < 3) (toSet toClear : BitVec 64) (m : Machine) :
    Within (levels (pins (toSet ||| toClear))) m (writeBank toSet toClear bank m) := by
  have aligned : bank * 0x4000 % 0x4000 = 0 := by omega
  unfold writeBank
  dsimp only
  split
  · exact .refl _ m
  · refine ((Within.refl _ m).write (touchedBy_levels hb ?_ ?_)).write (touchedBy_levels hb ?_ ?_)
    · rw [pins_or]
      exact Set.subset_union_right
    · rw [← Nat.add_assoc, touchedBy_clear aligned out_low]
    · rw [pins_or]
      exact Set.subset_union_left
    · rw [← Nat.add_assoc, touchedBy_set aligned out_low]

theorem gpioWriteValues_within (toSet toClear : BitVec 64) (m : Machine) :
    Within (levels (pins (toSet ||| toClear))) m (gpioWriteValues toSet toClear m) := by
  refine Journal.Passed.rounds (R := Only _) (Only.refl _) Only.trans (fun bank hb j => writeBank_within ?_ toSet toClear j) m
  simp only [List.mem_cons, List.not_mem_nil, or_false] at hb
  omega

/-- The bits that enable the interrupts of some pins. -/
def enables (s : Set ℕ) : Set Cell := { x | ∃ q ∈ s, x = enableCell q }

theorem setInte_within (v : BitVec 32) (m : Machine) : Within (enables (pins v)) m (m.gpioWrite .io (rp1Set + rp1Inte) v) := by
  refine (Within.refl _ m).write fun x hx => ?_
  obtain ⟨same, here, bit⟩ := hx
  exact ⟨x.bit, bit (.inl rfl), by rw [enableCell]; exact congrArg₂ (Cell.mk · · x.bit) same here⟩

theorem clearInte_within (v : BitVec 32) (m : Machine) : Within (enables (pins v)) m (m.gpioWrite .io (rp1Clear + rp1Inte) v) := by
  refine (Within.refl _ m).write fun x hx => ?_
  obtain ⟨same, here, bit⟩ := hx
  exact ⟨x.bit, bit (.inr rfl), by rw [enableCell]; exact congrArg₂ (Cell.mk · · x.bit) same here⟩

end Pi5Drivers.Rp1Gpio
