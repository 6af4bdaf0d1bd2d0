import Pi5Drivers.BcmGpio.Cells
import Pi5Drivers.Lib.Ownership

/-! What the parts of a request do to the registers, and where they can fail. Only the firmware can
fail a request that has begun to change something. -/

namespace Pi5Drivers.BcmGpio

open Effect

/-- The firmware has failed. -/
def Status.Firmware (e : Status) : Prop := e = .acpiInvalidData ∨ ∃ code, e = .acpi code

/-- The driver and the registers are what they are said to be. -/
def Here (d : Driver) (m : Machine) (c : Context) : Prop := c.driver = d ∧ c.machine = m

variable {d : Driver} {m m₀ : Machine} {f : PinFields} {revision aon : Bool} {α : Type} {E : Status → Context → Prop}

section Rules

variable {Q : α → Context → Prop}

theorem driver_here {f : Driver → Drive α} (h : Triple (Here d m) (f d) Q E) : Triple (Here d m) (driver >>= f) Q E := by
  rintro c ⟨rfl, rfl⟩
  exact h (s := c) ⟨rfl, rfl⟩

theorem machine_here {f : Machine → Drive α} (h : Triple (Here d m) (f m) Q E) : Triple (Here d m) (machine >>= f) Q E := by
  rintro c ⟨rfl, rfl⟩
  exact h (s := c) ⟨rfl, rfl⟩

theorem hw_here (g : Machine → Machine) : Triple (Here d m) (hw g) (fun _ => Here d (g m)) E :=
  Triple.modify fun _ hc => ⟨hc.1, congrArg g hc.2⟩

theorem set_here (g : Driver → Driver) : Triple (Here d m) (set g) (fun _ => Here (g d) m) E :=
  Triple.modify fun _ hc => ⟨congrArg g hc.1, hc.2⟩

end Rules

/-! ### Levels -/

/-- The levels that belong to the firmware, some of them written. -/
def Machine.asked (m : Machine) (mask value : BitVec 32) : Machine :=
  { m with aml := (m.aml &&& ~~~mask) ||| (value &&& mask), clock := m.clock + 1 }

theorem bcmBroker_rule (mask value : BitVec 32) (allowed : d.aon = true ∧ mask &&& ~~~d.valid.setWidth 32 = 0) :
    Triple (Here d m) (bcmBroker mask value) (fun _ => Here d (m.asked mask value))
      fun e c => e.Firmware ∧ ∃ torn, Here d (m.asked mask torn) c := by
  refine driver_here (Triple.bind (Q := fun _ => Here d m) (Triple.require (fun _ hc _ => hc) fun _ _ no => absurd allowed no) fun _ =>
    Triple.get_bind fun c hc => ?_)
  obtain ⟨rfl, rfl⟩ := hc
  dsimp only
  generalize c.world.fails c.machine.clock = failed
  rcases failed with _ | code
  rotate_left
  · refine Triple.bind (Q := fun _ => Here c.driver (c.machine.asked mask (c.world.torn c.machine.clock))) (Triple.modify ?_) fun _ =>
      Triple.stop fun _ hc => ⟨.inr ⟨code, rfl⟩, _, hc⟩
    rintro _ rfl
    exact ⟨rfl, rfl⟩
  · refine Triple.bind (Q := fun _ => Here c.driver (c.machine.asked mask value)) (Triple.modify ?_) fun _ => ?_
    · rintro _ rfl
      exact ⟨rfl, rfl⟩
    · refine Triple.bind (Q := fun _ => Here c.driver (c.machine.asked mask value)) (Triple.require (fun _ hc _ => hc) fun _ hc _ => ?_)
        fun _ => Triple.pure fun _ hc => hc
      exact ⟨.inl rfl, _, hc⟩

theorem asked_aml (m : Machine) (mask value : BitVec 32) (p : ℕ) :
    (m.asked mask value).aml.getLsbD p = if mask.getLsbD p = true then value.getLsbD p else m.aml.getLsbD p := by
  have bound : mask.getLsbD p = true → p < 32 := BitVec.lt_of_getLsbD
  simp only [Machine.asked, BitVec.getLsbD_or, BitVec.getLsbD_and, BitVec.getLsbD_not]
  split
  · next on => simp [on]
  · next off =>
    rw [Bool.eq_false_iff.mpr off]
    by_cases low : p < 32
    · simp [low]
    · simp [BitVec.getLsbD_of_ge _ _ (Nat.not_lt.mp low)]

/-- The bits that hold the levels of some pins. -/
def levels (aon : Bool) (s : Set ℕ) : Set Cell := { x | ∃ p ∈ s, x = levelCell aon p }

theorem getLsbD_low (mask : BitVec 64) (p : ℕ) : (mask.setWidth 32).getLsbD p = (decide (p < 32) && mask.getLsbD p) :=
  BitVec.getLsbD_setWidth ..

theorem asked_only (aon : d.aon = true) (mask : BitVec 64) (v : BitVec 32) :
    Only (levels d.aon (pins mask)) m (m.asked (mask.setWidth 32) v) := by
  rintro (⟨s, p⟩ | x | p) outside
  · rfl
  · rfl
  · refine (asked_aml m _ v p).trans (if_neg fun on => outside ?_)
    rw [getLsbD_low, Bool.and_eq_true, decide_eq_true_eq] at on
    exact ⟨p, on.2, by rw [levelCell, if_pos ⟨aon, on.1⟩]⟩

/-- The levels that are registers. -/
theorem writeData_bit (aon : Bool) (m : Machine) (toSet toClear : BitVec 64) (s : Reg) (p : ℕ) :
    (m.writeData aon toSet (toSet ||| toClear)).bit s p =
      if (s = .data ∧ (toSet ||| toClear).getLsbD p = true) ∧ (aon = true → 32 ≤ p) then toSet.getLsbD p else m.bit s p := by
  have bound : (toSet ||| toClear).getLsbD p = true → p < 64 := BitVec.lt_of_getLsbD
  unfold Machine.writeData
  rw [writeDataBank_eq, writeDataBank_eq, updateBank_bit _ _ _ _ _ (by decide)]
  cases aon
  · rw [if_neg Bool.false_ne_true, ← updateBank_bit _ _ _ 1 _ (by decide)]
    exact (update_bit m (toSet ||| toClear) toSet p (by decide)).trans (if_congr (by simp) rfl rfl)
  · rw [if_pos rfl]
    refine if_congr ⟨fun h => ⟨⟨h.1, h.2.2⟩, fun _ => by omega⟩, fun h => ⟨h.1.1, ?_, h.1.2⟩⟩ rfl rfl
    have := h.2 rfl
    have := bound h.1.2
    omega

theorem writeData_other (aon : Bool) (m : Machine) (toSet toClear : BitVec 64) :
    (m.writeData aon toSet (toSet ||| toClear)).pinctrl = m.pinctrl ∧ (m.writeData aon toSet (toSet ||| toClear)).aml = m.aml := by
  unfold Machine.writeData
  rw [writeDataBank_eq, writeDataBank_eq]
  obtain ⟨words, aml⟩ := updateBank_pinctrl (if aon = true then m else m.updateBank .data (toSet ||| toClear) toSet 0) .data (toSet ||| toClear) toSet 1
  rw [words, aml]
  split
  · exact ⟨rfl, rfl⟩
  · exact updateBank_pinctrl m .data (toSet ||| toClear) toSet 0

theorem writeData_only (aon : Bool) (m : Machine) (toSet toClear : BitVec 64) :
    Only (levels aon (pins (toSet ||| toClear))) m (m.writeData aon toSet (toSet ||| toClear)) := by
  obtain ⟨words, aml⟩ := writeData_other aon m toSet toClear
  rintro (⟨s, p⟩ | x | p) outside
  · refine (writeData_bit aon m toSet toClear s p).trans (if_neg ?_)
    rintro ⟨⟨rfl, on⟩, upper⟩
    exact outside ⟨p, on, by rw [levelCell, if_neg fun h => by have := upper h.1; omega]⟩
  · simp only [Machine.cell, words]
  · simp only [Machine.cell, aml]

/-- What a request wrote or the firmware did before it was refused. -/
structure Refused (d : Driver) (m : Machine) (e : Status) (c : Context) : Prop where
  driver : c.driver = d
  gio : c.machine.gio = m.gio
  pinctrl : c.machine.pinctrl = m.pinctrl
  written : c.machine.written = m.written
  firmware : e.Firmware ∧ d.aon = true ∨ c.machine = m

/-- What the firmware did of a request. -/
def Prepared (d : Driver) (m : Machine) (toSet mask : BitVec 64) (c : Context) : Prop :=
  c.driver = d ∧ Only (levels d.aon (pins mask)) m c.machine ∧
    (d.aon = true → ∀ p < 32, p ∈ pins mask → c.machine.aml.getLsbD p = toSet.getLsbD p)

/-- The firmware is asked for what belongs to it. -/
theorem askFirmware_rule (toSet mask : BitVec 64) (inside : mask &&& ~~~d.valid = 0) :
    Triple (Here d m) (when (d.aon = true ∧ mask.setWidth 32 ≠ 0) do
      let _ ← bcmBroker (mask.setWidth 32) (toSet.setWidth 32)
      pure ()) (fun _ => Prepared d m toSet mask)
      fun e c => (Refused d m e c ∧ Only (levels d.aon (pins mask)) m c.machine) ∧ e.Firmware ∧ d.aon = true := by
  refine Triple.when (fun asked => ?_) fun c hc skip => ?_
  · have allowed : mask.setWidth 32 &&& ~~~d.valid.setWidth 32 = 0 := by
      refine BitVec.eq_of_getLsbD_eq fun p hp => ?_
      have bit := congrArg (BitVec.getLsbD · p) inside
      have wide : p < 64 := by omega
      simpa [hp, wide] using bit
    refine Triple.bind (Q := fun _ => Prepared d m toSet mask) ?_ fun _ => Triple.pure fun _ hc => hc
    refine (bcmBroker_rule _ (toSet.setWidth 32) ⟨asked.1, allowed⟩).mono (fun _ hc => hc) (fun _ c hc => ?_) fun e c hc => ?_
    · obtain ⟨same, after⟩ := hc
      refine ⟨same, after ▸ asked_only asked.1 mask _, fun _ p hp on => ?_⟩
      rw [after, asked_aml, getLsbD_low, getLsbD_low, decide_eq_true hp, Bool.true_and, Bool.true_and, if_pos (mem_pins.mp on)]
    · obtain ⟨firmware, torn, same, after⟩ := hc
      refine ⟨⟨⟨same, ?_, ?_, ?_, .inl ⟨firmware, asked.1⟩⟩, after ▸ asked_only asked.1 mask _⟩, firmware, asked.1⟩
      all_goals
        rw [after]
        rfl
  · refine ⟨hc.1, hc.2 ▸ .refl _ _, fun aon p hp on => ?_⟩
    have zero : mask.setWidth 32 = 0 := by
      by_contra some
      exact skip ⟨aon, some⟩
    have bit := congrArg (BitVec.getLsbD · p) zero
    rw [getLsbD_low, decide_eq_true hp, Bool.true_and, mem_pins.mp on] at bit
    simp at bit

/-- Pins that there are, each of them set or cleared. -/
def Writable (d : Driver) (toSet toClear : BitVec 64) : Prop := (toSet ||| toClear) &&& ~~~d.valid = 0 ∧ toSet &&& toClear = 0

theorem bcmWriteData_rule (toSet toClear : BitVec 64) : Triple (Here d m) (bcmWriteData toSet toClear)
    (fun _ c => Writable d toSet toClear ∧ c.driver = d ∧ Only (levels d.aon (pins (toSet ||| toClear))) m c.machine ∧
      ∀ p < 64, p ∈ pins (toSet ||| toClear) → c.machine.cell (levelCell d.aon p) = toSet.getLsbD p)
    fun e c => Refused d m e c ∧ Only (levels d.aon (pins (toSet ||| toClear))) m c.machine ∧
      ((e.Firmware ∧ d.aon = true) ∧ Writable d toSet toClear ∨ ¬Writable d toSet toClear ∧ c.machine = m) := by
  refine driver_here (Triple.bind (Q := fun _ c => Writable d toSet toClear ∧ Here d m c)
    (Triple.require (fun _ hc yes => ⟨yes, hc⟩) fun c hc no => ?_) fun _ => Triple.assume fun writable => ?_)
  · obtain ⟨rfl, rfl⟩ := hc
    exact ⟨⟨rfl, rfl, rfl, rfl, .inr rfl⟩, .refl _ _, .inr ⟨no, rfl⟩⟩
  refine Triple.bind ((askFirmware_rule toSet _ writable.1).mono (fun _ hc => hc) (fun _ _ hc => hc) fun _ _ hc => ⟨hc.1.1, hc.1.2, .inl ⟨hc.2, writable⟩⟩) fun _ =>
    Triple.modify fun c hc => ⟨writable, hc.1, hc.2.1.trans (writeData_only _ _ _ _), fun p hp on => ?_⟩
  change (c.machine.writeData d.aon toSet (toSet ||| toClear)).cell (levelCell d.aon p) = _
  unfold levelCell
  split
  · next first => exact (congrArg (BitVec.getLsbD · p) (writeData_other _ _ _ _).2).trans (hc.2.2 first.1 p first.2 on)
  · next second =>
    refine (writeData_bit _ _ _ _ _ _).trans (if_pos ⟨⟨rfl, on⟩, fun aon => ?_⟩)
    by_contra low
    exact second ⟨aon, Nat.not_le.mp low⟩

/-! ### Pins -/

/-- The driver was started over these registers. -/
structure Booted (revision aon : Bool) (m₀ : Machine) (d : Driver) : Prop where
  controller : d.revision = revision ∧ d.aon = aon
  valid : d.valid = bcmValidPins d.revision d.aon
  boot : ∀ p, d.boot p = m₀.snapshot (d.fields p) p (m₀.data d.aon)

def Driver.own (d : Driver) (p : ℕ) : Set Cell := Own (d.fields p) d.aon p

/-- The bits of the pins that there are. -/
def Driver.cells (d : Driver) (s : Set ℕ) : Set Cell := { x | ∃ p ∈ s, p ∈ pins d.valid ∧ x ∈ d.own p }

/-- The pin is as it was at the start. -/
def Restored (d : Driver) (m₀ m : Machine) (p : ℕ) : Prop := ∀ x ∈ Seen (d.fields p) d.aon p, m.cell x = m₀.cell x

section Pins

variable {p q : ℕ} {done S : Set Cell}

theorem Booted.fields (h : Booted revision aon m₀ d) (hp : p ∈ pins d.valid) : p < 64 ∧ bcmPinFields d.revision d.aon p = some (d.fields p) := by
  rw [h.valid, pins_valid] at hp
  obtain ⟨low, some, -⟩ := hp
  obtain ⟨f, hf⟩ := Option.isSome_iff_exists.mp some
  exact ⟨low, by rw [Driver.fields, hf]; rfl⟩

theorem Booted.apart (h : Booted revision aon m₀ d) (hp : p ∈ pins d.valid) (hq : q ∈ pins d.valid) (ne : p ≠ q) : ∀ x ∈ d.own p, x ∉ d.own q :=
  own_disjoint (fields_apart (h.fields hp).2 (h.fields hq).2 ne) ne

theorem own_cells {s : Set ℕ} (hp : p ∈ pins d.valid) (hs : p ∈ s) : d.own p ⊆ d.cells s := fun _ hx => ⟨p, hs, hp, hx⟩

theorem Restored.state (h : Restored d m₀ m p) (booted : Booted revision aon m₀ d) (hp : p ∈ pins d.valid) :
    m.snapshot (d.fields p) p (m.data d.aon) = d.boot p := by
  obtain ⟨low, fields⟩ := booted.fields hp
  rw [booted.boot]
  exact snapshot_congr (fields_fit fields) low h

/-- Some bits of the pin are as they were at the start, and no others were touched. -/
def Mending (d : Driver) (m₀ m : Machine) (p : ℕ) (done : Set Cell) (c : Context) : Prop :=
  c.driver = d ∧ Only (d.own p) m c.machine ∧ ∀ x ∈ done, c.machine.cell x = m₀.cell x

theorem mend_rule {g : Machine → Machine} {T : Set Cell} (only : ∀ m, Only T m (g m)) (inside : T ⊆ d.own p)
    (value : ∀ m, ∀ x ∈ T, (g m).cell x = m₀.cell x) :
    Triple (Mending d m₀ m p done) (hw g) (fun _ => Mending d m₀ m p (done ∪ T)) E :=
  Triple.modify fun c hc => ⟨hc.1, hc.2.1.trans ((only c.machine).mono inside), fun x hx => by
    by_cases new : x ∈ T
    · exact value c.machine x new
    · exact (only c.machine x new).trans (hc.2.2 x (hx.resolve_right new))⟩

theorem column_pinBit (r : Reg) (low : p < 64) : column r (pins (pinBit p : BitVec 64)) ⊆ Own f aon p := by
  rw [pins_pinBit low]
  rintro (⟨s, q⟩ | x | q) inside
  · exact inside.2
  · exact inside.elim
  · exact inside.elim

/-- The bit of a pin in a register of its own is set or cleared. -/
theorem put_only (r : Reg) (hr : r ≠ .status) (v : Bool) (p : ℕ) (m : Machine) :
    Only (column r (pins (pinBit p : BitVec 64))) m (m.update r (pinBit p) (if v then pinBit p else 0)) := update_only m _ _ hr

theorem put_rule {r : Reg} (hr : r ≠ .status) (low : p < 64) : Triple (Mending d m₀ m p done) (put r p (m₀.bit r p))
    (fun _ => Mending d m₀ m p (done ∪ column r {p})) E := by
  have bits : pins (pinBit p : BitVec 64) = {p} := pins_pinBit low
  rw [← bits]
  refine mend_rule (put_only r hr _ p) (column_pinBit r low) fun m x hx => ?_
  rcases x with ⟨s, q⟩ | x | q
  · obtain ⟨rfl, hq⟩ := hx
    rw [bits] at hq
    cases hq
    refine (update_bit m _ _ p hr).trans ?_
    rw [if_pos ⟨rfl, by rw [getLsbD_pinBit low, decide_eq_true rfl]⟩]
    change _ = m₀.bit s p
    cases m₀.bit s p
    · simp
    · rw [if_pos rfl, getLsbD_pinBit low, decide_eq_true rfl]
  · exact hx.elim
  · exact hx.elim

/-- The pull of a pin, if it has one. -/
def pullSpan (f : PinFields) : Set Cell := { x | ∃ b ∈ f.pullBit, x ∈ span b 2 }

theorem fieldWrite_rule {mask : BitVec 32} {b n : ℕ} (low : Low mask n) (fits : b % 32 + n ≤ 32) (inside : span b n ⊆ d.own p) :
    Triple (Mending d m₀ m p done) (hw (·.fieldWrite b mask (m₀.fieldRead b mask))) (fun _ => Mending d m₀ m p (done ∪ span b n)) E := by
  refine mend_rule (fieldWrite_only low fits) inside fun m x hx => ?_
  rcases x with ⟨s, q⟩ | x | q
  · exact hx.elim
  · obtain ⟨from', to'⟩ : b ≤ x ∧ x < b + n := hx
    refine (fieldWrite_cell low fits m x).trans ?_
    rw [if_pos ⟨from', to'⟩, getLsbD_fieldRead low fits, decide_eq_true (by omega), Bool.true_and, Nat.add_sub_cancel' from']
  · exact hx.elim

theorem muxSpan_own (f : PinFields) (aon : Bool) (p : ℕ) : span f.muxBit 4 ⊆ Own f aon p := by
  rintro (⟨s, q⟩ | x | q) hx
  · exact hx.elim
  · exact .inl hx
  · exact hx.elim

theorem pullSpan_own {b : ℕ} (hb : f.pullBit = some b) (aon : Bool) (p : ℕ) : span b 2 ⊆ Own f aon p := by
  rintro (⟨s, q⟩ | x | q) hx
  · exact hx.elim
  · exact .inr ⟨b, hb, hx⟩
  · exact hx.elim

theorem pull_rule (fits : (d.fields p).Fits) :
    Triple (Mending d m₀ m p done) (pull (d.fields p) ((d.fields p).pullBit.elim 0 fun b => m₀.fieldRead b 3))
      (fun _ => Mending d m₀ m p (done ∪ pullSpan (d.fields p))) E := by
  unfold pull
  cases hb : (d.fields p).pullBit with
  | none =>
    refine Triple.pure fun c hc => ⟨hc.1, hc.2.1, fun x hx => hc.2.2 x (hx.resolve_right ?_)⟩
    rintro ⟨b, no, -⟩
    rw [hb] at no
    cases no
  | some b =>
    refine (fieldWrite_rule low_three (fits.2 b hb).1 (pullSpan_own hb d.aon p)).mono (fun _ hc => hc) (fun _ c hc => ?_) fun _ _ hc => hc
    refine ⟨hc.1, hc.2.1, fun x hx => hc.2.2 x (hx.imp_right ?_)⟩
    rintro ⟨b', same, inside⟩
    rw [hb] at same
    cases same
    exact inside

/-- Whatever is seen of a pin is one of the bits that are put back. -/
theorem seen_mended (f : PinFields) (aon : Bool) (p : ℕ) :
    Seen f aon p ⊆ ((((((((∅ ∪ {levelCell aon p}) ∪ column .oden {p}) ∪ span f.muxBit 4) ∪ pullSpan f) ∪ column .edge {p}) ∪
      column .both {p}) ∪ column .level {p}) ∪ column .dir {p}) := by
  rintro (⟨s, q⟩ | x | q) seen
  · cases s with
    | mask | status => exact seen.elim
    | data => exact .inl (.inl (.inl (.inl (.inl (.inl (.inl (.inr (seen.1 ▸ seen.2.symm))))))))
    | oden => exact .inl (.inl (.inl (.inl (.inl (.inl (.inr ⟨rfl, seen⟩))))))
    | edge => exact .inl (.inl (.inl (.inr ⟨rfl, seen⟩)))
    | both => exact .inl (.inl (.inr ⟨rfl, seen⟩))
    | level => exact .inl (.inr ⟨rfl, seen⟩)
    | dir => exact .inr ⟨rfl, seen⟩
  · rcases seen with mux | ⟨b, hb, pull⟩
    · exact .inl (.inl (.inl (.inl (.inl (.inr mux)))))
    · exact .inl (.inl (.inl (.inl (.inr ⟨b, hb, pull⟩))))
  · exact .inl (.inl (.inl (.inl (.inl (.inl (.inl (.inr (seen.1 ▸ seen.2.symm))))))))

/-- The level of a pin. -/
theorem level_rule (low : p < 64) (valid : p ∈ pins d.valid) :
    Triple (Mending d m₀ m p ∅)
      (bcmWriteData (if (m₀.data d.aon).getLsbD p then pinBit p else 0) (if (m₀.data d.aon).getLsbD p then 0 else pinBit p))
      (fun _ => Mending d m₀ m p (∅ ∪ {levelCell d.aon p})) fun e c => c.driver = d ∧ Only (d.own p) m c.machine ∧ e.Firmware ∧ d.aon = true := by
  intro c hc
  generalize hv : (m₀.data d.aon).getLsbD p = v
  rw [data_at _ _ low] at hv
  have both : (if v then pinBit p else 0 : BitVec 64) ||| (if v then 0 else pinBit p) = pinBit p := by cases v <;> simp
  have apart : (if v then pinBit p else 0 : BitVec 64) &&& (if v then 0 else pinBit p) = 0 := by cases v <;> simp
  have inside : levels d.aon (pins (pinBit p : BitVec 64)) ⊆ d.own p := by
    rw [pins_pinBit low]
    rintro x ⟨q, rfl, rfl⟩
    exact seen_own (levelCell_seen _ _ _)
  have known : (pinBit p : BitVec 64) &&& ~~~d.valid = 0 := by
    rw [and_not_eq_zero, pins_pinBit low]
    exact Set.singleton_subset_iff.mpr valid
  have wrote := bcmWriteData_rule (d := d) (m := c.machine) (if v then pinBit p else 0) (if v then 0 else pinBit p)
  rw [Writable, both, apart] at wrote
  refine wrote.mono (fun _ hc => hc) (fun _ c' hc' => ?_) (fun e c' hc' => ?_) (s := c) ⟨hc.1, rfl⟩
  · obtain ⟨-, same, only, value⟩ := hc'
    refine ⟨same, hc.2.1.trans (only.mono inside), fun x hx => ?_⟩
    rcases hx with no | rfl
    · exact no.elim
    · rw [value p low (by rw [pins_pinBit low]; rfl), hv]
      cases v
      · simp
      · rw [if_pos rfl, getLsbD_pinBit low, decide_eq_true rfl]
  · obtain ⟨refused, only, cause⟩ := hc'
    obtain ⟨⟨firmware, aon⟩, -⟩ := cause.resolve_right fun no => no.1 ⟨known, rfl⟩
    exact ⟨refused.driver, hc.2.1.trans (only.mono inside), firmware, aon⟩

theorem bcmRestore_rule (booted : Booted revision aon m₀ d) (valid : p ∈ pins d.valid) :
    Triple (Here d m) (bcmRestore p (d.boot p)) (fun _ c => c.driver = d ∧ Only (d.own p) m c.machine ∧ Restored d m₀ c.machine p)
      fun e c => c.driver = d ∧ Only (d.own p) m c.machine ∧ e.Firmware ∧ d.aon = true := by
  obtain ⟨low, fields⟩ := booted.fields valid
  have fits := fields_fit fields
  rw [booted.boot]
  refine driver_here (machine_here (Triple.bind (Q := fun _ => Mending d m₀ m p ∅) (Triple.when (fun _ => ?_) fun c hc _ => ?_) fun _ => ?_))
  · refine Triple.modify fun c hc => ⟨hc.1, ?_, fun _ no => no.elim⟩
    rw [← hc.2]
    exact (put_only .dir (by decide) true p c.machine).mono (column_pinBit .dir low)
  · exact ⟨hc.1, hc.2 ▸ .refl _ _, fun _ no => no.elim⟩
  refine Triple.bind (level_rule low valid) fun _ => Triple.bind (put_rule (by decide) low) fun _ => ?_
  refine Triple.bind (fieldWrite_rule low_fifteen fits.1 (muxSpan_own _ _ _)) fun _ => Triple.bind (pull_rule fits) fun _ => ?_
  refine Triple.bind (put_rule (by decide) low) fun _ => Triple.bind (put_rule (by decide) low) fun _ => ?_
  refine Triple.bind (put_rule (by decide) low) fun _ => (put_rule (by decide) low).mono (fun _ hc => hc) (fun _ c hc => ?_) fun _ _ hc => hc
  exact ⟨hc.1, hc.2.1, fun x hx => hc.2.2 x (seen_mended _ _ _ hx)⟩

/-- Apart from the pins that are remembered, the driver is as it was. -/
def Driver.remember (d : Driver) (t : BitVec 64) : Driver := { d with touched := t }

theorem bcmConfigure_rule (booted : Booted revision aon m₀ d) (valid : p ∈ pins d.valid) (function : BitVec 32) (output : Bool) (configuration : BitVec 8) :
    Triple (Here d m) (bcmConfigure function output configuration p)
      (fun _ c => c.driver = d.remember (d.touched ||| pinBit p) ∧ Only (d.own p) m c.machine) E := by
  obtain ⟨low, fields⟩ := booted.fields valid
  have fits := fields_fit fields
  have change {g : Machine → Machine} {T : Set Cell} (only : ∀ m, Only T m (g m)) (inside : T ⊆ d.own p) :
      Triple (fun c => c.driver = d ∧ Only (d.own p) m c.machine) (hw g) (fun _ c => c.driver = d ∧ Only (d.own p) m c.machine) E :=
    Triple.modify fun c hc => ⟨hc.1, hc.2.trans ((only c.machine).mono inside)⟩
  have bit (r : Reg) (hr : r ≠ .status) (v : Bool) :
      Triple (fun c => c.driver = d ∧ Only (d.own p) m c.machine) (put r p v) (fun _ c => c.driver = d ∧ Only (d.own p) m c.machine) E :=
    change (put_only r hr v p) (column_pinBit r low)
  refine driver_here (machine_here (Triple.mono (P := fun c => c.driver = d ∧ Only (d.own p) m c.machine)
    (Q := fun _ c => c.driver = d.remember (d.touched ||| pinBit p) ∧ Only (d.own p) m c.machine) (E := E) ?_
    (fun c hc => ⟨hc.1, hc.2 ▸ .refl _ _⟩) (fun _ _ hc => hc) fun _ _ hc => hc))
  refine Triple.bind (Triple.when (fun _ => bit .dir (by decide) true) fun _ hc _ => hc) fun _ => ?_
  refine Triple.bind (change (fieldWrite_only low_fifteen fits.1) (muxSpan_own _ _ _)) fun _ => ?_
  refine Triple.bind (Q := fun _ c => c.driver = d ∧ Only (d.own p) m c.machine) ?_ fun _ => Triple.bind (bit .oden (by decide) false) fun _ => ?_
  · unfold pull
    cases hb : (d.fields p).pullBit with
    | none => exact Triple.pure fun _ hc => hc
    | some b => exact change (fieldWrite_only low_three (fits.2 b hb).1) (pullSpan_own hb _ _)
  refine Triple.bind (Triple.when (fun _ => bit .dir (by decide) false) fun _ hc _ => hc) fun _ => ?_
  exact Triple.modify fun c hc => ⟨by rw [hc.1]; rfl, hc.2⟩

/-- Some pins were configured and are remembered. -/
def Configured (d : Driver) (m : Machine) (s known : Set ℕ) (c : Context) : Prop :=
  ∃ t, c.driver = d.remember t ∧ pins d.touched ∪ known ⊆ pins t ∧ Only (d.cells s) m c.machine

theorem configureAll_rule (booted : Booted revision aon m₀ d) (mask : BitVec 64) (valid : pins mask ⊆ pins d.valid) (function : BitVec 32) (output : Bool)
    (configuration : BitVec 8) : Triple (Here d m) (each (bcmConfigure function output configuration) (pinsFrom 0 64 mask))
      (fun _ => Configured d m (pins mask) (pins mask)) E := by
  have all := Triple.each_rest (f := bcmConfigure function output configuration) (E := E)
    (I := fun rest c => (∀ p ∈ rest, p ∈ pins mask) ∧ Configured d m (pins mask) { p | p ∈ pins mask ∧ p ∉ rest } c) (fun p rest c hc => ?_)
    (pinsFrom 0 64 mask)
  · refine all.mono (fun c hc => ⟨fun p hp => (mem_pinsFrom.mp hp).2, d.touched, hc.1, ?_, hc.2 ▸ .refl _ _⟩) (fun _ c hc => ?_) fun _ _ hc => hc
    · refine Set.union_subset Set.Subset.rfl fun p hp => absurd (mem_pinsFrom.mpr ⟨⟨Nat.zero_le p, lt_of_mem_pins hp.1⟩, hp.1⟩) hp.2
    · obtain ⟨-, t, same, known, only⟩ := hc
      exact ⟨t, same, Set.union_subset (Set.subset_union_left.trans known) fun p hp => known (.inr ⟨hp, List.not_mem_nil⟩), only⟩
  obtain ⟨inside, t, same, known, only⟩ := hc
  have hp := inside p List.mem_cons_self
  have booted' : Booted revision aon m₀ c.driver := by
    rw [same]
    exact ⟨booted.controller, booted.valid, booted.boot⟩
  have valid' : p ∈ pins c.driver.valid := by
    rw [same]
    exact valid hp
  refine (bcmConfigure_rule booted' valid' function output configuration).mono (fun _ hc => hc) (fun _ c' hc' => ?_) (fun _ _ hc => hc)
    (s := c) ⟨rfl, rfl⟩
  obtain ⟨same', only'⟩ := hc'
  rw [same] at same' only'
  refine ⟨fun q hq => inside q (List.mem_cons_of_mem p hq), t ||| pinBit p, same', ?_, only.trans (only'.mono (own_cells (valid hp) hp))⟩
  rw [pins_or, pins_pinBit (booted.fields (valid hp)).1]
  rintro q (old | ⟨hq, fresh⟩)
  · exact .inl (known (.inl old))
  · by_cases here : q = p
    · exact .inr here
    · exact .inl (known (.inr ⟨hq, fun mem => (List.mem_cons.mp mem).elim here fresh⟩))

/-- Pins were put back, and may be forgotten. -/
def Freed (d : Driver) (m : Machine) (s free : Set ℕ) (c : Context) : Prop :=
  ∃ t, c.driver = d.remember t ∧ pins d.touched \ free ⊆ pins t ∧ Only (d.cells s) m c.machine

/-- The pins of a mask that nobody owns. -/
def Driver.free (d : Driver) (mask : BitVec 64) : Set ℕ := pins mask \ pins (d.ioOwned ||| d.irqOwned ||| d.functionOwned)

theorem restoreFree_rule (booted : Booted revision aon m₀ d) (mask : BitVec 64) (valid : pins mask ⊆ pins d.valid) :
    Triple (Here d m) (restoreFree mask)
      (fun _ c => Freed d m (pins mask) (d.free mask) c ∧ ∀ p ∈ d.free mask, Restored d m₀ c.machine p)
      fun e c => Freed d m (pins mask) (d.free mask) c ∧ e.Firmware ∧ d.aon = true := by
  refine driver_here ?_
  have all := Triple.each_rest (f := fun pin => do
      bcmRestore pin (d.boot pin)
      set fun d => { d with touched := d.touched &&& ~~~pinBit pin })
    (E := fun e c => Freed d m (pins mask) (d.free mask) c ∧ e.Firmware ∧ d.aon = true)
    (I := fun rest c => (∀ p ∈ rest, p ∈ d.free mask) ∧ Freed d m (pins mask) (d.free mask) c ∧
      ∀ p ∈ d.free mask, p ∉ rest → Restored d m₀ c.machine p) (fun p rest c hc => ?_)
    (pinsFrom 0 64 (mask &&& ~~~(d.ioOwned ||| d.irqOwned ||| d.functionOwned)))
  · refine all.mono (fun c hc => ⟨fun p hp => ?_, ⟨d.touched, hc.1, Set.sdiff_subset, hc.2 ▸ .refl _ _⟩, fun p hp out => ?_⟩)
      (fun _ c hc => ⟨hc.2.1, fun p hp => hc.2.2 p hp List.not_mem_nil⟩) fun _ _ hc => hc
    · have := (mem_pinsFrom.mp hp).2
      rwa [pins_and_not] at this
    · refine absurd (mem_pinsFrom.mpr ⟨⟨Nat.zero_le p, lt_of_mem_pins hp.1⟩, ?_⟩) out
      rwa [pins_and_not]
  obtain ⟨inside, ⟨t, same, known, only⟩, back⟩ := hc
  have hp := inside p List.mem_cons_self
  have booted' : Booted revision aon m₀ c.driver := by
    rw [same]
    exact ⟨booted.controller, booted.valid, booted.boot⟩
  have valid' : p ∈ pins c.driver.valid := by
    rw [same]
    exact valid hp.1
  have restored := bcmRestore_rule (m := c.machine) booted' valid'
  rw [same] at restored
  refine Triple.bind (P := Here (d.remember t) c.machine) (Q := fun _ c' => c'.driver = d.remember t ∧ Only (d.own p) c.machine c'.machine ∧
    Restored d m₀ c'.machine p) (restored.mono (fun _ hc => hc) (fun _ _ hc => hc) fun e c' hc' => ?_) (fun _ => Triple.modify fun c' hc' => ?_)
    (s := c) ⟨same, rfl⟩
  · exact ⟨⟨t, hc'.1, known, only.trans (hc'.2.1.mono (own_cells (valid hp.1) hp.1))⟩, hc'.2.2⟩
  · refine ⟨fun q hq => inside q (List.mem_cons_of_mem p hq), ⟨t &&& ~~~pinBit p, by rw [hc'.1]; rfl, ?_,
      only.trans (hc'.2.1.mono (own_cells (valid hp.1) hp.1))⟩, fun q hq out => ?_⟩
    · rw [pins_and_not, pins_pinBit (booted.fields (valid hp.1)).1]
      exact fun q hq => ⟨known hq, fun here => hq.2 (here ▸ hp)⟩
    · by_cases here : q = p
      · rw [here]
        exact hc'.2.2
      · intro x hx
        refine (hc'.2.1 x ?_).trans (back q hq (fun mem => (List.mem_cons.mp mem).elim here out) x hx)
        exact booted.apart (valid hq.1) (valid hp.1) here x (seen_own hx)

end Pins

end Pi5Drivers.BcmGpio
