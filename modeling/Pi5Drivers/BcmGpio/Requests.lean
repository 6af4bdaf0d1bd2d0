import Pi5Drivers.BcmGpio.Rules

/-! The requests. Between them pins have the owners that they may have; a request that is refused has
changed nothing, and no request changes a bit of a pin that is not its own. -/

namespace Pi5Drivers.BcmGpio

open Effect GpioClx

def owners (d : Driver) : Owners ℕ := ⟨pins d.ioOwned, pins d.outputOwned, pins d.irqOwned, pins d.functionOwned, pins d.touched⟩

/-- What holds between requests. -/
structure Inv (revision aon : Bool) (m₀ : Machine) (d : Driver) : Prop where
  booted : Booted revision aon m₀ d
  sound : (owners d).Sound

namespace Request

/-- The pins of a request. -/
def pins : Request → Set ℕ
  | .connect p => tablePins p.table
  | .disconnect _ table _ => tablePins table
  | .writePins _ toSet toClear => Pi5Drivers.pins (toSet ||| toClear)
  | .enableInterrupt p => {p.pin}
  | .disableInterrupt _ pin => {pin}
  | .maskInterrupts _ mask => Pi5Drivers.pins mask
  | .unmaskInterrupt _ pin => {pin}
  | .clearInterrupts _ mask => Pi5Drivers.pins mask
  | .connectFunction p => tablePins p.table
  | .disconnectFunction _ table => tablePins table
  | .readPins _ | .queryInterrupts _ _ | .queryEnabled _ => ∅

/-- An owner leaves, and its pins need not stay as they are. -/
def leaves : Request → Bool
  | .disconnect _ _ preserve => !preserve
  | .disableInterrupt _ _ | .disconnectFunction _ _ => true
  | _ => false

/-- Pins are disconnected. -/
def disconnects : Request → Bool
  | .disconnect _ _ _ | .disconnectFunction _ _ => true
  | _ => false

end Request

variable {revision aon : Bool} {d : Driver} {m m₀ : Machine} {mask : BitVec 64} {p : ℕ}

/-- The invariant is kept, and only bits of some pins were changed. -/
structure Kept (revision aon : Bool) (m₀ : Machine) (d : Driver) (m : Machine) (s : Set ℕ) (c : Context) : Prop where
  inv : Inv revision aon m₀ c.driver
  only : Only (d.cells s) m c.machine

/-- The pins that nobody has any more are as they were at the start. -/
def Returned (m₀ : Machine) (d : Driver) (s : Set ℕ) (c : Context) : Prop :=
  ∀ p ∈ s, p ∉ (owners c.driver).owned → p ∈ pins d.valid ∧ Restored d m₀ c.machine p

/-- How a request may end. -/
def Answers (revision aon : Bool) (m₀ : Machine) (d : Driver) (m : Machine) (r : Request) : Prop :=
  Triple (Here d m) (serve r) (fun _ c => Kept revision aon m₀ d m r.pins c ∧ (r.leaves = true → Returned m₀ d r.pins c))
    fun e c => Kept revision aon m₀ d m r.pins c ∧ (Refused d m e c ∨ (e.Firmware ∧ d.aon = true) ∧ r.disconnects = true)

/-! ### Checks -/

theorem refused_here {e : Status} {c : Context} (h : Here d m c) : Refused d m e c := by
  obtain ⟨rfl, rfl⟩ := h
  exact ⟨rfl, rfl, rfl, rfl, .inr rfl⟩

theorem Inv.kept (h : Inv revision aon m₀ d) {c : Context} {s : Set ℕ} (here : Here d m c) : Kept revision aon m₀ d m s c := by
  obtain ⟨rfl, rfl⟩ := here
  exact ⟨h, .refl _ _⟩

/-- A check, which changes nothing. -/
theorem Inv.check (h : Inv revision aon m₀ d) {s : Set ℕ} {disconnects : Bool} {α : Type} {x : Drive α} {Q : α → Context → Prop}
    (looks : Triple (Here d m) x Q fun _ => Here d m) :
    Triple (Here d m) x Q fun e c => Kept revision aon m₀ d m s c ∧ (Refused d m e c ∨ (e.Firmware ∧ d.aon = true) ∧ disconnects = true) :=
  looks.mono (fun _ hc => hc) (fun _ _ hc => hc) fun _ _ hc => ⟨h.kept hc, .inl (refused_here hc)⟩

theorem require_here {q : Prop} [Decidable q] {e : Status} : Triple (Here d m) (require q e) (fun _ c => q ∧ Here d m c) fun _ => Here d m :=
  Triple.require (fun _ hc yes => ⟨yes, hc⟩) fun _ hc _ => hc

theorem bcmMask_rule (bank : ℕ) (table : Option (List ℕ)) : Triple (Here d m) (bcmMask bank table)
    (fun mask c => (pins mask = tablePins table ∧ pins mask ⊆ pins d.valid) ∧ Here d m c) fun _ => Here d m := by
  refine driver_here ?_
  cases table with
  | none => exact Triple.stop fun _ hc => hc
  | some l =>
    refine Triple.bind require_here fun _ => Triple.assume fun _ => ?_
    cases gathered : gather 64 d.valid l 0 with
    | none => exact Triple.stop fun _ hc => hc
    | some mask =>
      refine Triple.pure fun c hc => ⟨⟨?_, ?_⟩, hc⟩
      · rw [(gather_pins (Nat.le_refl 64) gathered).1, pins_zero, Set.empty_union]
        ext p
        simp [tablePins]
      · rw [(gather_pins (Nat.le_refl 64) gathered).1, pins_zero, Set.empty_union]
        exact fun p hp => ((gather_pins (Nat.le_refl 64) gathered).2 p hp).2

theorem canClaim_rule (mask : BitVec 64) (function : BitVec 32) (configuration : BitVec 8) :
    Triple (Here d m) (canClaim mask function configuration) (fun _ => Here d m) fun _ => Here d m := by
  refine driver_here (Triple.bind require_here fun _ => Triple.assume fun _ => Triple.bind require_here fun _ => Triple.assume fun _ => ?_)
  exact Triple.each fun p _ => Triple.bind require_here fun _ => Triple.assume fun _ => require_here.mono (fun _ hc => hc) (fun _ _ hc => hc.2)
    fun _ _ hc => hc

theorem column_cells {r : Reg} {s t : Set ℕ} (sub : s ⊆ t) (valid : s ⊆ pins d.valid) : column r s ⊆ d.cells t := by
  rintro (⟨u, q⟩ | x | q) inside
  · exact ⟨q, sub inside.2, valid inside.2, rfl⟩
  · exact inside.elim
  · exact inside.elim

theorem levels_cells {s : Set ℕ} (valid : s ⊆ pins d.valid) : levels d.aon s ⊆ d.cells s := by
  rintro x ⟨p, hp, rfl⟩
  exact ⟨p, hp, valid hp, seen_own (levelCell_seen _ _ _)⟩

theorem Booted.of (h : Booted revision aon m₀ d) {d' : Driver} (sameRevision : d'.revision = d.revision) (sameAon : d'.aon = d.aon) (valid : d'.valid = d.valid)
    (boot : d'.boot = d.boot) : Booted revision aon m₀ d' := by
  refine ⟨?_, ?_, fun p => ?_⟩
  · rw [sameRevision, sameAon]
    exact h.controller
  · rw [valid, sameRevision, sameAon]
    exact h.valid
  · have fields : d'.fields p = d.fields p := by rw [Driver.fields, sameRevision, sameAon, Driver.fields]
    rw [boot, fields, sameAon]
    exact h.boot p

/-! ### Connecting -/

/-- Pins were taken for input and output. -/
def Taken (d : Driver) (m : Machine) (mask : BitVec 64) (c : Context) : Prop :=
  ∃ t, c.driver = { d.remember t with ioOwned := d.ioOwned ||| mask } ∧ pins d.touched ∪ pins mask ⊆ pins t ∧
    Only (d.cells (pins mask)) m c.machine

theorem bcmConnect_answers (inv : Inv revision aon m₀ d) (q : IoPins) : Answers revision aon m₀ d m (.connect q) := by
  refine Triple.bind (inv.check (bcmMask_rule _ _)) fun mask => Triple.assume fun ⟨table, valid⟩ => ?_
  refine Triple.bind (inv.check require_here) fun _ => Triple.assume fun _ => Triple.bind (inv.check (canClaim_rule _ _ _)) fun _ => ?_
  refine driver_here (Triple.bind (inv.check require_here) fun _ => Triple.assume fun ⟨free, quiet⟩ => ?_)
  refine Triple.bind (configureAll_rule inv.booted mask valid _ _ _) fun _ => ?_
  refine Triple.bind (Q := fun _ => Taken d m mask) (Triple.modify fun c hc => ?_) fun _ => ?_
  · obtain ⟨t, same, known, only⟩ := hc
    exact ⟨t, by rw [same]; rfl, known, only⟩
  rw [and_eq_zero, pins_or, Set.disjoint_union_right] at free
  rw [Request.pins, ← table]
  refine Triple.when (P := Taken d m mask) (fun output => Triple.modify fun c hc => ?_) fun c hc _ => ?_
  · obtain ⟨t, same, known, only⟩ := hc
    refine ⟨⟨⟨?_, ?_⟩, only⟩, nofun⟩
    · rw [same]
      exact inv.booted.of rfl rfl rfl rfl
    · have taken := (inv.sound.takeOutput free.2 (and_eq_zero.mp (quiet output))).remember (t := pins t)
        fun p hp => known ((inv.sound.takeOutput free.2 (and_eq_zero.mp (quiet output))).touched hp)
      rw [same]
      simpa only [owners, Owners.takeOutput, pins_or, Driver.remember] using taken
  · obtain ⟨t, same, known, only⟩ := hc
    refine ⟨⟨⟨?_, ?_⟩, only⟩, nofun⟩
    · rw [same]
      exact inv.booted.of rfl rfl rfl rfl
    · have taken := (inv.sound.takeIo free.2).remember (t := pins t) fun p hp => known ((inv.sound.takeIo free.2).touched hp)
      rw [same]
      simpa only [owners, Owners.takeIo, pins_or, Driver.remember] using taken

theorem bcmConnectFunction_answers (inv : Inv revision aon m₀ d) (q : FunctionPins) : Answers revision aon m₀ d m (.connectFunction q) := by
  refine Triple.bind (inv.check (bcmMask_rule _ _)) fun mask => Triple.assume fun ⟨table, valid⟩ => ?_
  refine Triple.bind (inv.check require_here) fun _ => Triple.assume fun _ => Triple.bind (inv.check (canClaim_rule _ _ _)) fun _ => ?_
  refine driver_here (Triple.bind (inv.check require_here) fun _ => Triple.assume fun free => ?_)
  refine Triple.bind (configureAll_rule inv.booted mask valid _ _ _) fun _ => Triple.modify fun c hc => ?_
  obtain ⟨t, same, known, only⟩ := hc
  rw [and_eq_zero, pins_or, pins_or, Set.disjoint_union_right] at free
  rw [Request.pins, ← table]
  refine ⟨⟨⟨?_, ?_⟩, only⟩, nofun⟩
  · rw [same]
    exact inv.booted.of rfl rfl rfl rfl
  · have taken := (inv.sound.takeFunction free.1).remember (t := pins t) fun p hp => known ((inv.sound.takeFunction free.1).touched hp)
    rw [same]
    simpa only [owners, Owners.takeFunction, pins_or, Driver.remember] using taken

/-! ### Disconnecting -/

/-- Pins without an owner are put back, or the firmware has failed. -/
theorem leave_rule (d e : Driver) {m' : Machine} (booted : Booted revision aon m₀ e) (sound : (owners e).Sound)
    (cells : e.cells = d.cells) (valids : e.valid = d.valid) (valid : pins mask ⊆ pins e.valid) (only : Only (d.cells (pins mask)) m m')
    (fields : ∀ m p, Restored e m₀ m p → Restored d m₀ m p) :
    Triple (Here e m') (restoreFree mask) (fun _ c => Kept revision aon m₀ d m (pins mask) c ∧ Returned m₀ d (pins mask) c)
      fun x c => Kept revision aon m₀ d m (pins mask) c ∧ x.Firmware ∧ e.aon = true := by
  have kept (c : Context) (freed : Freed e m' (pins mask) (e.free mask) c) : Kept revision aon m₀ d m (pins mask) c := by
    obtain ⟨t, same, known, changed⟩ := freed
    refine ⟨⟨?_, ?_⟩, only.trans (cells ▸ changed)⟩
    · rw [same]
      exact booted.of rfl rfl rfl rfl
    · have remembered := sound.remember (t := pins t) fun p hp => known ⟨sound.touched hp, fun free => free.2 ?_⟩
      · rw [same]
        exact remembered
      · rw [pins_or, pins_or]
        exact hp
  refine (restoreFree_rule booted mask valid).mono (fun _ hc => hc) (fun _ c hc => ⟨kept c hc.1, fun p hp unowned => ?_⟩) fun _ c hc =>
    ⟨kept c hc.1, hc.2⟩
  refine ⟨valids ▸ valid hp, fields _ p (hc.2 p ⟨hp, fun owned => unowned ?_⟩)⟩
  obtain ⟨⟨t, same, -, -⟩, -⟩ := hc
  rw [same]
  rw [pins_or, pins_or] at owned
  exact owned

theorem bcmDisconnect_answers (inv : Inv revision aon m₀ d) (bank : ℕ) (table : Option (List ℕ)) (preserve : Bool) :
    Answers revision aon m₀ d m (.disconnect bank table preserve) := by
  refine Triple.bind (inv.check (bcmMask_rule _ _)) fun mask => Triple.assume fun ⟨listed, valid⟩ => ?_
  refine Triple.bind (set_here _) fun _ => ?_
  have booted : Booted revision aon m₀ { d with ioOwned := d.ioOwned &&& ~~~mask, outputOwned := d.outputOwned &&& ~~~mask } :=
    inv.booted.of rfl rfl rfl rfl
  have sound : (owners { d with ioOwned := d.ioOwned &&& ~~~mask, outputOwned := d.outputOwned &&& ~~~mask }).Sound := by
    have left := inv.sound.leaveIo (s := pins mask)
    simpa only [owners, Owners.leaveIo, pins_and_not] using left
  rw [Request.pins, ← listed]
  refine Triple.when (fun _ => ?_) fun c hc keep => ⟨?_, fun leaves => absurd ?_ keep⟩
  · exact (leave_rule d { d with ioOwned := d.ioOwned &&& ~~~mask, outputOwned := d.outputOwned &&& ~~~mask } booted sound rfl rfl valid (.refl _ _) fun _ _ h => h).mono (fun _ hc => hc) (fun _ _ hc => ⟨hc.1, fun _ => hc.2⟩)
      fun _ _ hc => ⟨hc.1, .inr ⟨hc.2, rfl⟩⟩
  · obtain ⟨same, rfl⟩ := hc
    exact ⟨⟨same ▸ booted, same ▸ sound⟩, .refl _ _⟩
  · simpa [Request.leaves] using leaves

theorem bcmDisconnectFunction_answers (inv : Inv revision aon m₀ d) (bank : ℕ) (table : Option (List ℕ)) :
    Answers revision aon m₀ d m (.disconnectFunction bank table) := by
  refine Triple.bind (inv.check (bcmMask_rule _ _)) fun mask => Triple.assume fun ⟨listed, valid⟩ => ?_
  refine Triple.bind (set_here _) fun _ => ?_
  have sound : (owners { d with functionOwned := d.functionOwned &&& ~~~mask }).Sound := by
    have left := inv.sound.leaveFunction (s := pins mask)
    simpa only [owners, Owners.leaveFunction, pins_and_not] using left
  rw [Request.pins, ← listed]
  exact (leave_rule d { d with functionOwned := d.functionOwned &&& ~~~mask } (inv.booted.of rfl rfl rfl rfl) sound rfl rfl valid (.refl _ _) fun _ _ h => h).mono (fun _ hc => hc)
    (fun _ _ hc => ⟨hc.1, fun _ => hc.2⟩) fun _ _ hc => ⟨hc.1, .inr ⟨hc.2, rfl⟩⟩

/-! ### Interrupts -/

theorem maskBits_only (valid : pins mask ⊆ pins d.valid) (value : BitVec 64) (m : Machine) :
    Only (d.cells (pins mask)) m (m.update .mask mask value) :=
  (update_only m mask value (by decide)).mono (column_cells Set.Subset.rfl valid)

theorem bcmDisableInterrupt_answers (inv : Inv revision aon m₀ d) (bank pin : ℕ) : Answers revision aon m₀ d m (.disableInterrupt bank pin) := by
  refine driver_here (Triple.bind (inv.check require_here) fun _ => Triple.assume fun main => ?_)
  refine Triple.bind (inv.check (bcmMask_rule _ _)) fun mask => Triple.assume fun ⟨listed, valid⟩ => ?_
  refine Triple.bind (hw_here _) fun _ => Triple.bind (set_here _) fun _ => ?_
  have sound : (owners { d with irqOwned := d.irqOwned &&& ~~~mask }).Sound := by
    have left := inv.sound.leaveIrq (s := pins mask)
    simpa only [owners, Owners.leaveIrq, pins_and_not] using left
  rw [Request.pins, ← tablePins_single, ← listed]
  refine (leave_rule d { d with irqOwned := d.irqOwned &&& ~~~mask } (inv.booted.of rfl rfl rfl rfl) sound rfl rfl valid (maskBits_only valid 0 m) fun _ _ h => h).mono (fun _ hc => hc)
    (fun _ _ hc => ⟨hc.1, fun _ => hc.2⟩) fun _ _ hc => ?_
  exact absurd (main.symm.trans hc.2.2) Bool.false_ne_true

/-- A pin is being prepared for interrupts. -/
def Preparing (d : Driver) (m : Machine) (p : ℕ) (c : Context) : Prop := c.driver = d ∧ Only (d.cells {p}) m c.machine

theorem bcmTrigger_rule (low : p < 64) (valid : p ∈ pins d.valid) (mode : Mode) (polarity : Polarity) :
    Triple (Here d m) (bcmTrigger p mode polarity) (fun _ => Preparing d m p) fun _ => Here d m := by
  have bit (r : Reg) (hr : r ≠ .status) (v : Bool) : Triple (Preparing d m p) (put r p v) (fun _ => Preparing d m p) fun _ => Here d m := by
    refine Triple.modify fun c hc => ⟨hc.1, hc.2.trans ((put_only r hr v p c.machine).mono ?_)⟩
    rw [pins_pinBit low]
    exact column_cells Set.Subset.rfl (Set.singleton_subset_iff.mpr valid)
  refine Triple.bind (Q := fun _ => Preparing d m p) (Triple.require (fun _ hc _ => ⟨hc.1, hc.2 ▸ .refl _ _⟩) fun _ hc _ => hc) fun _ => ?_
  exact Triple.bind (bit .edge (by decide) _) fun _ => Triple.bind (bit .both (by decide) _) fun _ => bit .level (by decide) _

theorem bcmEnableInterrupt_answers (inv : Inv revision aon m₀ d) (q : IrqPin) : Answers revision aon m₀ d m (.enableInterrupt q) := by
  refine driver_here (Triple.bind (inv.check require_here) fun _ => Triple.assume fun _ => ?_)
  refine Triple.bind (inv.check (bcmMask_rule _ _)) fun mask => Triple.assume fun ⟨listed, valid⟩ => ?_
  refine Triple.bind (inv.check require_here) fun _ => Triple.assume fun _ => Triple.bind (inv.check (canClaim_rule _ _ _)) fun _ => ?_
  refine driver_here (Triple.bind (inv.check require_here) fun _ => Triple.assume fun free => ?_)
  rw [tablePins_single] at listed
  have known : q.pin ∈ pins d.valid := valid (listed ▸ Set.mem_singleton q.pin)
  have low := (inv.booted.fields known).1
  have bit : (pinBit q.pin : BitVec 64) = mask := by
    refine BitVec.eq_of_getLsbD_eq fun p _ => Bool.eq_iff_iff.mpr ?_
    rw [← mem_pins, ← mem_pins, pins_pinBit low, listed]
  rw [Request.pins]
  refine Triple.bind (inv.check (bcmTrigger_rule low known _ _)) fun _ => ?_
  refine Triple.bind (Q := fun _ => Preparing (d.remember (d.touched ||| mask)) m q.pin) (fun c hc => ?_) fun _ => ?_
  · refine (bcmConfigure_rule (m := c.machine) inv.booted known 0 false q.pull).mono (fun _ hc => hc) (fun _ c' hc' => ?_)
      (fun _ _ hc => hc) (s := c) ⟨hc.1, rfl⟩
    refine ⟨bit ▸ hc'.1, hc.2.trans (hc'.2.mono (own_cells known rfl))⟩
  have column {r : Reg} : column r (pins mask) ⊆ d.cells {q.pin} := column_cells (listed ▸ Set.Subset.rfl) valid
  refine Triple.bind (Q := fun _ => Preparing (d.remember (d.touched ||| mask)) m q.pin) (Triple.modify fun c hc => ?_) fun _ => ?_
  · exact ⟨hc.1, hc.2.trans ((clearStatus_only c.machine _ mask).mono column)⟩
  refine Triple.bind (Q := fun _ c => c.driver = { d.remember (d.touched ||| mask) with irqOwned := d.irqOwned ||| mask } ∧
    Only (d.cells {q.pin}) m c.machine) (Triple.modify fun c hc => ?_) fun _ => Triple.modify fun c hc => ?_
  · exact ⟨by rw [hc.1]; rfl, hc.2⟩
  rw [and_eq_zero, pins_or, pins_or, Set.disjoint_union_right, Set.disjoint_union_right] at free
  refine ⟨⟨⟨?_, ?_⟩, hc.2.trans ((update_only c.machine mask mask (by decide)).mono column)⟩, nofun⟩
  · change Booted revision aon m₀ c.driver
    rw [hc.1]
    exact inv.booted.of rfl rfl rfl rfl
  · have taken := inv.sound.takeIrq free.1.1 free.1.2
    change (owners c.driver).Sound
    rw [hc.1]
    simpa only [owners, Owners.takeIrq, pins_or, Driver.remember] using taken

theorem bcmMaskInterrupts_answers (inv : Inv revision aon m₀ d) (bank : ℕ) (mask : BitVec 64) : Answers revision aon m₀ d m (.maskInterrupts bank mask) := by
  refine driver_here (Triple.bind (inv.check require_here) fun _ => Triple.assume fun ⟨_, _, known⟩ => Triple.modify fun c hc => ?_)
  obtain ⟨rfl, rfl⟩ := hc
  exact ⟨⟨inv, maskBits_only (and_not_eq_zero.mp known) 0 _⟩, nofun⟩

theorem bcmUnmaskInterrupt_answers (inv : Inv revision aon m₀ d) (bank pin : ℕ) : Answers revision aon m₀ d m (.unmaskInterrupt bank pin) := by
  refine driver_here (Triple.bind (inv.check require_here) fun _ => Triple.assume fun _ => ?_)
  refine Triple.bind (inv.check (bcmMask_rule _ _)) fun mask => Triple.assume fun ⟨listed, valid⟩ => Triple.modify fun c hc => ?_
  obtain ⟨rfl, rfl⟩ := hc
  rw [Request.pins, ← tablePins_single, ← listed]
  exact ⟨⟨inv, maskBits_only valid mask _⟩, nofun⟩

theorem bcmClearInterrupts_answers (inv : Inv revision aon m₀ d) (bank : ℕ) (mask : BitVec 64) : Answers revision aon m₀ d m (.clearInterrupts bank mask) := by
  refine driver_here (Triple.bind (inv.check require_here) fun _ => Triple.assume fun ⟨_, _, known⟩ => ?_)
  refine Triple.bind (hw_here _) fun _ => Triple.modify fun c hc => ⟨⟨?_, ?_⟩, nofun⟩
  · change Inv revision aon m₀ c.driver
    rw [hc.1]
    exact inv
  · rw [hc.2]
    exact ((clearStatus_only m 0 mask).trans (clearStatus_only _ 1 mask)).mono (column_cells Set.Subset.rfl (and_not_eq_zero.mp known))

/-! ### Levels -/

theorem bcmWritePins_answers (inv : Inv revision aon m₀ d) (bank : ℕ) (toSet toClear : BitVec 64) : Answers revision aon m₀ d m (.writePins bank toSet toClear) := by
  refine driver_here (Triple.bind (inv.check require_here) fun _ => Triple.assume fun _ => ?_)
  have cells (writable : Writable d toSet toClear) : levels d.aon (pins (toSet ||| toClear)) ⊆ d.cells (pins (toSet ||| toClear)) :=
    levels_cells (and_not_eq_zero.mp writable.1)
  refine (bcmWriteData_rule toSet toClear).mono (fun _ hc => hc) (fun _ c hc => ?_) fun e c hc => ?_
  · obtain ⟨writable, rfl, only, -⟩ := hc
    exact ⟨⟨inv, only.mono (cells writable)⟩, nofun⟩
  · obtain ⟨refused, only, ⟨-, writable⟩ | ⟨-, same⟩⟩ := hc
    · exact ⟨⟨refused.driver ▸ inv, only.mono (cells writable)⟩, .inl refused⟩
    · exact ⟨⟨refused.driver ▸ inv, same ▸ .refl _ _⟩, .inl refused⟩

theorem asked_read (m : Machine) : ∀ v, (m.asked 0 v).cell = m.cell := by
  intro v
  funext x
  rcases x with ⟨s, p⟩ | x | p
  · rfl
  · rfl
  · refine (asked_aml m 0 v p).trans (if_neg ?_)
    simp

theorem bcmReadPins_answers (inv : Inv revision aon m₀ d) (bank : ℕ) : Answers revision aon m₀ d m (.readPins bank) := by
  have only (v : BitVec 32) : Only (d.cells ∅) m (m.asked 0 v) := fun x _ => congrFun (asked_read m v) x
  refine Triple.bind (Q := fun _ c => Kept revision aon m₀ d m ∅ c) ?_ fun _ => Triple.pure fun _ hc => ⟨hc, nofun⟩
  refine driver_here (Triple.bind (inv.check require_here) fun _ => Triple.assume fun _ => ?_)
  refine Triple.bind (Q := fun _ c => Kept revision aon m₀ d m ∅ c) ?_ fun _ => Triple.pure fun _ hc => hc
  have last (low : BitVec 32) : Triple (Kept revision aon m₀ d m ∅) (do
      let m ← machine
      pure (m.gio 1 .data ++ low)) (fun _ c => Kept revision aon m₀ d m ∅ c) fun e c =>
        Kept revision aon m₀ d m ∅ c ∧ (Refused d m e c ∨ (e.Firmware ∧ d.aon = true) ∧ (Request.readPins bank).disconnects = true) :=
    fun _ hc => hc
  refine driver_here (machine_here (Triple.ite (fun always => ?_) fun _ => Triple.bind (Triple.pure fun _ hc => inv.kept hc) last))
  refine Triple.bind (Q := fun _ c => Kept revision aon m₀ d m ∅ c) ?_ last
  refine (bcmBroker_rule 0 0 ⟨always, by simp⟩).mono (fun _ hc => hc) (fun _ c hc => ?_) fun e c hc => ?_
  · exact ⟨hc.1 ▸ inv, hc.2 ▸ only 0⟩
  · obtain ⟨firmware, torn, same, after⟩ := hc
    refine ⟨⟨same ▸ inv, after ▸ only torn⟩, .inl ⟨same, ?_, ?_, ?_, .inl ⟨firmware, always⟩⟩⟩
    all_goals
      rw [after]
      rfl

theorem bcmQueryInterrupts_answers (inv : Inv revision aon m₀ d) (bank : ℕ) (enabled : BitVec 64) : Answers revision aon m₀ d m (.queryInterrupts bank enabled) := by
  refine Triple.bind (Q := fun _ => Here d m) ?_ fun _ => Triple.pure fun _ hc => ⟨inv.kept hc, nofun⟩
  refine driver_here (Triple.bind (inv.check require_here) fun _ => Triple.assume fun _ => ?_)
  exact machine_here (Triple.pure fun _ hc => hc)

theorem bcmQueryEnabled_answers (inv : Inv revision aon m₀ d) (bank : ℕ) : Answers revision aon m₀ d m (.queryEnabled bank) := by
  refine Triple.bind (Q := fun _ => Here d m) ?_ fun _ => Triple.pure fun _ hc => ⟨inv.kept hc, nofun⟩
  refine driver_here (Triple.bind (inv.check require_here) fun _ => Triple.assume fun _ => ?_)
  exact machine_here (Triple.pure fun _ hc => hc)

theorem serve_answers (inv : Inv revision aon m₀ d) (r : Request) : Answers revision aon m₀ d m r := by
  cases r with
  | connect q => exact bcmConnect_answers inv q
  | disconnect bank table preserve => exact bcmDisconnect_answers inv bank table preserve
  | readPins bank => exact bcmReadPins_answers inv bank
  | writePins bank toSet toClear => exact bcmWritePins_answers inv bank toSet toClear
  | enableInterrupt q => exact bcmEnableInterrupt_answers inv q
  | disableInterrupt bank pin => exact bcmDisableInterrupt_answers inv bank pin
  | maskInterrupts bank mask => exact bcmMaskInterrupts_answers inv bank mask
  | unmaskInterrupt bank pin => exact bcmUnmaskInterrupt_answers inv bank pin
  | queryInterrupts bank enabled => exact bcmQueryInterrupts_answers inv bank enabled
  | queryEnabled bank => exact bcmQueryEnabled_answers inv bank
  | clearInterrupts bank mask => exact bcmClearInterrupts_answers inv bank mask
  | connectFunction q => exact bcmConnectFunction_answers inv q
  | disconnectFunction bank table => exact bcmDisconnectFunction_answers inv bank table

end Pi5Drivers.BcmGpio
