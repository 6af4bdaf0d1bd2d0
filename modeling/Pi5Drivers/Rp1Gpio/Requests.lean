import Pi5Drivers.Lib.Ownership
import Pi5Drivers.Rp1Gpio.Driver
import Pi5Drivers.Rp1Gpio.Pins

/-! The requests. A request that is refused has changed nothing. One that is not changes no bit of a pin
that is not its own, keeps the owners that pins may have, and does not let go of an output that is driven
before and after it. -/

namespace Pi5Drivers.Rp1Gpio

open Effect GpioClx

def owners (d : Driver) : Owners ℕ := ⟨pins d.ioOwned, pins d.outputOwned, pins d.irqOwned, pins d.functionOwned, pins d.touched⟩

/-- A state that some registers give to a pin. -/
def Saved (s : PinState) (p : ℕ) : Prop := ∃ r, s = gpioSnapshot r p

/-- What holds between requests of a driver that has prepared over some registers. -/
structure Inv (r₀ : Regs) (d : Driver) : Prop where
  boot : ∀ p ∈ pins rp1AllowedMask, d.boot p = gpioSnapshot r₀ p
  resume : ∀ p, Saved (d.resume p) p
  resumed : pins d.resumeInte ⊆ pins rp1AllowedMask
  known : pins d.touched ⊆ pins rp1AllowedMask
  sound : (owners d).Sound

namespace Request

/-- The pins of a request. -/
def pins (d : Driver) : Request → Set ℕ
  | .start restore _ => if restore = true then Pi5Drivers.pins d.touched ∪ Pi5Drivers.pins d.resumeInte else ∅
  | .stop _ => Pi5Drivers.pins d.touched
  | .connect p => tablePins p.table
  | .disconnect _ table _ => tablePins table
  | .writePins _ toSet toClear => Pi5Drivers.pins (toSet ||| toClear)
  | .enableInterrupt p => {p.pin}
  | .disableInterrupt _ pin => {pin}
  | .maskInterrupts _ mask => Pi5Drivers.pins (mask.setWidth 32 &&& rp1HeaderMask)
  | .unmaskInterrupt _ pin => {pin}
  | .clearInterrupts _ mask => { p | p ∈ pinsFrom 2 rp1HeaderPins mask }
  | .reconfigureInterrupt _ pin _ _ => {pin}
  | .connectFunction p => tablePins p.table
  | .disconnectFunction _ table => tablePins table
  | .readPins _ _ | .queryInterrupts _ _ | .queryEnabled _ => ∅

/-- An owner leaves, and its pins need not stay as they are. -/
def leaves : Request → Bool
  | .disconnect _ _ preserve => !preserve
  | .disableInterrupt _ _ | .disconnectFunction _ _ => true
  | _ => false

def stops : Request → Bool
  | .stop _ => true
  | _ => false

end Request

/-- The bits of the pins that there are. -/
def cells (s : Set ℕ) : Set Cell := { x | ∃ p ∈ s, p ∈ pins rp1AllowedMask ∧ x ∈ own p }

variable {r₀ : Regs} {d : Driver} {c c' : Context} {s t : Set ℕ} {S : Set Cell} {p q : ℕ} {α : Type} {Q : α → Context → Prop}
  {E : Status → Context → Prop}

/-- What a request has kept. -/
structure Kept (r₀ : Regs) (c : Context) (s : Set ℕ) (c' : Context) : Prop where
  inv : Inv r₀ c'.driver
  within : Within (cells s) c.machine c'.machine
  steady : ∀ p ∈ pins rp1BoardMask, c.machine.Steady (Live p) c'.machine

/-- The pins that nobody has any more are as they were at first. -/
def Returned (r₀ : Regs) (s : Set ℕ) (c : Context) : Prop :=
  ∀ p ∈ s, p ∉ (owners c.driver).owned → gpioSnapshot c.machine.now p = gpioSnapshot r₀ p

/-- How a request may end. -/
def Answers (r₀ : Regs) (c : Context) (r : Request) : Prop :=
  Triple (· = c) (serve r)
    (fun _ c' => Kept r₀ c (r.pins c.driver) c' ∧ (r.leaves = true → Returned r₀ (r.pins c.driver) c') ∧
      (r.stops = true → ∀ p ∈ pins c.driver.touched, gpioSnapshot c'.machine.now p = gpioSnapshot r₀ p))
    fun _ c' => c' = c

/-! ### Rules -/

theorem here_get {f : Context → Drive α} (h : Triple (· = c) (f c) Q E) : Triple (· = c) (get >>= f) Q E :=
  Triple.get_bind fun _ hs => hs ▸ h

theorem here_set {Q : Unit → Context → Prop} {f : Driver → Driver} (h : Q () { c with driver := f c.driver }) : Triple (· = c) (set f) Q E :=
  Triple.modify fun _ hs => hs ▸ h

theorem here_hw {Q : Unit → Context → Prop} {f : Machine → Machine} (h : Q () { c with machine := f c.machine }) :
    Triple (· = c) (hw f) Q E :=
  Triple.modify fun _ hs => hs ▸ h

/-- A check, before anything is changed. -/
theorem here_require {x : Prop} [Decidable x] {e : Status} {f : Unit → Drive α} (h : x → Triple (· = c) (f ()) Q fun _ c' => c' = c) :
    Triple (· = c) (require x e >>= f) Q fun _ c' => c' = c :=
  Triple.bind (Q := fun _ c' => x ∧ c' = c) (Triple.require (fun _ hs yes => ⟨yes, hs⟩) fun _ hs _ => hs) fun _ => Triple.assume h

/-! ### Pins -/

theorem allowed_bounds : ∀ p < 64, rp1AllowedMask.getLsbD p = true → 2 ≤ p ∧ p < rp1TotalPins := by decide

theorem board_bounds : ∀ p < 64, rp1BoardMask.getLsbD p = true → rp1HeaderPins ≤ p ∧ p < rp1TotalPins := by decide

theorem header_bounds : ∀ p < 64, rp1AllowedMask.getLsbD p = true → rp1BoardMask.getLsbD p = false → p < rp1HeaderPins := by decide

theorem header_allowed : ∀ p < rp1HeaderPins, 2 ≤ p → rp1AllowedMask.getLsbD p = true := by decide

theorem allowed_lt (h : p ∈ pins rp1AllowedMask) : 2 ≤ p ∧ p < 54 := allowed_bounds p (lt_of_mem_pins h) h

theorem board_lt (h : p ∈ pins rp1BoardMask) : rp1HeaderPins ≤ p ∧ p < 54 := board_bounds p (lt_of_mem_pins h) h

theorem mem_listed {mask : BitVec 64} (known : pins mask ⊆ pins rp1AllowedMask) : p ∈ listed mask ↔ p ∈ pins mask := by
  rw [listed, mem_pinsFrom]
  exact ⟨fun h => h.2, fun h => ⟨allowed_lt (known h), h⟩⟩

theorem seen_cells (hs : p ∈ s) (hp : p ∈ pins rp1AllowedMask) : seen p ⊆ cells s := fun _ hx => ⟨p, hs, hp, .inl hx⟩

theorem enables_cells (sub : t ⊆ s) (known : t ⊆ pins rp1AllowedMask) : enables t ⊆ cells s := by
  rintro x ⟨p, hp, rfl⟩
  exact ⟨p, sub hp, known hp, .inr rfl⟩

theorem levels_cells (known : s ⊆ pins rp1AllowedMask) : levels s ⊆ cells s := by
  rintro x ⟨p, hp, rfl⟩
  exact ⟨p, hp, known hp, .inl (.inr rfl)⟩

/-- Interrupt enables have nothing to do with outputs. -/
theorem watched_enables (hp : p < 54) : ∀ x ∈ watched p, x ∉ enables s := by
  rintro x hx ⟨q, -, rfl⟩
  exact enableCell_watched q p hp hx

theorem watched_levels : ∀ x ∈ watched p, x ∉ levels s := by
  rintro x hx ⟨q, -, rfl⟩
  exact levelCell_watched q p hx

/-- The bits of other pins. -/
theorem watched_cells (hp : p < 54) (other : p ∉ s) : ∀ x ∈ watched p, x ∉ cells s := by
  rintro x hx ⟨q, hq, known, mine⟩
  exact seen_disjoint hp (allowed_lt known).2 (fun same => other (same ▸ hq)) x (.inl hx) mine

/-! ### Loops over pins -/

section Loops

variable {states : ℕ → PinState} {l : List ℕ} {boot : ℕ → PinState} {interrupts : ℕ → Bool} {function : BitVec 32} {output : Bool}
  {configuration : BitVec 8} {strength : ℕ}

theorem rounds_within {g : ℕ → Machine → Machine} (low : ∀ p ∈ l, p ∈ s ∧ p ∈ pins rp1AllowedMask)
    (h : ∀ p < 54, ∀ m, Within (seen p) m (g p m)) (m : Machine) : Within (cells s) m (m.rounds g l) :=
  Journal.Passed.rounds (R := Only _) (Only.refl _) Only.trans
    (fun p hp j => (h p (allowed_lt (low p hp).2).2 j).mono (seen_cells (low p hp).1 (low p hp).2)) m

theorem rounds_steady {g : ℕ → Machine → Machine} (low : ∀ p ∈ l, p < 54) (once : l.Nodup) (h : ∀ p < 54, ∀ m, Within (seen p) m (g p m))
    (hq : q < 54) (own : q ∈ l → ∀ m : Machine, m.Steady (Live q) (g q m)) (m : Machine) : m.Steady (Live q) (m.rounds g l) :=
  Journal.Steady.rounds (Q := Live) (fun p hp ne j => (h p (low p hp) j).live hq fun x hx other =>
    seen_disjoint hq (low p hp) ne.symm x (.inl hx) (.inl other)) own once m

/-- Pins that are restored one after the other are all restored. -/
theorem restored_rounds (low : ∀ p ∈ l, p < 54) (saved : ∀ p ∈ l, Saved (states p) p) (hq : q ∈ l) (m : Machine) :
    gpioSnapshot (m.rounds (fun pin => gpioRestore (states pin) pin) l).now q = states q := by
  have own (p : ℕ) (hp : p ∈ l) (j : Machine) : gpioSnapshot (gpioRestore (states p) p j).now p = states p := by
    obtain ⟨r, state⟩ := saved p hp
    rw [state]
    exact gpioRestore_snapshot (low p hp) r j
  refine Journal.establish_rounds (g := fun pin => gpioRestore (states pin) pin) (q := fun r => gpioSnapshot r q = states q) hq
    (fun j => own q hq j) (fun p hp j same => ?_) m
  by_cases here : p = q
  · rw [← here]
    exact own p hp j
  · rw [← same]
    exact (gpioRestore_within (low p hp) (states p) j).snapshot (low q hq) fun x hx other =>
      seen_disjoint (low q hq) (low p hp) (Ne.symm here) x hx (.inl other)

theorem restored_steady (low : ∀ p ∈ l, p < 54) (once : l.Nodup) (saved : ∀ p ∈ l, Saved (states p) p) (board : q ∈ pins rp1BoardMask)
    (m : Machine) : m.Steady (Live q) (m.rounds (fun pin => gpioRestore (states pin) pin) l) := by
  obtain ⟨high, hq⟩ := board_lt board
  refine rounds_steady low once (fun p hp m => gpioRestore_within hp (states p) m) hq (fun mem j => ?_) m
  obtain ⟨r, state⟩ := saved q mem
  rw [state]
  exact gpioRestore_steady hq high r j

end Loops

/-- Apart from the pins that are remembered, the driver is as it was. -/
def Driver.remember (d : Driver) (t : BitVec 64) : Driver := { d with touched := t }

def Driver.interrupts (d : Driver) (p : ℕ) : Bool := decide (d.irqOwned.setWidth 64 &&& pinBit p ≠ 0)

theorem gpioConfigure_run (function : BitVec 32) (output : Bool) (configuration : BitVec 8) (strength pin : ℕ) (c : Context) :
    (gpioConfigure function output configuration strength pin).run c = (.ok (), ⟨c.driver.remember (c.driver.touched ||| pinBit pin),
      configure c.driver.boot c.driver.interrupts function output configuration strength pin c.machine⟩) := rfl

theorem each_configure (function : BitVec 32) (output : Bool) (configuration : BitVec 8) (strength : ℕ) (l : List ℕ) (c : Context) :
    (each (gpioConfigure function output configuration strength) l).run c = (.ok (),
      ⟨c.driver.remember (l.foldl (fun t p => t ||| pinBit p) c.driver.touched),
        c.machine.rounds (configure c.driver.boot c.driver.interrupts function output configuration strength) l⟩) := by
  induction l generalizing c with
  | nil => rfl
  | cons p l ih => exact (run_bind_ok rfl).trans (ih _)

theorem pins_claimed {l : List ℕ} (low : ∀ p ∈ l, p < 64) (t : BitVec 64) :
    pins (l.foldl (fun t p => t ||| pinBit p) t) = pins t ∪ { p | p ∈ l } := by
  induction l generalizing t with
  | nil => simp
  | cons p l ih =>
    rw [List.foldl_cons, ih (fun q hq => low q (List.mem_cons_of_mem p hq)), pins_or, pins_pinBit (low p List.mem_cons_self)]
    ext q
    simp only [Set.mem_union, Set.mem_singleton_iff, Set.mem_ofPred_eq, List.mem_cons, or_assoc]

/-- The pins of a mask that nobody owns. -/
def Driver.unowned (d : Driver) (mask : BitVec 64) : List ℕ :=
  listed (mask &&& ~~~(d.ioOwned ||| d.irqOwned.setWidth 64 ||| d.functionOwned))

theorem restoreUnowned_run (mask : BitVec 64) (c : Context) : (restoreUnowned mask).run c = (.ok (),
    ⟨c.driver.remember ((c.driver.unowned mask).foldl (fun t p => t &&& ~~~pinBit p) c.driver.touched),
      c.machine.rounds (fun pin => gpioRestore (c.driver.boot pin) pin) (c.driver.unowned mask)⟩) := by
  have all (boot : ℕ → PinState) (l : List ℕ) (c : Context) : (each (fun pin => do
      hw (gpioRestore (boot pin) pin)
      set fun d => { d with touched := d.touched &&& ~~~pinBit pin }) l).run c = (.ok (),
        ⟨c.driver.remember (l.foldl (fun t p => t &&& ~~~pinBit p) c.driver.touched),
          c.machine.rounds (fun pin => gpioRestore (boot pin) pin) l⟩) := by
    induction l generalizing c with
    | nil => rfl
    | cons p l ih => exact (run_bind_ok rfl).trans (ih _)
  exact (run_bind_ok rfl).trans (all c.driver.boot _ c)

theorem pins_restored {l : List ℕ} (low : ∀ p ∈ l, p < 64) (t : BitVec 64) :
    pins (l.foldl (fun t p => t &&& ~~~pinBit p) t) = pins t \ { p | p ∈ l } := by
  induction l generalizing t with
  | nil => simp
  | cons p l ih =>
    rw [List.foldl_cons, ih (fun q hq => low q (List.mem_cons_of_mem p hq)), pins_and_not, pins_pinBit (low p List.mem_cons_self)]
    ext q
    simp only [Set.mem_sdiff, Set.mem_singleton_iff, Set.mem_ofPred_eq, List.mem_cons, not_or, and_assoc]

/-! ### Checks -/

theorem here_run {x : Drive α} {a : α} (h : x.run c = (.ok a, c')) : Triple (· = c) x (fun _ s => s = c') E := by
  rintro _ rfl
  rw [h]

theorem gpioPinMask_rule (bank : ℕ) (table : Option (List ℕ)) : Triple (· = c) (gpioPinMask bank table)
    (fun mask c' => (pins mask = tablePins table ∧ pins mask ⊆ pins rp1AllowedMask) ∧ c' = c) fun _ c' => c' = c := by
  cases table with
  | none => exact Triple.stop fun _ hs => hs
  | some l =>
    refine here_require fun _ => ?_
    cases gathered : gather rp1TotalPins rp1AllowedMask l 0 with
    | none => exact Triple.stop fun _ hs => hs
    | some mask =>
      obtain ⟨same, all⟩ := gather_pins (by decide) gathered
      rw [pins_zero, Set.empty_union] at same
      refine Triple.pure fun _ hs => ⟨⟨?_, ?_⟩, hs⟩
      · rw [same]
        ext p
        simp [tablePins]
      · rw [same]
        exact fun p hp => (all p hp).2

theorem gpioIrqPinMask_rule (bank pin : ℕ) : Triple (· = c) (gpioIrqPinMask bank pin)
    (fun bit c' => (2 ≤ pin ∧ pin < rp1HeaderPins ∧ bit = pinBit pin) ∧ c' = c) fun _ c' => c' = c :=
  here_require fun ok => Triple.pure fun _ hs => ⟨⟨ok.2.1, ok.2.2, rfl⟩, hs⟩

theorem gpioTrigger_rule (mode : Mode) (polarity : Polarity) :
    Triple (· = c) (gpioTrigger mode polarity) (fun _ c' => c' = c) fun _ c' => c' = c := by
  unfold gpioTrigger
  split <;> first | exact Triple.stop fun _ hs => hs | exact Triple.pure fun _ hs => hs

theorem gpioCanClaim_rule (mask : BitVec 64) : Triple (· = c) (gpioCanClaim mask) (fun _ c' => c' = c) fun _ c' => c' = c :=
  here_get (here_require fun _ => here_require fun _ => Triple.require (fun _ hs _ => hs) fun _ hs _ => hs)

/-! ### What is kept -/

theorem Inv.of (h : Inv r₀ d) {e : Driver} (boot : e.boot = d.boot) (resume : e.resume = d.resume) (resumed : e.resumeInte = d.resumeInte)
    (known : pins e.touched ⊆ pins rp1AllowedMask) (sound : (owners e).Sound) : Inv r₀ e where
  boot := boot ▸ h.boot
  resume := resume ▸ h.resume
  resumed := resumed ▸ h.resumed
  known := known
  sound := sound

/-- Writes that have to do with pins of the header only. -/
theorem Kept.header (inv : Inv r₀ c'.driver) (within : Within (cells s) c.machine c'.machine) (header : ∀ p ∈ s, p < rp1HeaderPins) :
    Kept r₀ c s c' where
  inv := inv
  within := within
  steady := fun p board =>
    (within.live (board_lt board).2 (watched_cells (board_lt board).2 fun mem => Nat.not_le.mpr (header p mem) (board_lt board).1)).steady

theorem Inv.kept (h : Inv r₀ c.driver) : Kept r₀ c s c := ⟨h, .refl _ _, fun _ _ => Journal.Keeps.refl.steady⟩

theorem pins_wide (m : BitVec 32) : pins (m.setWidth 64 : BitVec 64) = pins m := by
  ext p
  have : p ∈ pins m → p < 32 := lt_of_mem_pins
  simp only [mem_pins, BitVec.getLsbD_setWidth, Bool.and_eq_true, decide_eq_true_eq] at this ⊢
  exact ⟨fun h => h.2, fun h => ⟨by have := this h; omega, h⟩⟩

/-! ### Connecting -/

theorem set_listed {mask : BitVec 64} (known : pins mask ⊆ pins rp1AllowedMask) : { p | p ∈ listed mask } = pins mask :=
  Set.ext fun _ => mem_listed known

theorem listed_bounds {mask : BitVec 64} (known : pins mask ⊆ pins rp1AllowedMask) :
    ∀ p ∈ listed mask, p ∈ pins mask ∧ p ∈ pins rp1AllowedMask :=
  fun _ hp => ⟨(mem_listed known).mp hp, known ((mem_listed known).mp hp)⟩

/-- The pins of a table are claimed for input and output. -/
theorem claims_steady {mask : BitVec 64} (known : pins mask ⊆ pins rp1AllowedMask) (boot : ℕ → PinState) (interrupts : ℕ → Bool) (output : Bool)
    (configuration : BitVec 8) (strength : ℕ) (m : Machine) (board : p ∈ pins rp1BoardMask) :
    m.Steady (Live p) (m.rounds (configure boot interrupts 5 output configuration strength) (listed mask)) :=
  rounds_steady (fun q hq => (allowed_lt (listed_bounds known q hq).2).2) (nodup_pinsFrom _ _ _) (fun _ hq => configure_within hq)
    (board_lt board).2 (fun _ => configure_steady (board_lt board).2 (board_lt board).1) m

theorem gpioConnect_answers (inv : Inv r₀ c.driver) (q : IoPins) : Answers r₀ c (.connect q) := by
  refine Triple.bind (gpioPinMask_rule _ _) fun mask => Triple.assume fun ⟨table, known⟩ => ?_
  refine here_require fun _ => here_require fun _ => Triple.bind (gpioCanClaim_rule mask) fun _ => here_get (here_require fun ⟨free, quiet⟩ => ?_)
  have touched : pins ((listed mask).foldl (fun t p => t ||| pinBit p) c.driver.touched) = pins c.driver.touched ∪ pins mask := by
    rw [pins_claimed (fun p hp => Nat.lt_trans (allowed_lt (listed_bounds known p hp).2).2 (by decide)), set_listed known]
  have within : Within (cells (pins mask)) c.machine
      (c.machine.rounds (configure c.driver.boot c.driver.interrupts 5 (q.mode = .output) q.pull q.driveStrength) (listed mask)) :=
    rounds_within (listed_bounds known) (fun _ hp => configure_within hp) c.machine
  have steady (p : ℕ) := claims_steady (p := p) known c.driver.boot c.driver.interrupts (q.mode = .output) q.pull q.driveStrength c.machine
  rw [and_eq_zero, pins_or, Set.disjoint_union_right] at free
  rw [table] at within
  refine Triple.bind (here_run (each_configure _ _ _ _ _ c)) fun _ => Triple.bind (Q := fun _ s => s = _) (here_set rfl) fun _ => ?_
  refine Triple.when (fun output => here_set ⟨⟨?_, within, steady⟩, nofun, nofun⟩) fun _ hs _ => hs ▸ ⟨⟨?_, within, steady⟩, nofun, nofun⟩
  · refine inv.of rfl rfl rfl (touched ▸ Set.union_subset inv.known known) ?_
    have noIrq : Disjoint (pins mask) (pins c.driver.irqOwned) := by
      rw [← pins_wide]
      exact and_eq_zero.mp (quiet output)
    have taken := inv.sound.takeOutput free.2 noIrq
    simpa only [owners, Owners.takeOutput, Driver.remember, touched, pins_or] using taken
  · refine inv.of rfl rfl rfl (touched ▸ Set.union_subset inv.known known) ?_
    have taken := inv.sound.takeIo free.2
    simpa only [owners, Owners.takeIo, Driver.remember, touched, pins_or] using taken

theorem gpioConnectFunction_answers (inv : Inv r₀ c.driver) (q : FunctionPins) : Answers r₀ c (.connectFunction q) := by
  refine Triple.bind (gpioPinMask_rule _ _) fun mask => Triple.assume fun ⟨table, known⟩ => ?_
  refine here_require fun ⟨header, _⟩ => Triple.bind (gpioCanClaim_rule mask) fun _ => here_get (here_require fun free => ?_)
  have low (p : ℕ) (hp : p ∈ pins mask) : p < rp1HeaderPins := by
    refine header_bounds p (lt_of_mem_pins hp) (known hp) (Bool.eq_false_iff.mpr fun board => ?_)
    exact Set.disjoint_left.mp (and_eq_zero.mp header) hp board
  have listed (p : ℕ) : p ∈ pinsFrom 2 rp1HeaderPins mask ↔ p ∈ pins mask :=
    mem_pinsFrom.trans ⟨fun h => h.2, fun h => ⟨⟨(allowed_lt (known h)).1, low p h⟩, h⟩⟩
  have same : { p | p ∈ pinsFrom 2 rp1HeaderPins mask } = pins mask := Set.ext listed
  have touched : pins ((pinsFrom 2 rp1HeaderPins mask).foldl (fun t p => t ||| pinBit p) c.driver.touched) =
      pins c.driver.touched ∪ pins mask := by
    rw [pins_claimed (fun p hp => lt_of_mem_pins ((listed p).mp hp)), same]
  have within : Within (cells (pins mask)) c.machine
      (c.machine.rounds (configure c.driver.boot c.driver.interrupts (BitVec.ofNat 32 q.function) false q.pull 0) (pinsFrom 2 rp1HeaderPins mask)) :=
    rounds_within (fun p hp => ⟨(listed p).mp hp, known ((listed p).mp hp)⟩) (fun _ hp => configure_within hp) c.machine
  rw [and_eq_zero, pins_or, pins_or, pins_wide] at free
  rw [table] at within low
  refine Triple.bind (here_run (each_configure _ _ _ _ _ c)) fun _ => here_set ⟨.header ?_ within low, nofun, nofun⟩
  refine inv.of rfl rfl rfl (touched ▸ Set.union_subset inv.known known) ?_
  have taken := inv.sound.takeFunction (Set.disjoint_union_right.mp free).1
  simpa only [owners, Owners.takeFunction, Driver.remember, touched, pins_or] using taken

/-! ### Disconnecting -/

theorem mem_unowned {mask : BitVec 64} (known : pins mask ⊆ pins rp1AllowedMask) :
    p ∈ d.unowned mask ↔ p ∈ pins mask ∧ p ∉ (owners d).owned := by
  rw [Driver.unowned, mem_listed, pins_and_not, pins_or, pins_or, pins_wide]
  · rfl
  · rw [pins_and_not]
    exact Set.sdiff_subset.trans known

/-- The pins that nobody has any more are put back. -/
theorem restoreUnowned_rule (c e : Context) {mask : BitVec 64} (inv : Inv r₀ e.driver) (known : pins mask ⊆ pins rp1AllowedMask)
    (within : Within (cells (pins mask)) c.machine e.machine) (quiet : ∀ p ∈ pins rp1BoardMask, c.machine.Keeps (Live p) e.machine) :
    Triple (· = e) (restoreUnowned mask) (fun _ s => Kept r₀ c (pins mask) s ∧ Returned r₀ (pins mask) s) E := by
  have listed (p : ℕ) (hp : p ∈ e.driver.unowned mask) := (mem_unowned known).mp hp
  have low (p : ℕ) (hp : p ∈ e.driver.unowned mask) : p < 54 := (allowed_lt (known (listed p hp).1)).2
  have boot (p : ℕ) (hp : p ∈ e.driver.unowned mask) : e.driver.boot p = gpioSnapshot r₀ p := inv.boot p (known (listed p hp).1)
  have touched : pins ((e.driver.unowned mask).foldl (fun t p => t &&& ~~~pinBit p) e.driver.touched) =
      pins e.driver.touched \ { p | p ∈ e.driver.unowned mask } :=
    pins_restored (fun p hp => Nat.lt_trans (low p hp) (by decide)) _
  refine (here_run (restoreUnowned_run mask e)).mono (fun _ hs => hs) (fun _ s hs => ?_) fun _ _ hs => hs
  subst hs
  refine ⟨⟨inv.of rfl rfl rfl (touched ▸ Set.sdiff_subset.trans inv.known) ?_, within.trans ?_, fun p board => ?_⟩, fun p hp free => ?_⟩
  · refine inv.sound.remember (t := pins ((e.driver.unowned mask).foldl (fun t p => t &&& ~~~pinBit p) e.driver.touched)) ?_
    rw [touched]
    exact fun p hp => ⟨inv.sound.touched hp, fun gone => (listed p gone).2 hp⟩
  · exact rounds_within (fun p hp => ⟨(listed p hp).1, known (listed p hp).1⟩) (fun p hp m => gpioRestore_within hp _ m) e.machine
  · exact (quiet p board).trans_steady (restored_steady low (nodup_pinsFrom _ _ _) (fun p hp => ⟨r₀, boot p hp⟩) board e.machine)
  · have mem : p ∈ e.driver.unowned mask := (mem_unowned known).mpr ⟨hp, free⟩
    rw [← boot p mem]
    exact restored_rounds low (fun p hp => ⟨r₀, boot p hp⟩) mem e.machine

theorem gpioDisconnect_answers (inv : Inv r₀ c.driver) (bank : ℕ) (table : Option (List ℕ)) (preserve : Bool) :
    Answers r₀ c (.disconnect bank table preserve) := by
  refine Triple.bind (gpioPinMask_rule _ _) fun mask => Triple.assume fun ⟨same, known⟩ => ?_
  refine Triple.bind (Q := fun _ s => s = _) (here_set rfl) fun _ => ?_
  have left : Inv r₀ { c.driver with ioOwned := c.driver.ioOwned &&& ~~~mask, outputOwned := c.driver.outputOwned &&& ~~~mask } := by
    refine inv.of rfl rfl rfl inv.known ?_
    have sound := inv.sound.leaveIo (s := pins mask)
    simpa only [owners, Owners.leaveIo, pins_and_not] using sound
  change Triple _ _ (fun _ s => Kept r₀ c (tablePins table) s ∧ ((!preserve) = true → Returned r₀ (tablePins table) s) ∧ _) _
  rw [← same]
  refine Triple.when (fun _ => ?_) fun s hs keep => ?_
  · exact (restoreUnowned_rule c ⟨_, c.machine⟩ left known (.refl _ _) fun _ _ => .refl).mono (fun _ hs => hs)
      (fun _ _ hs => ⟨hs.1, fun _ => hs.2, nofun⟩) fun _ _ hs => hs
  · subst hs
    exact ⟨⟨left, .refl _ _, fun _ _ => Journal.Keeps.refl.steady⟩, fun leaves => absurd (by simpa using leaves) keep, nofun⟩

theorem gpioDisconnectFunction_answers (inv : Inv r₀ c.driver) (bank : ℕ) (table : Option (List ℕ)) :
    Answers r₀ c (.disconnectFunction bank table) := by
  refine Triple.bind (gpioPinMask_rule _ _) fun mask => Triple.assume fun ⟨same, known⟩ => ?_
  refine Triple.bind (Q := fun _ s => s = _) (here_set rfl) fun _ => ?_
  have left : Inv r₀ { c.driver with functionOwned := c.driver.functionOwned &&& ~~~mask } := by
    refine inv.of rfl rfl rfl inv.known ?_
    have sound := inv.sound.leaveFunction (s := pins mask)
    simpa only [owners, Owners.leaveFunction, pins_and_not] using sound
  change Triple _ _ (fun _ s => Kept r₀ c (tablePins table) s ∧ (_ → Returned r₀ (tablePins table) s) ∧ _) _
  rw [← same]
  exact (restoreUnowned_rule c ⟨_, c.machine⟩ left known (.refl _ _) fun _ _ => .refl).mono (fun _ hs => hs)
    (fun _ _ hs => ⟨hs.1, fun _ => hs.2, nofun⟩) fun _ _ hs => hs

/-! ### Interrupts -/

section Header

variable {v : BitVec 32}

theorem header_place (hp : p < rp1HeaderPins) : bankOffset p = 0 ∧ bankPin p = p := by
  have : p < 28 := hp
  simp [bankOffset, bankPin, this]

theorem headerSet_within (hp : p < rp1HeaderPins) (m : Machine) : Within (seen p) m (m.gpioWrite .io (rp1Set + rp1Ctrl p) v) := by
  obtain ⟨offset, place⟩ := header_place hp
  have low : rp1Ctrl p < 0x1000 := place ▸ ctrl_low (Nat.lt_trans hp (by decide))
  have here : home (0 + rp1Set + rp1Ctrl p) = 0 + rp1Ctrl p := home_set rfl low
  refine (Within.refl _ m).write fun x hx => ctrl_seen ⟨hx.1, ?_⟩
  rw [offset, place, ← here, Nat.zero_add]
  exact hx.2.1

theorem headerClear_within (hp : p < rp1HeaderPins) (m : Machine) : Within (seen p) m (m.gpioWrite .io (rp1Clear + rp1Ctrl p) v) := by
  obtain ⟨offset, place⟩ := header_place hp
  have low : rp1Ctrl p < 0x1000 := place ▸ ctrl_low (Nat.lt_trans hp (by decide))
  have here : home (0 + rp1Clear + rp1Ctrl p) = 0 + rp1Ctrl p := home_clear rfl low
  refine (Within.refl _ m).write fun x hx => ctrl_seen ⟨hx.1, ?_⟩
  rw [offset, place, ← here, Nat.zero_add]
  exact hx.2.1

end Header

/-- A pin of the header. -/
theorem header_known (high : 2 ≤ p) (hp : p < rp1HeaderPins) : p ∈ pins rp1AllowedMask := header_allowed p hp high

theorem pins_header (hp : p < rp1HeaderPins) : pins (pinBit p : BitVec 32) = {p} := pins_pinBit (Nat.lt_trans hp (by decide))

theorem enables_pin (high : 2 ≤ p) (hp : p < rp1HeaderPins) : enables (pins (pinBit p : BitVec 32)) ⊆ cells {p} := by
  rw [pins_header hp]
  exact enables_cells Set.Subset.rfl (Set.singleton_subset_iff.mpr (header_known high hp))

theorem seen_pin (high : 2 ≤ p) (hp : p < rp1HeaderPins) : seen p ⊆ cells {p} := seen_cells rfl (header_known high hp)

theorem single_header (hp : p < rp1HeaderPins) : ∀ q ∈ ({p} : Set ℕ), q < rp1HeaderPins := fun _ hq => hq ▸ hp

theorem gpioEnableInterrupt_answers (inv : Inv r₀ c.driver) (q : IrqPin) : Answers r₀ c (.enableInterrupt q) := by
  refine Triple.bind (gpioIrqPinMask_rule _ _) fun bit => Triple.assume fun ⟨high, hp, same⟩ => ?_
  subst same
  refine here_require fun _ => Triple.bind (gpioTrigger_rule _ _) fun events => Triple.bind (gpioCanClaim_rule _) fun _ =>
    here_get (here_require fun free => ?_)
  rw [and_eq_zero, pins_or, pins_or, pins_wide, pins_wide, pins_header hp, Set.disjoint_union_right, Set.disjoint_union_right] at free
  have low : q.pin < 54 := Nat.lt_trans hp (by decide)
  refine Triple.bind (Q := fun _ s => s = _) (here_hw rfl) fun _ => Triple.bind (here_run (gpioConfigure_run _ _ _ _ _ _)) fun _ => ?_
  refine Triple.bind (Q := fun _ s => s = _) (here_hw rfl) fun _ => Triple.bind (Q := fun _ s => s = _) (here_hw rfl) fun _ => ?_
  refine Triple.bind (Q := fun _ s => s = _) (here_set rfl) fun _ => here_hw ⟨.header ?_ ?_ (single_header hp), nofun, nofun⟩
  · have touched : pins (c.driver.touched ||| pinBit q.pin) = pins c.driver.touched ∪ {q.pin} := by
      rw [pins_or, pins_pinBit (Nat.lt_trans low (by decide))]
    refine inv.of rfl rfl rfl ?_ ?_
    · change pins (c.driver.touched ||| pinBit q.pin) ⊆ _
      rw [touched]
      exact Set.union_subset inv.known (Set.singleton_subset_iff.mpr (header_known high hp))
    · have taken := inv.sound.takeIrq free.1.1 free.1.2
      simpa only [owners, Owners.takeIrq, Driver.remember, touched, pins_or, pins_header hp] using taken
  · have configured (m : Machine) : Within (seen q.pin) m (configure c.driver.boot c.driver.interrupts 5 false q.pull 0 q.pin m) :=
      configure_within low m
    have claimed := ((clearInte_within (pinBit q.pin) c.machine).mono (enables_pin high hp)).trans
      ((configured _).mono (seen_pin high hp))
    have triggered := (claimed.trans ((headerSet_within (v := rp1IrqReset) hp _).mono (seen_pin high hp))).trans
      ((headerSet_within (v := events) hp _).mono (seen_pin high hp))
    exact triggered.trans ((setInte_within (pinBit q.pin) _).mono (enables_pin high hp))

theorem gpioDisableInterrupt_answers (inv : Inv r₀ c.driver) (bank pin : ℕ) : Answers r₀ c (.disableInterrupt bank pin) := by
  refine Triple.bind (gpioIrqPinMask_rule _ _) fun bit => Triple.assume fun ⟨high, hp, same⟩ => ?_
  subst same
  refine Triple.bind (Q := fun _ s => s = _) (here_hw rfl) fun _ => Triple.bind (Q := fun _ s => s = _) (here_hw rfl) fun _ => ?_
  refine Triple.bind (Q := fun _ s => s = _) (here_hw rfl) fun _ => Triple.bind (Q := fun _ s => s = _) (here_set rfl) fun _ => ?_
  have left : Inv r₀ { c.driver with irqOwned := c.driver.irqOwned &&& ~~~pinBit pin } := by
    refine inv.of rfl rfl rfl inv.known ?_
    have sound := inv.sound.leaveIrq (s := {pin})
    simpa only [owners, Owners.leaveIrq, pins_and_not, pins_header hp] using sound
  have masked := ((clearInte_within (pinBit pin) c.machine).mono (enables_pin high hp)).trans
    ((headerClear_within (v := rp1IrqEvents) hp _).mono (seen_pin high hp))
  have cleared := masked.trans ((headerSet_within (v := rp1IrqReset) hp _).mono (seen_pin high hp))
  have single : ({pin} : Set ℕ) = pins (BitVec.setWidth 64 (pinBit pin : BitVec 32)) := by rw [pins_wide, pins_header hp]
  have known : pins (BitVec.setWidth 64 (pinBit pin : BitVec 32)) ⊆ pins rp1AllowedMask := by
    rw [← single]
    exact Set.singleton_subset_iff.mpr (header_known high hp)
  change Triple _ _ (fun _ s => Kept r₀ c {pin} s ∧ (_ → Returned r₀ {pin} s) ∧ _) _
  have quiet (p : ℕ) (board : p ∈ pins rp1BoardMask) := cleared.live (board_lt board).2 (watched_cells (board_lt board).2 fun mem =>
    Nat.not_le.mpr (single_header hp p mem) (board_lt board).1)
  rw [single] at cleared ⊢
  exact (restoreUnowned_rule c ⟨_, _⟩ left known cleared quiet).mono (fun _ hs => hs) (fun _ _ hs => ⟨hs.1, fun _ => hs.2, nofun⟩)
    fun _ _ hs => hs

theorem gpioMaskInterrupts_answers (inv : Inv r₀ c.driver) (bank : ℕ) (mask : BitVec 64) : Answers r₀ c (.maskInterrupts bank mask) := by
  have header (p : ℕ) (hp : p ∈ pins (mask.setWidth 32 &&& rp1HeaderMask)) : 2 ≤ p ∧ p < rp1HeaderPins := by
    have bits : ∀ p < 32, rp1HeaderMask.getLsbD p = true → 2 ≤ p ∧ p < rp1HeaderPins := by decide
    rw [mem_pins, BitVec.getLsbD_and, Bool.and_eq_true] at hp
    exact bits p (BitVec.lt_of_getLsbD hp.2) hp.2
  refine here_require fun _ => here_hw ⟨.header inv ?_ fun p hp => (header p hp).2, nofun, nofun⟩
  exact (clearInte_within _ c.machine).mono (enables_cells Set.Subset.rfl fun p hp => header_known (header p hp).1 (header p hp).2)

theorem gpioUnmaskInterrupt_answers (inv : Inv r₀ c.driver) (bank pin : ℕ) : Answers r₀ c (.unmaskInterrupt bank pin) := by
  refine Triple.bind (gpioIrqPinMask_rule _ _) fun bit => Triple.assume fun ⟨high, hp, same⟩ => ?_
  subst same
  refine here_hw ⟨.header inv ?_ (single_header hp), nofun, nofun⟩
  exact (setInte_within (pinBit pin) c.machine).mono (enables_pin high hp)

theorem gpioClearInterrupts_answers (inv : Inv r₀ c.driver) (bank : ℕ) (mask : BitVec 64) : Answers r₀ c (.clearInterrupts bank mask) := by
  have header (p : ℕ) (hp : p ∈ pinsFrom 2 rp1HeaderPins mask) : 2 ≤ p ∧ p < rp1HeaderPins := (mem_pinsFrom.mp hp).1
  refine here_require fun _ => here_hw ⟨.header inv ?_ fun p hp => (header p hp).2, nofun, nofun⟩
  refine Journal.Passed.rounds (R := Only _) (Only.refl _) Only.trans (fun p hp j => ?_) c.machine
  exact (headerSet_within (header p hp).2 j).mono (seen_cells hp (header_known (header p hp).1 (header p hp).2))

theorem gpioReconfigureInterrupt_answers (inv : Inv r₀ c.driver) (bank pin : ℕ) (mode : Mode) (polarity : Polarity) :
    Answers r₀ c (.reconfigureInterrupt bank pin mode polarity) := by
  refine Triple.bind (gpioIrqPinMask_rule _ _) fun bit => Triple.assume fun ⟨high, hp, same⟩ => ?_
  subst same
  refine Triple.bind (gpioTrigger_rule _ _) fun events => here_get ?_
  refine Triple.bind (Q := fun _ s => s = _) (here_hw rfl) fun _ => Triple.bind (Q := fun _ s => s = _) (here_hw rfl) fun _ => ?_
  refine Triple.bind (Q := fun _ s => s = _) (here_hw rfl) fun _ => Triple.bind (Q := fun _ s => s = _) (here_hw rfl) fun _ => ?_
  refine here_hw ⟨.header inv ?_ (single_header hp), nofun, nofun⟩
  have masked := ((clearInte_within (pinBit pin) c.machine).mono (enables_pin high hp)).trans
    ((headerClear_within (v := rp1IrqEvents) hp _).mono (seen_pin high hp))
  have cleared := masked.trans ((headerSet_within (v := rp1IrqReset) hp _).mono (seen_pin high hp))
  have triggered := cleared.trans ((headerSet_within (v := events) hp _).mono (seen_pin high hp))
  have inside : pins (c.machine.now.gpioRead .io rp1Inte &&& pinBit pin) ⊆ {pin} := fun p hp' => by
    rw [mem_pins, BitVec.getLsbD_and, Bool.and_eq_true] at hp'
    rw [← pins_header hp]
    exact hp'.2
  exact triggered.trans ((setInte_within _ _).mono (enables_cells inside (inside.trans (Set.singleton_subset_iff.mpr (header_known high hp)))))

/-! ### Levels -/

theorem gpioWritePins_answers (inv : Inv r₀ c.driver) (bank : ℕ) (toSet toClear : BitVec 64) :
    Answers r₀ c (.writePins bank toSet toClear) := by
  refine here_get (here_require fun ⟨_, _, known, _⟩ => here_hw ⟨⟨inv, ?_, fun p board => ?_⟩, nofun, nofun⟩)
  · exact (gpioWriteValues_within toSet toClear c.machine).mono (levels_cells (and_not_eq_zero.mp known))
  · exact ((gpioWriteValues_within toSet toClear c.machine).live (board_lt board).2 watched_levels).steady

/-- A request that only reads. -/
theorem done_rule {x : Drive α} {Q : Context → Prop} (h : Q c) (reads : Triple (· = c) x (fun _ s => s = c) fun _ s => s = c) :
    Triple (· = c) (done x) (fun _ => Q) fun _ s => s = c :=
  Triple.bind reads fun _ => Triple.pure fun s hs => by
    subst hs
    exact h

theorem gpioReadPins_answers (inv : Inv r₀ c.driver) (bank : ℕ) (written : Bool) : Answers r₀ c (.readPins bank written) :=
  done_rule ⟨inv.kept, nofun, nofun⟩ (here_get (here_require fun _ => Triple.pure fun _ hs => hs))

theorem gpioQueryInterrupts_answers (inv : Inv r₀ c.driver) (bank : ℕ) (enabled : BitVec 64) :
    Answers r₀ c (.queryInterrupts bank enabled) :=
  done_rule ⟨inv.kept, nofun, nofun⟩ (here_get (here_require fun _ => Triple.pure fun _ hs => hs))

theorem gpioQueryEnabled_answers (inv : Inv r₀ c.driver) (bank : ℕ) : Answers r₀ c (.queryEnabled bank) :=
  done_rule ⟨inv.kept, nofun, nofun⟩ (here_get (here_require fun _ => Triple.pure fun _ hs => hs))

/-! ### Power -/

theorem saved_save {r : Regs} {mask : BitVec 64} {old : ℕ → PinState} (h : ∀ p, Saved (old p) p) (p : ℕ) : Saved (save r mask old p) p := by
  unfold save
  split
  · exact ⟨r, rfl⟩
  · exact h p

theorem touched_bounds (inv : Inv r₀ d) : ∀ p ∈ listed d.touched, p < 54 :=
  fun p hp => (allowed_lt (listed_bounds inv.known p hp).2).2

theorem restoreTouched_within (inv : Inv r₀ d) (states : ℕ → PinState) (m : Machine) :
    Within (cells (pins d.touched)) m (m.rounds (fun pin => gpioRestore (states pin) pin) (listed d.touched)) :=
  rounds_within (listed_bounds inv.known) (fun p hp m => gpioRestore_within hp (states p) m) m

theorem gpioStart_answers (inv : Inv r₀ c.driver) (restore : Bool) (route : Option ℕ) : Answers r₀ c (.start restore route) := by
  cases route with
  | some code => exact Triple.stop fun _ hs => hs
  | none =>
    have kept {s : Context} (h : Kept r₀ c ((Request.start restore none).pins c.driver) s) :
        Kept r₀ c ((Request.start restore none).pins c.driver) { s with driver := { s.driver with started := true } } :=
      ⟨h.inv.of rfl rfl rfl h.inv.known h.inv.sound, h.within, h.steady⟩
    refine here_get (Triple.bind (Q := fun _ => Kept r₀ c ((Request.start restore none).pins c.driver)) ?_ fun _ =>
      Triple.modify fun _ hs => ⟨kept hs, nofun, nofun⟩)
    refine Triple.when (fun restores => ?_) fun _ hs _ => hs ▸ inv.kept
    have own : (Request.start restore none).pins c.driver = pins c.driver.touched ∪ pins c.driver.resumeInte := if_pos restores
    rw [own]
    refine Triple.bind (Q := fun _ s => s = _) (here_hw rfl) fun _ => here_hw ⟨inv, ?_, fun p board => ?_⟩
    · have cells_mono {s t : Set ℕ} (sub : s ⊆ t) : cells s ⊆ cells t := fun _ ⟨p, hp, rest⟩ => ⟨p, sub hp, rest⟩
      exact ((restoreTouched_within inv c.driver.resume c.machine).mono (cells_mono Set.subset_union_left)).trans
        ((setInte_within _ _).mono (enables_cells Set.subset_union_right inv.resumed))
    · exact (restored_steady (touched_bounds inv) (nodup_pinsFrom _ _ _) (fun p _ => inv.resume p) board c.machine).trans_keeps
        ((setInte_within _ _).live (board_lt board).2 (watched_enables (board_lt board).2))

/-- The driver of a controller that is stopped. -/
def Driver.stopped (d : Driver) (r : Regs) (saves : Bool) : Driver :=
  if saves = true then { d with resumeInte := r.gpioRead .io rp1Inte &&& d.irqOwned, resume := save r d.touched d.resume, started := false }
  else { d with started := false }

/-- The registers of a controller that is stopped. -/
def stoppedMachine (d : Driver) (m : Machine) : Machine :=
  (m.gpioWrite .io (rp1Clear + rp1Inte) d.irqOwned).rounds (fun pin => gpioRestore (d.boot pin) pin) (listed d.touched)

theorem gpioStop_run (saves : Bool) (c : Context) :
    (gpioStop saves).run c = (.ok (), ⟨c.driver.stopped c.machine.now saves, stoppedMachine c.driver c.machine⟩) := by
  cases saves <;> rfl

theorem Inv.stopped (inv : Inv r₀ d) (r : Regs) (saves : Bool) : Inv r₀ (d.stopped r saves) := by
  unfold Driver.stopped
  split
  · refine ⟨inv.boot, saved_save inv.resume, fun p hp => inv.known (inv.sound.touched (.inl (.inr ?_))), inv.known, inv.sound⟩
    rw [mem_pins, BitVec.getLsbD_and, Bool.and_eq_true] at hp
    exact hp.2
  · exact inv.of rfl rfl rfl inv.known inv.sound

theorem stopped_restored (inv : Inv r₀ d) (m : Machine) (hp : p ∈ pins d.touched) :
    gpioSnapshot (stoppedMachine d m).now p = gpioSnapshot r₀ p := by
  rw [← inv.boot p (inv.known hp)]
  exact restored_rounds (touched_bounds inv) (fun p hp => ⟨r₀, inv.boot p (listed_bounds inv.known p hp).2⟩) ((mem_listed inv.known).mpr hp) _

theorem gpioStop_answers (inv : Inv r₀ c.driver) (saves : Bool) : Answers r₀ c (.stop saves) := by
  refine (here_run (gpioStop_run saves c)).mono (fun _ hs => hs) (fun _ s hs => ?_) fun _ _ hs => hs
  subst hs
  have owned : pins c.driver.irqOwned ⊆ pins c.driver.touched := fun p hp => inv.sound.touched (.inl (.inr hp))
  refine ⟨⟨inv.stopped _ _, ?_, fun p board => ?_⟩, nofun, fun _ p hp => stopped_restored inv c.machine hp⟩
  · exact ((clearInte_within _ c.machine).mono (enables_cells owned (owned.trans inv.known))).trans (restoreTouched_within inv c.driver.boot _)
  · exact ((clearInte_within _ c.machine).live (board_lt board).2 (watched_enables (board_lt board).2)).trans_steady
      (restored_steady (touched_bounds inv) (nodup_pinsFrom _ _ _) (fun p hp => ⟨r₀, inv.boot p (listed_bounds inv.known p hp).2⟩) board _)

theorem serve_answers (inv : Inv r₀ c.driver) (r : Request) : Answers r₀ c r := by
  cases r with
  | start restore route => exact gpioStart_answers inv restore route
  | stop saves => exact gpioStop_answers inv saves
  | connect q => exact gpioConnect_answers inv q
  | disconnect bank table preserve => exact gpioDisconnect_answers inv bank table preserve
  | readPins bank written => exact gpioReadPins_answers inv bank written
  | writePins bank toSet toClear => exact gpioWritePins_answers inv bank toSet toClear
  | enableInterrupt q => exact gpioEnableInterrupt_answers inv q
  | disableInterrupt bank pin => exact gpioDisableInterrupt_answers inv bank pin
  | maskInterrupts bank mask => exact gpioMaskInterrupts_answers inv bank mask
  | unmaskInterrupt bank pin => exact gpioUnmaskInterrupt_answers inv bank pin
  | queryInterrupts bank enabled => exact gpioQueryInterrupts_answers inv bank enabled
  | queryEnabled bank => exact gpioQueryEnabled_answers inv bank
  | clearInterrupts bank mask => exact gpioClearInterrupts_answers inv bank mask
  | reconfigureInterrupt bank pin mode polarity => exact gpioReconfigureInterrupt_answers inv bank pin mode polarity
  | connectFunction q => exact gpioConnectFunction_answers inv q
  | disconnectFunction bank table => exact gpioDisconnectFunction_answers inv bank table

end Pi5Drivers.Rp1Gpio
