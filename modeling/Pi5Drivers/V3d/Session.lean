import Pi5Drivers.V3d.Requests

/-! What the driver and the observer know of each other, and the rules by which a
function of the driver keeps it. -/

namespace Pi5Drivers.V3d

open Effect

/-! ### The invariant -/

/-- The slot has memory of the driver or pages of an import. -/
def Driver.Holds (d : Driver) : Slot → Prop
  | .fixed b => (d.fixed b).isSome
  | .object i => (d.space.objects i).buffer.isSome ∨ (d.space.objects i).importedMdl.isSome

instance (d : Driver) : (s : Slot) → Decidable (d.Holds s)
  | .fixed b => inferInstanceAs (Decidable ((d.fixed b).isSome = true))
  | .object i =>
    inferInstanceAs (Decidable ((d.space.objects i).buffer.isSome = true ∨ (d.space.objects i).importedMdl.isSome = true))

/-- The last submission of a sequence. -/
def Driver.submitted (d : Driver) : Series → ℕ
  | .memory => d.memorySubmitted
  | .compute => d.computeSubmitted
  | .render => d.renderSubmitted

/-- A driver without a fault. -/
structure Calm (d : Driver) (w : Watch) : Prop where
  unfaulted : w.faulted = false
  boot : d.bootFault = false
  proved : w.unproved = false
  free : ∀ s, ¬d.Holds s → w.life s = .free
  fences : ∀ r, w.fence r ≤ d.submitted r
  handles : w.handle ≤ d.space.objectSerial
  unclaimed : d.claimed = false → d.memorySession = false ∧ ∀ s, ¬d.Holds s
  ownerless : d.owner = none → d.claimed = false ∧ d.memorySession = false
  session : d.memorySession = true → d.space.Valid
  fixedSession : d.memorySession = false → d.space.Clear
  serial : d.space.objectSerial < 2 ^ 32

/-- What holds between requests. -/
def Good (d : Driver) (w : Watch) : Prop := (d.bootFault = true ∧ w.faulted = true) ∨ Calm d w

/-- The trace is as it should be, and the driver and the observer are in a relation. -/
def Assert (A : Driver → Watch → Prop) (c : Context) : Prop :=
  Contained c.machine.trace ∧ A c.driver (watch c.machine.trace)

/-- Where a function of the driver may stop. -/
def Fail {ε : Type} (_ : ε) : Context → Prop := Assert Good

/-- What a reply gives out was noted just before. -/
def Answered (c : Context) : Reply → Prop
  | .done => True
  | .object h _ _ _ => ∃ older, c.machine.trace = .created h :: older
  | .fence r n => ∃ j older, c.machine.trace = .fence r j n :: older

/-- A request started in `A` leaves a driver without a fault, or records one. -/
def Answers (A : Driver → Watch → Prop) (x : Drive Reply) : Prop :=
  Triple (Assert A) x (fun a c => Assert Calm c ∧ Answered c a) Fail

/-! ### Small changes -/

/-- Nothing changed but what was read and what is known of the guards. -/
def Driver.Minor (d d' : Driver) : Prop :=
  ∃ i g f s, d' = { d with idents := i, guardsClean := g, guardFailures := f, scratchWrites := s }

/-- Nothing changed but what was seen of the pending words and the MMU. -/
def Watch.Looks (w w' : Watch) : Prop :=
  ∃ s m q, w' = { w with seen := s, mmu := m, quiet := q } ∧ (w.quiet = .off → q = .off)

theorem Driver.Minor.refl (d : Driver) : d.Minor d := ⟨_, _, _, _, rfl⟩

theorem Watch.Looks.refl (w : Watch) : w.Looks w := ⟨_, _, _, rfl, id⟩

/-- A relation that small changes keep. -/
def Stable (A : Driver → Watch → Prop) : Prop := ∀ ⦃d d' w w'⦄, A d w → d.Minor d' → w.Looks w' → A d' w'

/-- A relation that a scan of the guards keeps. -/
def Steady (A : Driver → Watch → Prop) : Prop := ∀ ⦃d d' w⦄, A d w → d.Minor d' → A d' w

variable {A B : Driver → Watch → Prop} {α : Type} {ε : Type} {E : Status → Context → Prop}

theorem Stable.steady (h : Stable A) : Steady A := fun _ _ w ha hd => h ha hd (.refl w)

theorem Stable.and (ha : Stable A) (hb : Stable B) : Stable fun d w => A d w ∧ B d w :=
  fun _ _ _ _ h hd hw => ⟨ha h.1 hd hw, hb h.2 hd hw⟩

theorem Steady.and (ha : Steady A) (hb : Steady B) : Steady fun d w => A d w ∧ B d w :=
  fun _ _ _ h hd => ⟨ha h.1 hd, hb h.2 hd⟩

theorem steady_watch (p : Watch → Prop) : Steady fun _ w => p w := fun _ _ _ h _ => h

theorem stable_calm : Stable Calm := by
  rintro d _ w _ h ⟨i, g, f, s, rfl⟩ ⟨se, m, q, rfl, -⟩
  exact { h with }

theorem stable_idle : Stable fun _ w => w.idle = true := by
  rintro d _ w _ h - ⟨se, m, q, rfl, -⟩
  exact h

theorem stable_job (j : Option Job) : Stable fun _ w => w.job = j := by
  rintro d _ w _ h - ⟨se, m, q, rfl, -⟩
  exact h

theorem stable_off : Stable fun _ w => w.quiet = .off := by
  rintro d _ w _ h - ⟨se, m, q, rfl, off⟩
  exact off h

theorem stable_ahead (r : Series) : Stable fun d w => w.fence r < d.submitted r := by
  rintro d _ w _ h ⟨i, g, f, s, rfl⟩ ⟨se, m, q, rfl, -⟩
  exact h

/-- What a step of the hardware may do to a driver without a fault. -/
theorem Calm.of_watch {d : Driver} {w w' : Watch} (h : Calm d w) (faulted : w'.faulted = w.faulted)
    (unproved : w'.unproved = w.unproved) (life : ∀ s, w.life s = .free → w'.life s = .free)
    (fence : w'.fence = w.fence) (handle : w'.handle = w.handle) : Calm d w' :=
  { h with
    unfaulted := faulted ▸ h.unfaulted
    proved := unproved ▸ h.proved
    free := fun s hs => life s (h.free s hs)
    fences := fence ▸ h.fences
    handles := handle ▸ h.handles }

theorem Calm.good {d : Driver} {w : Watch} (h : Calm d w) : Good d w := .inr h

/-! ### Rules -/

theorem Assert.mono {c : Context} (h : Assert A c) (imp : ∀ d w, A d w → B d w) : Assert B c := ⟨h.1, imp _ _ h.2⟩

theorem driver_rule {f : Driver → Drive α} {Q : α → Context → Prop}
    (h : ∀ d, Triple (Assert fun d' w => d' = d ∧ A d' w) (f d) Q E) :
    Triple (Assert A) (driver >>= f) Q E :=
  fun c hc => h c.driver ⟨hc.1, rfl, hc.2⟩

theorem set_rule (f : Driver → Driver) (h : ∀ d w, A d w → B (f d) w) :
    Triple (Assert A) (set f) (fun _ => Assert B) E :=
  Triple.modify fun _ hc => ⟨hc.1, h _ _ hc.2⟩

theorem on_rule {x : Effect Machine Status α} {B : α → Driver → Watch → Prop} {F : Status → Driver → Watch → Prop}
    (h : ∀ d w, A d w → Triple (At w) x (fun a m => ∃ w', At w' m ∧ B a d w') fun e m => ∃ w', At w' m ∧ F e d w') :
    Triple (Assert A) (on x) (fun a => Assert (B a)) fun e => Assert (F e) := by
  refine Triple.zoom fun c hc => (h _ _ hc.2).mono (fun m hm => ?_) (fun a m hm => ?_) fun e m hm => ?_
  · subst hm
    exact ⟨hc.1, rfl⟩
  all_goals
    obtain ⟨w, ⟨trace, rfl⟩, rest⟩ := hm
    exact ⟨trace, rest⟩

/-- A step of the machine that cannot fail. -/
theorem on_exact {x : Effect Machine Status α} {f : α → Watch → Watch} {B : α → Driver → Watch → Prop}
    (hx : ∀ d w, A d w → Triple (At w) x (fun a => At (f a w)) fun _ _ => False)
    (h : ∀ d w a, A d w → B a d (f a w)) : Triple (Assert A) (on x) (fun a => Assert (B a)) E := by
  refine (on_rule (F := fun _ _ _ => False) fun d w ha => (hx d w ha).mono (fun _ hm => hm)
    (fun a m hm => ⟨_, hm, h d w a ha⟩) fun _ _ hm => hm.elim).mono (fun _ hc => hc) (fun _ _ hc => hc) ?_
  exact fun _ _ hc => hc.2.elim

theorem silent {x : Effect Machine Status α} (hx : ∀ w, Triple (At w) x (fun _ => At w) fun _ _ => False) :
    Triple (Assert A) (on x) (fun _ => Assert A) E :=
  on_exact (fun _ w _ => hx w) fun _ _ _ ha => ha

theorem note_rule {e : Event} {f : Watch → Watch} (saw : ∀ w older, w.saw older e = f w)
    (allowed : ∀ d w, A d w → w.Allows e) (h : ∀ d w, A d w → B d (f w)) :
    Triple (Assert A) (on (note e)) (fun _ => Assert B) E :=
  on_exact (f := fun _ w => f w) (fun d w ha => note_at (saw w) (allowed d w ha)) fun d w _ ha => h d w ha

/-- An event is noted at the head of the trace. -/
theorem note_head {e : Event} {P : Context → Prop} {Q : Unit → Context → Prop} (h : Triple P (on (note e)) Q E) :
    Triple P (on (note e)) (fun a c => Q a c ∧ ∃ older, c.machine.trace = e :: older) E :=
  fun c hc => ⟨h hc, c.machine.trace, rfl⟩

theorem done_rule : Answers Calm (pure .done) := Triple.pure fun _ hc => ⟨hc, trivial⟩

theorem fault_rule (s : Status) : Triple (Assert A) (fault s : Drive α) (fun _ => Assert B) Fail := by
  refine Triple.bind (set_rule (B := fun d _ => d.bootFault = true) _ fun _ _ _ => rfl) fun _ => ?_
  refine Triple.bind (note_rule (B := Good) (fun _ _ => rfl) (fun _ _ _ => trivial) fun d w h => .inl ⟨h, rfl⟩)
    fun _ => ?_
  exact Triple.stop fun _ hc => hc

/-- Whatever state a contained step stops in, the fault is recorded. -/
theorem contain_rule {x : Drive α} {P : Context → Prop} {Q : α → Context → Prop}
    (h : Triple P x Q fun _ => Assert fun _ _ => True) : Triple P (contain x) Q Fail :=
  Triple.orElse h fun e => (fault_rule (B := fun _ _ => False) e).mono (fun _ hc => hc)
    (fun _ _ hc => hc.2.elim) fun _ _ hc => hc

theorem require_rule {c : Prop} [Decidable c] {e : Status} (h : ∀ d w, A d w → Good d w) :
    Triple (Assert A) (require c e) (fun _ => Assert fun d w => c ∧ A d w) Fail :=
  Triple.require (fun _ hc yes => ⟨hc.1, yes, hc.2⟩) fun _ hc _ => hc.mono h

/-- A sequence of the hardware: how it stops does not matter, the driver records a fault. -/
theorem hw_rule {x : Effect Machine Result α} {f : Watch → Watch}
    (hx : ∀ w, Triple (At w) x (fun _ => At (f w)) Ill) (h : ∀ d w, A d w → B d (f w)) :
    Triple (Assert A) (hw x) (fun _ => Assert B) fun _ => Assert fun _ _ => True :=
  on_rule fun d w ha => Triple.mapError ((hx w).mono (fun _ hm => hm) (fun _ _ hm => ⟨_, hm, h d w ha⟩)
    fun _ m hm => ⟨watch m.trace, ⟨hm, rfl⟩, trivial⟩)

theorem contain_hw {x : Effect Machine Result α} {f : Watch → Watch}
    (hx : ∀ w, Triple (At w) x (fun _ => At (f w)) Ill) (h : ∀ d w, A d w → B d (f w)) :
    Triple (Assert A) (contain (hw x)) (fun _ => Assert B) Fail :=
  contain_rule (hw_rule hx h)

/-- A sequence that leaves the MMU on. -/
theorem contain_on {x : Effect Machine Result α} (hx : ∀ w, Triple (At w) x (fun _ => On w.flush) Ill)
    (h : ∀ d w v, A d w → B d { w.flush with quiet := .running, mmu := v }) :
    Triple (Assert A) (contain (hw x)) (fun _ => Assert B) Fail :=
  contain_rule (on_rule fun d w ha => Triple.mapError ((hx w).mono (fun _ hm => hm)
    (fun _ _ ⟨v, hm⟩ => ⟨_, hm, h d w v ha⟩) fun _ m hm => ⟨watch m.trace, ⟨hm, rfl⟩, trivial⟩))

/-! ### Looking around -/

theorem looks_seen (w : Watch) (u : Irq) (v : BitVec 32) :
    w.Looks { w with seen := Function.update w.seen u (some v) } := ⟨_, _, _, rfl, id⟩

theorem looks_mmu (w : Watch) (v : BitVec 32) : w.Looks (w.sawMmu v) :=
  ⟨_, _, _, rfl, fun off => by simp [off]⟩

theorem Watch.Looks.trans {w₁ w₂ w₃ : Watch} (h : w₁.Looks w₂) (h' : w₂.Looks w₃) : w₁.Looks w₃ := by
  obtain ⟨_, _, q, rfl, off⟩ := h
  obtain ⟨_, _, q', rfl, off'⟩ := h'
  exact ⟨_, _, _, rfl, fun o => off' (off o)⟩

/-- The observer remembers `w`, but for what was seen since. -/
def Seeing (w : Watch) (m : Machine) : Prop := ∃ w', w.Looks w' ∧ At w' m

section Seeing

variable {w : Watch} {F : ε → Machine → Prop}

theorem inspect_seeing (u : Irq) : Triple (Seeing w) (inspect u) (fun _ => Seeing w) F :=
  Triple.of_exists fun w' => Triple.assume fun looks => (inspect_at u).mono (fun _ hm => hm)
    (fun v _ hm => ⟨_, looks.trans (looks_seen w' u v), hm⟩) fun _ _ hm => hm

theorem readMmu_seeing : Triple (Seeing w) (read .hub V3D.mmuCtl) (fun _ => Seeing w) F :=
  Triple.of_exists fun w' => Triple.assume fun looks => readMmu_at.mono (fun _ hm => hm)
    (fun v _ hm => ⟨_, looks.trans (looks_mmu w' v), hm⟩) fun _ _ hm => hm

theorem require_seeing {c : Prop} [Decidable c] {e : ε} :
    Triple (Seeing w) (require c e) (fun _ => Seeing w) fun _ => Seeing w :=
  Triple.require (fun _ hm _ => hm) fun _ hm _ => hm

theorem faultless_seeing : Triple (Seeing w) faultless (fun _ => Seeing w) fun _ => Seeing w := by
  refine Triple.bind (inspect_seeing .hub) fun hub => ?_
  refine Triple.bind require_seeing fun _ => ?_
  refine Triple.bind (inspect_seeing .core) fun core => ?_
  refine Triple.bind require_seeing fun _ => ?_
  exact Triple.bind readMmu_seeing fun mmu => require_seeing

theorem arrived_seeing (hub core : BitVec 32) :
    Triple (Seeing w) (arrived hub core) (fun _ => Seeing w) fun _ => Seeing w := by
  refine Triple.bind (inspect_seeing .hub) fun p => Triple.ite (fun _ => ?_) fun _ => ?_
  · exact Triple.bind (inspect_seeing .core) fun q => Triple.pure fun _ hm => hm
  · exact Triple.pure fun _ hm => hm

theorem waitFor_seeing (hub core : BitVec 32) (n : ℕ) :
    Triple (Seeing w) (waitFor hub core n) (fun _ => Seeing w) fun _ => Seeing w := by
  induction n with
  | zero => exact Triple.bind faultless_seeing fun _ => Triple.bind (arrived_seeing hub core) fun _ => require_seeing
  | succ n ih =>
    refine Triple.bind faultless_seeing fun _ => Triple.bind (arrived_seeing hub core) fun there => ?_
    exact Triple.ite (fun _ => Triple.pure fun _ hm => hm) fun _ => ih

theorem wait_seeing (hub core : BitVec 32) :
    Triple (At w) (wait hub core) (fun _ => Seeing w) fun _ => Seeing w :=
  Triple.bind (ask_at _) fun rounds => (waitFor_seeing hub core rounds).mono (fun _ hm => ⟨w, .refl w, hm⟩)
    (fun _ _ hm => hm) fun _ _ hm => hm

end Seeing

/-- What a step that only looks around keeps. -/
theorem looking {x : Effect Machine Status α} (stable : Stable A)
    (hx : ∀ w, Triple (At w) x (fun _ => Seeing w) fun _ => Seeing w) :
    Triple (Assert A) (on x) (fun _ => Assert A) fun _ => Assert A :=
  on_rule fun d w ha => (hx w).mono (fun _ hm => hm)
    (fun _ _ ⟨w', looks, hm⟩ => ⟨w', hm, stable ha (.refl d) looks⟩)
    fun _ _ ⟨w', looks, hm⟩ => ⟨w', hm, stable ha (.refl d) looks⟩

theorem wait_rule (stable : Stable A) (hub core : BitVec 32) :
    Triple (Assert A) (attempt (on (wait hub core))) (fun _ => Assert A) E :=
  Triple.attempt (looking stable fun _ => wait_seeing hub core)

theorem read_rule (stable : Stable A) (b : Block) (off : ℕ) :
    Triple (Assert A) (on (read b off)) (fun _ => Assert A) E := by
  by_cases h : (b, off) = (.hub, V3D.mmuCtl)
  · obtain ⟨rfl, rfl⟩ := Prod.mk.inj h
    exact on_exact (f := fun v w => w.sawMmu v) (fun _ _ _ => readMmu_at) fun d w v ha =>
      stable ha (.refl d) (looks_mmu w v)
  · exact silent fun w => read_at b off h

theorem write_rule (b : Block) (off : ℕ) (v : BitVec 32) (h : launch b off = none)
    (quiet : (b, off) ≠ (.hub, V3D.mmuCtl)) :
    Triple (Assert A) (on (write b off v)) (fun _ => Assert A) E :=
  silent fun _ => write_at b off v h quiet

theorem minor_rule (steady : Steady A) (f : Driver → Driver) (h : ∀ d : Driver, d.Minor (f d)) :
    Triple (Assert A) (set f) (fun _ => Assert A) E :=
  set_rule f fun d _ ha => steady ha (h d)

theorem snapshotCore_rule (stable : Stable A) : Triple (Assert A) snapshotCore (fun _ => Assert A) E := by
  unfold snapshotCore
  iterate 8 refine Triple.bind (read_rule stable _ _) fun _ => ?_
  refine Triple.bind (minor_rule stable.steady _ fun d => ⟨_, _, _, _, rfl⟩) fun _ => ?_
  iterate 11 refine Triple.bind (read_rule stable _ _) fun _ => ?_
  exact Triple.pure fun _ hc => hc

theorem snapshot_rule (stable : Stable A) : Triple (Assert A) snapshot (fun _ => Assert A) E := by
  refine driver_rule fun d => ?_
  refine Triple.mono (P := Assert A) (Q := fun _ => Assert A) (E := E) ?_ (fun _ hc => hc.mono fun _ _ h => h.2)
    (fun _ _ hc => hc) fun _ _ hc => hc
  refine Triple.when (fun _ => ?_) fun _ hc _ => hc
  refine Triple.bind (read_rule stable _ _) fun _ => Triple.bind (read_rule stable _ _) fun smsTee => ?_
  refine Triple.bind (minor_rule stable.steady _ fun d => ⟨_, _, _, _, rfl⟩) fun _ => ?_
  exact Triple.when (fun _ => snapshotCore_rule stable) fun _ hc _ => hc

/-- A value read from the driver that the rest of the proof does not need. -/
theorem forget_rule {f : Driver → Drive α} {Q : α → Context → Prop} (h : ∀ d, Triple (Assert A) (f d) Q E) :
    Triple (Assert A) (driver >>= f) Q E :=
  driver_rule fun d => (h d).mono (fun _ hc => hc.mono fun _ _ ha => ha.2) (fun _ _ hc => hc) fun _ _ hc => hc

theorem guards_rule (steady : Steady A) : Triple (Assert A) (contain guards) (fun _ => Assert A) Fail := by
  refine contain_rule (forget_rule fun d => Triple.when (Q := fun _ => Assert A) (fun _ => ?_) fun _ hc _ => hc)
  refine Triple.bind (silent fun _ => ask_at _) fun found => ?_
  refine Triple.bind (minor_rule steady _ fun d => ⟨_, _, _, _, rfl⟩) fun _ => forget_rule fun d => ?_
  refine Triple.bind (Q := fun _ => Assert A) (Triple.require (fun _ hc _ => hc) fun _ hc _ => ⟨hc.1, trivial⟩)
    fun _ => ?_
  exact minor_rule steady _ fun d => ⟨_, _, _, _, rfl⟩

theorem maskOne_rule (u : Irq) (b : Block) (enable : Bool) :
    Triple (Assert A) (maskOne u b enable) (fun _ => Assert A) E := by
  unfold maskOne
  refine Triple.bind (silent fun w => write_at _ _ _ (by cases b <;> rfl) (by simp)) fun _ => ?_
  refine Triple.bind (silent fun _ => Triple.modify fun _ hm => hm) fun _ => ?_
  refine Triple.when (fun _ => ?_) fun _ hc _ => hc
  refine Triple.bind (silent fun w => write_at _ _ _ (by cases b <;> rfl) (by simp)) fun _ => ?_
  exact silent fun w => write_at _ _ _ (by cases b <;> rfl) (by simp)

theorem mask_rule (enable : Bool) : Triple (Assert A) (mask enable) (fun _ => Assert A) E :=
  Triple.bind (maskOne_rule .hub .hub enable) fun _ => maskOne_rule .core .core enable

theorem pending_rule : Triple (Assert A) forget (fun _ => Assert A) E :=
  Triple.bind (note_rule (fun _ _ => rfl) (fun _ _ _ => trivial) fun _ _ ha => ha) fun _ =>
    note_rule (fun _ _ => rfl) (fun _ _ _ => trivial) fun _ _ ha => ha

theorem arm_rule (steady : Steady A) : Triple (Assert A) arm (fun _ => Assert A) E := by
  refine Triple.bind (minor_rule steady _ fun d => ⟨_, _, _, _, rfl⟩) fun _ => ?_
  refine Triple.bind (mask_rule false) fun _ => ?_
  exact Triple.bind pending_rule fun _ => mask_rule true

theorem settle_rule (s : Except Status Unit) : Triple (Assert A) (settle s) (fun _ => Assert A) Fail := by
  cases s with
  | ok _ => exact Triple.pure fun _ hc => hc
  | error e => exact Triple.bind (mask_rule (A := A) false) fun _ => fault_rule e

end Pi5Drivers.V3d
