import Pi5Drivers.Pm.Lease

/-! The power manager over whole runs. Clients ask and go away, and the device is stopped and
started, in any order and whatever the registers hold. -/

namespace Pi5Drivers.Pm

open Effect Recorded

/-! ### Events of the device -/

section Events

variable {before : Driver}

theorem ofExcept_keeps {α : Type} (r : Except Status α) :
    Triple (Assert observer (Agrees before)) (ofExcept r : Drive Status α) (fun _ => Assert observer (Agrees before))
      fun _ => Assert observer (Agrees before) :=
  Triple.ofExcept (fun _ _ hc => hc) fun _ _ hc => hc

theorem fromWorld_keeps (f : World → ℕ → Except Status Unit) : Keeps before (fromWorld f) :=
  Triple.bind (ask_rule _) fun r => ofExcept_keeps r

theorem pmPrepare_keeps : Keeps before pmPrepare := by
  refine glance_rule fun d => Triple.bind (require_rule fun _ _ _ h => h) fun _ => assume_rule fun _ => ?_
  refine Triple.bind (fromWorld_keeps _) fun _ => Triple.bind (ask_rule _) fun mapped => ?_
  refine Triple.bind (require_rule fun _ _ _ h => h) fun _ => assume_rule fun _ => ?_
  refine Triple.bind (change_rule (B := Agrees before) _ fun d w h => ?_) fun _ => pmSnapshot_rule
  exact ⟨h.owner, h.boot, h.hw, h.lease, h.later.boot, h.later.hw⟩

theorem fault_keeps {E : Status → Context → Prop} :
    Triple (Assert observer (Agrees before)) (do
      pmSnapshot
      pmFault) (fun _ => Assert observer (Agrees before)) E :=
  Triple.bind pmSnapshot_rule fun _ => (pmFault_rule fun _ _ h => h.fails).mono (fun _ => id)
    (fun _ _ hc => hc.mono fun _ _ h => h.toAgrees) fun _ _ => id

theorem pmReleaseHardware_keeps : Keeps before pmReleaseHardware := by
  refine glance_rule fun d => Triple.bind (Triple.when (fun _ => fault_keeps) fun _ hc _ => hc) fun _ => ?_
  exact change_rule _ fun d w h => ⟨h.owner, h.boot, h.hw, h.lease, h.later.boot, h.later.hw⟩

/-- An owner that goes away leaves the line unsafe. -/
theorem pmFileCleanup_rule (file : ℕ) (owner : Option ℕ) {E : Status → Context → Prop} :
    Triple (Assert observer fun d w => d.owner = owner ∧ Agrees before d w) (pmFileCleanup file)
      (fun _ => Assert observer fun d w => (owner = some file → d.owner = none ∧ d.bootUnsafe = true) ∧
        Agrees before d w) E := by
  refine look_rule fun d => Triple.when (fun mine => ?_) fun c hc no => hc.mono ?_
  · refine Triple.bind (Triple.when (fun _ => pmSnapshot_rule) fun _ hc _ => hc) fun _ => ?_
    refine Triple.bind (Q := fun _ => Assert observer (Faulted before)) (pmFault_rule fun _ _ h => h.2.2.fails) fun _ => ?_
    refine Triple.bind (record_rule (B := fun d w => Faulted before { d with owner := none } w) _ ?_ ?_) fun _ => ?_
    · exact fun d w h => h.boot.symm.trans h.boot_
    · exact fun d w h => ⟨⟨rfl, h.boot, h.hw, fun held => absurd rfl held, h.later.boot, h.later.hw⟩, h.boot_⟩
    · exact change_rule _ fun d w h => ⟨fun _ => ⟨rfl, h.boot_⟩, h.toAgrees⟩
  · rintro d' w ⟨rfl, rfl, h⟩
    exact ⟨fun mine => absurd mine no, h⟩

theorem pmFileCleanup_keeps (file : ℕ) : Keeps before (pmFileCleanup file) := by
  intro c hc
  refine ((pmFileCleanup_rule file c.state.owner).mono (fun _ => id) (fun _ _ hc => ?_) fun _ _ => id) ⟨hc.1, rfl, hc.2⟩
  exact hc.mono fun _ _ h => h.2

theorem pmD0Entry_keeps : Keeps before pmD0Entry := by
  refine Triple.bind (change_rule (B := Agrees before) _ fun d w h => ?_) fun _ => ?_
  · exact ⟨h.owner, h.boot, h.hw, h.lease, h.later.boot, h.later.hw⟩
  refine Triple.bind pmSnapshot_rule fun _ => glance_rule fun d => ?_
  exact (require_rule fun _ _ _ h => h).mono (fun _ => id) (fun _ _ hc => hc.mono fun _ _ h => h.2) fun _ _ => id

theorem pmD0Exit_keeps : Keeps before pmD0Exit := by
  refine glance_rule fun d => Triple.bind (change_rule (B := Agrees before) _ fun d w h => ?_) fun _ => ?_
  · exact ⟨h.owner, h.boot, h.hw, h.lease, h.later.boot, h.later.hw⟩
  refine Triple.ite (fun _ => ?_) fun _ => pure_rule
  exact Triple.bind pmSnapshot_rule fun _ => Triple.bind (pmFault_rule fun _ _ h => h.fails) fun _ =>
    Triple.stop fun _ hc => hc.mono fun _ _ h => h.toAgrees

theorem lease_keeps (file : ℕ) (code : Code) : Keeps before (lease file code) := by
  match code with
  | .acquire input => exact Triple.bind (ofExcept_keeps _) fun request => pmAcquire_keeps file request
  | .transition input =>
    exact Triple.bind (ofExcept_keeps _) fun request => pmTransition_keeps file request
  | .release input =>
    refine Triple.bind (ofExcept_keeps _) fun request => ?_
    exact Triple.bind (require_rule fun _ _ _ h => h) fun _ => assume_rule fun _ => pmDropLease_keeps file
  | .query _ | .unknown => exact Triple.stop fun _ hc => hc

theorem pmControl_keeps (r : Request) : Keeps before (pmControl r) := by
  refine Triple.bind (require_rule fun _ _ _ h => h) fun _ => assume_rule fun _ => ?_
  refine Triple.bind (fromWorld_keeps _) fun _ => glance_rule fun d => ?_
  refine Triple.bind (require_rule fun _ _ _ h => h) fun _ => assume_rule fun _ => ?_
  split
  · exact Triple.bind (ofExcept_keeps _) fun _ => pmSnapshot_rule
  · split
    · exact lease_keeps _ _
    · exact Triple.stop fun _ hc => hc

end Events

/-! ### Runs -/

inductive Step
  | prepare
  | releaseHardware
  | d0Entry
  | d0Exit
  | control (r : Request)
  | cleanup (file : ℕ)

def Step.effect : Step → Drive Status Unit
  | .prepare => pmPrepare
  | .releaseHardware => pmReleaseHardware
  | .d0Entry => pmD0Entry
  | .d0Exit => pmD0Exit
  | .control r => pmControl r
  | .cleanup file => pmFileCleanup file

theorem Step.keeps {before : Driver} (e : Step) : Keeps before e.effect := by
  cases e with
  | prepare => exact pmPrepare_keeps
  | releaseHardware => exact pmReleaseHardware_keeps
  | d0Entry => exact pmD0Entry_keeps
  | d0Exit => exact pmD0Exit_keeps
  | control r => exact pmControl_keeps r
  | cleanup file => exact pmFileCleanup_keeps file

/-- A device as it is added. The flag for the whole driver may be set from before. -/
def added (bootUnsafe : Bool) : Driver := ⟨false, false, none, ⟨0, 0, 0, 0, false⟩, false, bootUnsafe⟩

/-- The driver in a world, from when its device is added. -/
def system (world : World) (bootUnsafe : Bool) : System Context Step where
  init := ⟨world, 0, added bootUnsafe, if bootUnsafe then [.faulted] else []⟩
  next c e := some (e.effect.run c).2

section Runs

variable {world : World} {bootUnsafe : Bool} {c c' : Context} {before : Driver}

theorem Keeps.run {x : Drive Status Unit} (h : Keeps before x) (hc : Assert observer (Agrees before) c) :
    Assert observer (Agrees before) (x.run c).2 := by
  have := h hc
  rcases hx : x.run c with ⟨_ | _, t⟩ <;> rw [hx] at this <;> exact this

theorem agrees_later (h : Assert observer (Agrees before) c) : Assert observer (Agrees c.state) c :=
  ⟨h.1, h.2.owner, h.2.boot, h.2.hw, h.2.lease, id, id⟩

theorem agrees_init : Assert observer (Agrees (added bootUnsafe)) (system world bootUnsafe).init := by
  cases bootUnsafe with
  | false => exact ⟨trivial, rfl, rfl, id, fun held => absurd rfl held, id, id⟩
  | true => exact ⟨⟨trivial, trivial⟩, rfl, rfl, fun _ => rfl, fun held => absurd rfl held, id, id⟩

theorem agrees_of_reachable (h : (system world bootUnsafe).Reachable c) : Assert observer (Agrees c.state) c := by
  refine agrees_later (h.invariant (I := Assert observer (Agrees (added bootUnsafe))) agrees_init fun e hc _ next => ?_)
  cases next
  exact e.keeps.run hc

theorem agrees_runFrom (hc : Assert observer (Agrees before) c) (steps : List Step)
    (run : (system world bootUnsafe).runFrom c steps = some c') : Assert observer (Agrees before) c' := by
  induction steps generalizing c with
  | nil =>
    cases run
    exact hc
  | cons e rest ih => exact ih (e.keeps.run hc) run

/-! ### The end of a lease -/

def Event.IsSample : Event → Prop
  | .sampled .. => True
  | _ => False

/-- The line was released, and only registers were reported since. -/
def Released (c : Context) : Prop :=
  c.state.owner = none ∧ ∃ samples older, c.trace = samples ++ .released :: older ∧ ∀ e ∈ samples, e.IsSample

theorem pmSnapshot_released {E : Status → Context → Prop} : Triple Released pmSnapshot (fun _ => Released) E := by
  refine look_bind fun c hc => (Triple.when (P := Released) (fun _ => Triple.each fun offset _ => ?_)
    fun _ h _ => h).mono (fun _ eq => eq ▸ hc) (fun _ _ => id) fun _ _ => id
  refine Triple.bind (Q := fun _ => Released) (fun _ h => h) fun value => Triple.modify fun c h => ?_
  obtain ⟨free, samples, older, eq, all⟩ := h
  refine ⟨free, .sampled offset (value &&& pmDataMask) :: samples, older, congrArg _ eq, fun e he => ?_⟩
  rcases List.mem_cons.mp he with rfl | old
  · trivial
  · exact all e old

theorem any_rule {α ε : Type} {P : Context → Prop} (x : Drive ε α) : Triple P x (fun _ _ => True) fun _ _ => True := by
  intro c _
  rcases x.run c with ⟨_ | _, t⟩ <;> trivial

theorem pmDropLease_released (file : ℕ) :
    Triple (fun _ => True) (pmDropLease file) (fun _ => Released) fun _ _ => True := by
  refine look_bind fun c _ => Triple.bind (any_rule _) fun _ => Triple.bind (any_rule _) fun _ => ?_
  refine Triple.bind (any_rule _) fun _ => ?_
  refine Triple.bind (Triple.modify (Q := fun _ c => ∃ older, c.trace = .released :: older) fun c _ => ⟨_, rfl⟩) fun _ => ?_
  refine Triple.bind (Triple.modify (Q := fun _ => Released) ?_) fun _ => pmSnapshot_released
  exact fun c ⟨older, eq⟩ => ⟨rfl, [], older, eq, by simp⟩

/-- A release that is reported successful. -/
theorem released_of_ok {r : Request} {input : Except Status LeaseRequest} (code : r.code = .release input)
    (ok : (pmControl r).run c = (.ok (), c')) : Released c' := by
  have rule : Triple (fun _ => True) (pmControl r) (fun _ => Released) fun _ _ => True := by
    refine Triple.bind (any_rule _) fun _ => Triple.bind (any_rule _) fun _ => look_bind fun c _ => ?_
    refine Triple.bind (any_rule _) fun _ => ?_
    rw [code]
    dsimp only
    split
    · refine Triple.bind (any_rule _) fun request => Triple.bind (any_rule _) fun _ => ?_
      exact pmDropLease_released _
    · exact Triple.stop fun _ _ => trivial
  exact rule.of_ok trivial ok

theorem vanished_of_owner {file : ℕ} (hc : Assert observer (Agrees before) c) (owner : c.state.owner = some file) :
    ((pmFileCleanup file).run c).2.state.owner = none ∧ ((pmFileCleanup file).run c).2.state.bootUnsafe = true := by
  have := pmFileCleanup_rule (E := fun _ _ => False) file (some file) ⟨hc.1, owner, hc.2⟩
  rcases hx : (pmFileCleanup file).run c with ⟨_ | _, t⟩ <;> rw [hx] at this
  · exact absurd this id
  · exact this.2.1 rfl

/-! ### The lease -/

/-- The reset line is lent to one file at a time, as the observer sees it. An unsafe state is never
cleared. A release that is reported successful comes after the register was read once more and
held what it held at first. An owner that goes away leaves the line unsafe. -/
theorem line_lent (h : (system world bootUnsafe).Reachable c) :
    (observer.InOrder c.trace ∧ (observer.watch c.trace).owner = c.state.owner ∧
      (observer.watch c.trace).isUnsafe = c.state.bootUnsafe ∧
      (c.state.hw.unsafeState = true → c.state.bootUnsafe = true)) ∧
    (∀ steps c', (system world bootUnsafe).runFrom c steps = some c' → Later c.state c'.state) ∧
    (∀ r input c', r.code = .release input → (pmControl r).run c = (.ok (), c') → c'.state.owner = none ∧
      ∃ samples older, c'.trace = samples ++ .released :: older ∧ (∀ e ∈ samples, e.IsSample) ∧
        (observer.watch older).last = some (observer.watch older).initial) ∧
    (∀ file, c.state.owner = some file → ((pmFileCleanup file).run c).2.state.owner = none ∧
      ((pmFileCleanup file).run c).2.state.bootUnsafe = true) := by
  have hc := agrees_of_reachable h
  refine ⟨⟨hc.1, hc.2.owner.symm, hc.2.boot.symm, hc.2.hw⟩, fun steps c' run => (agrees_runFrom hc steps run).2.later,
    fun r input c' code ok => ?_, fun file => vanished_of_owner hc⟩
  obtain ⟨free, samples, older, eq, all⟩ := released_of_ok code ok
  have order := ((pmControl_keeps r).of_ok hc ok).1
  rw [eq] at order
  exact ⟨free, samples, older, eq, all, order.allows.2.2⟩

end Runs

/-- A register that holds what was written to it: the reset bit is cleared and set again. -/
def moved : World where
  register time offset :=
    if offset ≠ pmHwV3d then 0 else if 42 ≤ time ∧ time < 55 then pmHwV3dEnab else pmHwV3dEnab ||| pmHwV3drstn
  lock _ := .ok ()
  resources _ := .ok ()
  mapRegisters _ := true

/-- A file acquires the line, asserts the reset and releases the line again. -/
def leaseRun : List Step :=
  [.prepare, .d0Entry, .control ⟨.acquire (.ok ⟨1, 1, 0, 0⟩), true, true, some 7⟩,
    .control ⟨.transition (.ok ⟨1, 1, 2, 0⟩), true, true, some 7⟩,
    .control ⟨.release (.ok ⟨1, 1, 0, 0⟩), true, true, some 7⟩]

theorem leaseRun_lent : ∃ c, (system moved false).runFrom (system moved false).init leaseRun = some c ∧
    (.wrote pmHwV3d 0x5a001000 ∈ c.trace ∧ .wrote pmHwV3d 0x5a001040 ∈ c.trace ∧ .released ∈ c.trace) ∧
    observer.InOrder c.trace := by
  have run : ((system moved false).runFrom (system moved false).init leaseRun).any fun c =>
      .wrote pmHwV3d 0x5a001000 ∈ c.trace ∧ .wrote pmHwV3d 0x5a001040 ∈ c.trace ∧ .released ∈ c.trace := by
    decide +kernel
  rcases result : (system moved false).runFrom (system moved false).init leaseRun with _ | c
  · simp [result] at run
  · simp only [result, Option.any_some, decide_eq_true_eq] at run
    exact ⟨c, rfl, run, (line_lent (System.reachable_of_run result)).1.1⟩

end Pi5Drivers.Pm
