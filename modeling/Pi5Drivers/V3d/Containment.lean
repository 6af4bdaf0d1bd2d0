import Pi5Drivers.V3d.Objects

/-! What holds in every run of the V3D driver, whatever the registers, the interrupts
and the providers do. -/

namespace Pi5Drivers.V3d

open Effect AddressSpace

/-! ### One call -/

/-- A call keeps the invariant, and notes what it gives out. -/
def Serves (A : Driver → Watch → Prop) (x : Drive Reply) : Prop :=
  Triple (Assert A) x (fun a c => Assert Good c ∧ Answered c a) Fail

theorem stable_good : Stable Good := by
  rintro d d' w w' h minor looks
  rcases h with ⟨boot, faulted⟩ | calm
  · obtain ⟨i, g, f, s, rfl⟩ := minor
    obtain ⟨se, m, q, rfl, -⟩ := looks
    exact .inl ⟨boot, faulted⟩
  · exact .inr (stable_calm calm minor looks)

theorem recordStatus_rule {A : Driver → Watch → Prop} {x : Drive Reply} (h : Answers A x) : Serves A (recordStatus x) := by
  refine Triple.bind (Triple.attempt (R := fun s c => Assert Good c ∧ ∀ a, s = .ok a → Answered c a)
    (h.mono (fun _ hc => hc) (fun a c hc => ⟨hc.1.mono fun _ _ h => h.good, ?_⟩) fun e c hc => ⟨hc, ?_⟩)) fun s => ?_
  · rintro _ ⟨⟩
    exact hc.2
  · rintro _ ⟨⟩
  refine Triple.bind (Triple.modify (Q := fun _ c => Assert Good c ∧ ∀ a, s = .ok a → Answered c a) fun c hc =>
    ⟨⟨hc.1.1, hc.1.2.imp id fun h => { h with }⟩, fun a eq => ?_⟩) fun _ => ?_
  · have := hc.2 a eq
    cases a <;> exact this
  · cases s with
    | ok a => exact Triple.pure fun _ hc => ⟨hc.1, hc.2 a rfl⟩
    | error e => exact Triple.stop fun _ hc => hc.1

theorem done_answers {x : Drive Unit} (h : Triple (Assert Calm) x (fun _ => Assert Calm) Fail) : Answers Calm (done x) :=
  Triple.bind h fun _ => done_rule

theorem done_serves {x : Drive Unit} {A : Driver → Watch → Prop} (h : Triple (Assert A) x (fun _ => Assert Good) Fail) :
    Serves A (done x) :=
  Triple.bind h fun _ => Triple.pure fun _ hc => ⟨hc, trivial⟩

theorem inSession_rule (r : Request) (wellFormed : Prop) [Decidable wellFormed] {x : Drive Reply}
    (h : Answers (fun d w => Calm d w ∧ Serving d) x) : Serves Calm (inSession r wellFormed x) := by
  refine driver_rule fun d => Triple.bind (require_rule fun _ _ h => h.2.good) fun _ => ?_
  refine Triple.bind (require_rule fun _ _ h => h.2.2.good) fun _ => ?_
  refine (recordStatus_rule h).mono (fun _ hc => hc.mono ?_) (fun _ _ hc => hc) fun _ _ hc => hc
  rintro d' w ⟨-, serving, rfl, calm⟩
  exact ⟨calm, serving.2⟩

theorem require_serves {c : Prop} [Decidable c] {e : Status} {x : Drive Reply} (h : Serves Calm x) :
    Serves Calm (do require c e; x) :=
  Triple.bind require_keeps fun _ => h

theorem fixedJob_rule (r : Request) (wellFormed : Prop) [Decidable wellFormed] {x : Drive Reply} (h : Answers Calm x) :
    Serves Calm (fixedJob r wellFormed x) :=
  forget_rule fun _ => require_serves (require_serves (require_serves (recordStatus_rule h)))

theorem plain_rule (r : Request) (version reserved : BitVec 32) {x : Drive Reply} (h : Answers Calm x) :
    Serves Calm (plain r version reserved x) :=
  require_serves (recordStatus_rule h)

theorem owned_rule (r : Request) (version reserved : BitVec 32) {x : Drive Reply} (h : Answers Calm x) :
    Serves Calm (owned r version reserved x) :=
  require_serves (forget_rule fun _ => require_serves (recordStatus_rule h))

theorem done_good : Serves Calm (pure .done) := Triple.pure fun _ hc => ⟨hc.mono fun _ _ h => h.good, trivial⟩

theorem finish_calm : Triple (Assert Calm) finish (fun _ => Assert Calm) Fail :=
  finish_rule.mono (fun _ hc => hc.mono fun _ _ h => h.good) (fun _ _ hc => hc.mono fun _ _ h => h.1) fun _ _ hc => hc

theorem reset_calm : Triple (Assert Calm) reset (fun _ => Assert Calm) Fail :=
  (reset_rule (D := fun _ => True) fun _ _ h _ => h).mono (fun _ hc => hc.mono fun _ _ h => ⟨h, trivial⟩)
    (fun _ _ hc => hc.mono fun _ _ h => h.1) fun _ _ hc => hc

theorem begin_calm (file : ℕ) : Triple (Assert Calm) (begin file) (fun _ => Assert Calm) Fail :=
  (begin_rule file).mono (fun _ hc => hc) (fun _ _ hc => hc.mono fun _ _ h => h.1) fun _ _ hc => hc

theorem answers_serving {x : Drive Reply} (h : Answers Calm x) : Answers (fun d w => Calm d w ∧ Serving d) x :=
  h.mono (fun _ hc => hc.mono fun _ _ h => h.1) (fun _ _ hc => hc) fun _ _ hc => hc

theorem serve_rule (r : Request) (file : ℕ) : Serves Calm (serve r file) := by
  unfold serve
  cases r.body with
  | query => exact done_good
  | computeQuery => exact done_good
  | renderQuery => exact done_good
  | bufferImport q => exact inSession_rule r _ (objectImport_keeps q)
  | submitCl q => exact inSession_rule r _ (answers_serving (objectSubmit_keeps q))
  | bufferTile q => exact inSession_rule r _ (answers_serving (objectTile_keeps q))
  | bufferCopy q => exact inSession_rule r _ (answers_serving (objectCopy_keeps q))
  | bufferCreate q => exact inSession_rule r _ (objectCreate_keeps q)
  | bufferDestroy q => exact inSession_rule r _ (objectDestroy_keeps q)
  | transfer q => exact inSession_rule r _ (answers_serving (objectTransfer_keeps q))
  | renderPicture q triangle => exact fixedJob_rule r _ (render_keeps q triangle)
  | compute q => exact fixedJob_rule r _ compute_keeps
  | copy q => exact fixedJob_rule r _ (copy_keeps q)
  | begin v z => exact plain_rule r v z (done_answers (begin_calm file))
  | memoryBegin v z => exact plain_rule r v z (done_answers (memoryBegin_rule file))
  | finish v z => exact owned_rule r v z (done_answers finish_calm)
  | reset v z => exact owned_rule r v z (done_answers reset_calm)
  | interruptCheck v z => exact owned_rule r v z interruptCheck_keeps
  | other v z => exact owned_rule r v z (stop_rule _)

theorem require_good {c : Prop} [Decidable c] {e : Status} {x : Drive Reply} (h : Serves Good x) :
    Serves Good (do require c e; x) :=
  Triple.bind ((require_rule fun _ _ h => h).mono (fun _ hc => hc) (fun _ _ hc => hc.mono fun _ _ h => h.2)
    fun _ _ hc => hc) fun _ => h

theorem checkGuards_rule : Triple (Assert Calm) checkGuards (fun _ => Assert Good) Fail := by
  refine Triple.bind (minor_rule stable_calm.steady _ fun d => ⟨_, _, _, _, rfl⟩) fun _ => ?_
  refine Triple.bind (Triple.attempt (R := fun _ => Assert Good) ((guards_rule stable_calm.steady).mono (fun _ hc => hc)
    (fun _ _ hc => hc.mono fun _ _ h => h.good) fun _ _ hc => hc)) fun _ => Triple.pure fun _ hc => hc

theorem query_rule : Serves Good query := by
  refine driver_rule fun d => Triple.bind (Triple.when (Q := fun _ => Assert Good) (fun unfaulted => ?_)
    fun _ hc _ => hc.mono fun _ _ h => h.2) fun _ => Triple.bind (snapshot_rule stable_good) fun _ => ?_
  · refine checkGuards_rule.mono (fun _ hc => hc.mono ?_) (fun _ _ hc => hc) fun _ _ hc => hc
    rintro d' w ⟨rfl, ⟨boot, -⟩ | calm⟩
    · simp [unfaulted.2] at boot
    · exact calm
  · exact Triple.pure fun _ hc => ⟨hc, trivial⟩

/-- Everything but a query waits for a device that is in order. -/
theorem admitted_rule (r : Request) : Serves Good (do
    require (r.kernelMode = true) .accessDenied
    match r.file with
    | none => stop .deviceNotReady
    | some file => do
      let d ← driver
      require (d.online = true) .deviceNotReady
      require (d.bootFault = false) .deviceHardwareError
      serve r file) := by
  refine require_good ?_
  cases r.file with
  | none => exact Triple.stop fun _ hc => hc
  | some file =>
    refine driver_rule fun d => Triple.bind (require_rule fun _ _ h => h.2) fun _ => ?_
    refine Triple.bind (require_rule fun _ _ h => h.2.2) fun _ => ?_
    refine (serve_rule r file).mono (fun _ hc => hc.mono ?_) (fun _ _ hc => hc) fun _ _ hc => hc
    rintro d' w ⟨unfaulted, -, rfl, ⟨boot, -⟩ | calm⟩
    · simp [unfaulted] at boot
    · exact calm

theorem control_rule (r : Request) : Serves Good (control r) := by
  refine require_good ?_
  split
  · exact require_good query_rule
  · exact require_good (Triple.pure fun _ hc => ⟨hc, trivial⟩)
  · exact require_good (Triple.pure fun _ hc => ⟨hc, trivial⟩)
  · exact admitted_rule r

theorem finish_good : Triple (Assert Good) finish (fun _ => Assert Good) Fail :=
  finish_rule.mono (fun _ hc => hc) (fun _ _ hc => hc.mono fun _ _ h => h.1.good) fun _ _ hc => hc

theorem serveCall_rule (call : Call) : Serves Good (serveCall call) := by
  cases call with
  | control r => exact control_rule r
  | cleanup file =>
    exact done_serves (forget_rule fun d => Triple.when (fun _ => finish_good) fun _ hc _ => hc)
  | entry => exact done_serves (set_rule _ fun d w h => h.imp id fun h => { h with })
  | exit =>
    refine done_serves (Triple.bind (set_rule (B := Good) _ fun d w h => h.imp id fun h => { h with }) fun _ => ?_)
    exact forget_rule fun d => Triple.when (fun _ => finish_good) fun _ hc _ => hc

/-! ### Runs -/

theorem start_good (world : World) : Assert Good (start world) := by
  refine ⟨trivial, .inr ?_⟩
  have none (s : Slot) : ¬(start world).driver.Holds s := by cases s <;> simp [start, Driver.Holds, Object.empty]
  exact {
    unfaulted := rfl
    boot := rfl
    proved := rfl
    free := fun _ _ => rfl
    fences := fun r => Nat.zero_le _
    handles := Nat.zero_le _
    unclaimed := fun _ => ⟨rfl, none⟩
    ownerless := fun _ => ⟨rfl, rfl⟩
    session := fun on => by simp [start] at on
    fixedSession := fun _ => ⟨fun _ => rfl, rfl, rfl⟩
    serial := by simp [start] }

theorem step_good {c : Context} (h : Assert Good c) (call : Call) : Assert Good (step c call) := by
  have := serveCall_rule call h
  unfold step
  rcases hr : (serveCall call).run c with ⟨e | a, c'⟩ <;> rw [hr] at this
  · exact this
  · exact this.1

theorem run_good (world : World) (calls : List Call) : Assert Good (run world calls) := by
  unfold run
  induction calls using List.reverseRecOn with
  | nil => exact start_good world
  | append_singleton calls call ih =>
    rw [List.foldl_append]
    exact step_good ih call

/-! ### What a trace is worth -/

/-- The numbers of the fences of a series, the newest first. -/
def fences (r : Series) : List Event → List ℕ
  | [] => []
  | .fence k _ n :: older => if k = r then n :: fences r older else fences r older
  | _ :: older => fences r older

/-- The event starts a job, gives memory, leases or the device away, or promises something. -/
def Event.Acts : Event → Prop
  | .write b off _ => launch b off ≠ none
  | .allocated _ | .freed _ | .owner _ | .released _ | .created _ | .fence .. => True
  | _ => False

/-- A trace in which nothing was done to the GPU or its memory out of turn. -/
structure Containment (trace : List Event) : Prop where
  started : ∀ newer older b off v, trace = newer ++ .write b off v :: older → launch b off ≠ none →
    (watch older).idle = true
  fenced : ∀ newer older r j n, trace = newer ++ .fence r j n :: older →
    (watch older).Ended j ∧ (watch older).Unfaulted ∧ (watch older).unproved = false
  increasing : ∀ r, (fences r trace).Pairwise (· > ·)
  freed : ∀ newer older s, trace = newer ++ .freed s :: older →
    (watch older).life s = .held ∨ (watch older).life s = .retired ∨ (watch older).quiet = .off
  released : ∀ newer older l, trace = newer ++ .released l :: older → ∀ s, (watch older).life s = .free
  faulted : ∀ newer older e, trace = newer ++ e :: older → .fault ∈ older → ¬e.Acts

/-- What a look at a register or a write can change. -/
theorem Watch.saw_read (older : List Event) (w : Watch) (b : Block) (off : ℕ) (v : BitVec 32) :
    w.saw older (.read b off v) = w ∨ w.saw older (.read b off v) = w.sawMmu v := by
  unfold saw
  split <;> simp_all

theorem Watch.saw_write (older : List Event) (w : Watch) (b : Block) (off : ℕ) (v : BitVec 32) :
    (∃ q, w.saw older (.write b off v) = { w with quiet := q }) ∨ ∃ j, w.saw older (.write b off v) = w.launched j := by
  simp only [saw]
  split
  · exact .inr ⟨_, rfl⟩
  · split
    · exact .inl ⟨_, rfl⟩
    · exact .inl ⟨w.quiet, rfl⟩

@[simp] theorem Watch.faulted_flush (w : Watch) : w.flush.faulted = w.faulted := by unfold flush; split <;> rfl

@[simp] theorem Watch.faulted_invalidate (w : Watch) : w.invalidate.faulted = w.faulted := by
  unfold invalidate; split <;> rfl

@[simp] theorem Watch.fence_flush (w : Watch) : w.flush.fence = w.fence := by unfold flush; split <;> rfl

@[simp] theorem Watch.handle_flush (w : Watch) : w.flush.handle = w.handle := by unfold flush; split <;> rfl

@[simp] theorem Watch.handle_invalidate (w : Watch) : w.invalidate.handle = w.handle := by
  unfold invalidate; split <;> rfl

/-- A fault is for good. -/
theorem Watch.faulted_saw {w : Watch} (h : w.faulted = true) (older : List Event) (e : Event) :
    (w.saw older e).faulted = true := by
  cases e with
  | read b off v => rcases w.saw_read older b off v with eq | eq <;> rw [eq] <;> exact h
  | write b off v => rcases w.saw_write older b off v with ⟨q, eq⟩ | ⟨j, eq⟩ <;> rw [eq] <;> exact h
  | flushed => exact w.faulted_flush.trans h
  | invalidated => exact w.faulted_invalidate.trans h
  | fault => rfl
  | _ => exact h

theorem faulted_of_mem {trace : List Event} (h : .fault ∈ trace) : (watch trace).faulted = true := by
  induction trace with
  | nil => exact absurd h List.not_mem_nil
  | cons e older ih =>
    rcases List.mem_cons.mp h with rfl | h
    · rfl
    · exact Watch.faulted_saw (ih h) older e

/-- Only a fence moves the last fence of its series. -/
theorem Watch.fence_saw (older : List Event) (w : Watch) (r : Series) (e : Event) (h : ∀ j n, e ≠ .fence r j n) :
    (w.saw older e).fence r = w.fence r := by
  cases e with
  | read b off v => rcases w.saw_read older b off v with eq | eq <;> simp only [eq, Watch.sawMmu]
  | write b off v => rcases w.saw_write older b off v with ⟨q, eq⟩ | ⟨j, eq⟩ <;> simp only [eq, Watch.launched]
  | flushed => exact congrFun w.fence_flush r
  | invalidated => exact congrFun w.fence_invalidate r
  | fence k j n =>
    have : r ≠ k := by
      rintro rfl
      exact h j n rfl
    exact Function.update_of_ne this _ _
  | _ => rfl

theorem fences_cons {r : Series} {older : List Event} {e : Event} (h : ∀ j n, e ≠ .fence r j n) :
    fences r (e :: older) = fences r older := by
  cases e with
  | fence k j n =>
    have : k ≠ r := by
      rintro rfl
      exact h j n rfl
    simp [fences, this]
  | _ => rfl

theorem fences_sound {trace : List Event} (r : Series) (contained : Contained trace) :
    (fences r trace).Pairwise (· > ·) ∧ ∀ n ∈ fences r trace, n ≤ (watch trace).fence r := by
  induction trace with
  | nil => exact ⟨.nil, fun n hn => absurd hn List.not_mem_nil⟩
  | cons e older ih =>
    obtain ⟨allowed, contained⟩ := contained
    obtain ⟨increasing, most⟩ := ih contained
    by_cases h : ∃ j n, e = .fence r j n
    · obtain ⟨j, n, rfl⟩ := h
      have last : (watch (.fence r j n :: older)).fence r = n := Function.update_self _ _ _
      have next : (watch older).fence r < n := allowed.2.2.2.2
      simp only [fences, if_true, last]
      refine ⟨List.pairwise_cons.mpr ⟨fun m hm => (most m hm).trans_lt next, increasing⟩, fun m hm => ?_⟩
      rcases List.mem_cons.mp hm with rfl | hm
      · exact le_rfl
      · exact ((most m hm).trans_lt next).le
    · have h' : ∀ j n, e ≠ .fence r j n := fun j n eq => h ⟨j, n, eq⟩
      rw [fences_cons h']
      exact ⟨increasing, fun n hn => (most n hn).trans_eq (Watch.fence_saw older _ r e h').symm⟩

theorem Contained.containment {trace : List Event} (h : Contained trace) : Containment trace where
  started newer older b off v eq starts := by
    obtain ⟨j, hj⟩ := Option.ne_none_iff_exists'.mp starts
    exact ((eq ▸ h).allows j hj).2
  fenced newer older r j n eq := by
    obtain ⟨-, ended, fine, proved, -⟩ := (eq ▸ h : Contained _).allows
    exact ⟨ended, fine, proved⟩
  increasing r := (fences_sound r h).1
  freed newer older s eq := (Admissible.allows (eq ▸ h)).2
  released newer older l eq := (Admissible.allows (eq ▸ h)).2
  faulted newer older e eq fault acts := by
    have allowed : (watch older).Allows e := Admissible.allows (eq ▸ h)
    have faulted := faulted_of_mem fault
    have unfaulted : (watch older).faulted = false := by
      cases e with
      | write b off v =>
        obtain ⟨j, hj⟩ := Option.ne_none_iff_exists'.mp acts
        exact (allowed j hj).1
      | allocated s => exact allowed.1
      | freed s => exact allowed.1
      | owner f => exact allowed
      | released l => exact allowed.1
      | created n => exact allowed.1
      | fence r j n => exact allowed.1
      | _ => exact acts.elim
    simp [faulted] at unfaulted

/-- Whatever a driver over any world is asked, the GPU and its memory are contained,
and a fence that is returned was the last thing to be established. -/
theorem sessions_contained (world : World) (calls : List Call) :
    Containment (run world calls).machine.trace ∧
      ∀ call r n, reply (run world calls) call = .ok (.fence r n) →
        ∃ j older, (step (run world calls) call).machine.trace = .fence r j n :: older := by
  refine ⟨(run_good world calls).1.containment, fun call r n eq => ?_⟩
  have := serveCall_rule call (run_good world calls)
  unfold reply at eq
  unfold step
  rcases hr : (serveCall call).run (run world calls) with ⟨e | a, c⟩ <;> rw [hr] at this eq
  · cases eq
  · cases eq
    exact this.2

end Pi5Drivers.V3d
