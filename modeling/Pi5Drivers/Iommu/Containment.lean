import Pi5Drivers.Iommu.Buffers

/-! What holds in every run of the IOMMU driver, whatever the registers, the allocator
and the consumers do. -/

namespace Pi5Drivers.Iommu

open Effect Recorded

section Execution

variable {A : Driver → Watch → Prop} {α : Type} {P : Context → Prop} {Q : α → Context → Prop} {E : Status → Context → Prop}

/-! ### Executions -/

/-- The unit may translate for the consumer, or there is a fault. -/
def Live (d : Driver) (w : Watch) : Prop := (Driving d ∧ Open none d w ∧ Outside Mine d w ∧ Fresh d w) ∨ Held d w

theorem transfer_rule : Triple (Holds Serving) transfer (fun _ => Holds Live) E := by
  refine Triple.bind (Triple.attempt (R := fun _ => Holds Live) ((result_latch (mmuActivate_rule independent_mine)).mono
    (fun _ hc => hc.mono fun _ _ h => ⟨h.1, h.2.1⟩) (fun _ _ hc => hc.mono fun _ _ h => .inl h)
    fun _ _ hc => hc.mono fun _ _ h => .inr h)) fun s => ?_
  cases s with
  | error e => exact Triple.pure fun _ hc => hc
  | ok _ => exact Triple.bind (ask_rule _) fun t => Triple.pure fun _ hc => hc

theorem demand_held {c : Prop} [Decidable c] (r : Result) :
    Triple (Holds Held) (demand c r) (fun _ => Holds Held) fun _ => Holds Held :=
  Triple.ite (fun _ => pure_rule) fun _ => Triple.bind (setHw_rule (B := Held) _ fun _ _ h => ⟨h.1, h.2.1, rfl⟩) fun _ =>
    Triple.stop fun _ hc => hc

/-- With the fault latched, the unit is not switched off. -/
theorem mmuDeactivate_held (quiesced : Bool) :
    Triple (Holds Held) (mmuDeactivate quiesced) (fun _ => Holds Serving) fun _ => Holds Held := by
  refine look_rule fun d => Triple.bind (require_rule (F := fun _ => Held) fun _ _ _ h => h.2) fun _ => assume_rule fun _ => ?_
  refine Triple.bind ((snapFaults_rule steadfast_held.patient fun _ _ _ _ _ _ _ h => h).mono
    (fun _ hc => hc.mono fun _ _ h => h.2) (fun _ _ hc => hc) fun _ _ hc => hc) fun _ => ?_
  refine Triple.bind (demand_held _) fun _ => look_rule fun d => ?_
  refine Triple.bind (Q := fun _ => Holds fun _ _ => False) (Triple.require (fun c hc fine => ?_) fun _ hc _ => hc.mono fun _ _ h => h.2)
    fun _ c hc => hc.2.elim
  obtain ⟨-, rfl, held⟩ := hc
  simp [held.2.2] at fine

theorem deactivate_rule (quiesced : Bool) :
    Triple (Holds Live) (result (mmuDeactivate quiesced)) (fun _ => Holds Serving) fun _ => Holds Held := by
  refine either_rule (result_latch ((mmuDeactivate_rule independent_mine quiesced).mono (fun _ hc => hc)
    (fun _ _ hc => hc.mono fun _ _ h => ⟨h.1, h.2.1, h.2.2.1⟩) fun _ _ hc => hc)) ?_
  exact result_rule (mmuDeactivate_held quiesced) (fun _ _ _ h => h) fun _ _ h _ => h

theorem switchOff_rule (stopped : Except Status Unit) : Triple (Holds Live) (switchOff stopped) (fun _ => Holds Kept) E := by
  refine Triple.bind (Triple.attempt (R := fun _ => Holds Kept) ((deactivate_rule _).mono (fun _ hc => hc)
    (fun _ _ hc => hc.mono fun _ _ h => .inr h) fun _ _ hc => hc.mono fun _ _ h => .inl h)) fun off => ?_
  refine Triple.bind (Triple.attempt (R := fun _ => Holds Kept) ?_) fun _ => Triple.pure fun _ hc => hc
  cases stopped with
  | ok _ => exact pure_rule
  | error e => exact (quarantine_rule e).mono (fun _ hc => hc) (fun _ _ hc => hc) fun _ _ hc => hc.mono fun _ _ h => .inl h

theorem inspect_rule : Triple (Holds A) inspect (fun _ => Holds A) fun _ => Holds Held := by
  refine Triple.bind (Triple.each fun i _ => glance_rule fun d => Triple.when (fun _ => checkGuards_rule i) fun _ hc _ => hc)
    fun _ => ask_rule _

theorem inspectStopped_rule (stopped status : Except Status Unit) :
    Triple (Holds Kept) (inspectStopped stopped status) (fun _ => Holds Kept) E := by
  refine glance_rule fun d => Triple.ite (fun _ => ?_) fun _ => Triple.pure fun _ hc => hc
  refine Triple.bind (Triple.attempt (R := fun _ => Holds Kept) (inspect_rule.mono (fun _ hc => hc) (fun _ _ hc => hc)
    fun _ _ hc => hc.mono fun _ _ h => .inl h)) fun s => ?_
  cases s with
  | ok n => exact Triple.pure fun _ hc => hc
  | error e => exact Triple.pure fun _ hc => hc

/-- What is only reported. -/
theorem Kept.report {d : Driver} {w : Watch} (h : Kept d w) (online : Bool) (executions : ℕ) (status : Option Status) :
    Kept { d with online := online, executions := executions, lastStatus := status } w := by
  rcases h with h | ⟨ready, ⟨opened, outside⟩, fresh⟩
  · exact .inl h
  · exact .inr ⟨ready, ⟨{ opened with }, outside⟩, fresh⟩

theorem Good.report {d : Driver} {w : Watch} (h : Good d w) (online : Bool) (executions : ℕ) (status : Option Status) :
    Good { d with online := online, executions := executions, lastStatus := status } w := by
  rcases h with h | h | h
  · exact .inl h
  · exact (Kept.report (.inr h) online executions status).good
  · exact .inr (.inr h)

theorem conclude_rule (status : Except Status Unit) (p t q : BitVec 32) (n : ℕ) :
    Triple (Holds Kept) (conclude status p t q n) (fun _ => Holds Kept) E :=
  glance_rule fun _ => Triple.bind (change_rule (B := Kept) _ fun d _ h => h.report d.online d.executions _) fun _ => pure_rule

theorem execute_rule : Triple (Holds Serving) execute (fun _ => Holds Kept) E := by
  refine Triple.attempt_bind (Q := fun _ => Holds Serving) (E := fun _ => Holds Kept) ?_ (fun _ => ?_) fun e => ?_
  · refine Triple.bind check_kept fun _ => glance_rule fun d => ?_
    refine (require_rule (F := fun _ => Kept) fun _ _ _ h => .inr h.1).mono (fun _ hc => hc)
      (fun _ _ hc => hc.mono fun _ _ h => h.2.1) fun _ _ hc => hc
  rotate_left
  · exact conclude_rule _ _ _ _ _
  · refine Triple.bind (ask_rule _) fun p => ?_
    cases judge p with
    | error e => exact (conclude_rule _ _ _ _ _).mono (fun _ hc => hc.mono fun _ _ h => .inr h) (fun _ _ hc => hc) fun _ _ hc => hc
    | ok _ =>
      refine Triple.bind (change_rule (B := Serving) _ fun d w h => ⟨h.1, ⟨{ h.2.1.1 with }, h.2.1.2⟩, h.2.2⟩) fun _ => ?_
      refine Triple.bind transfer_rule fun _ => Triple.bind (ask_rule _) fun q => ?_
      refine Triple.bind (switchOff_rule _) fun off => Triple.bind (inspectStopped_rule _ _) fun _ => conclude_rule _ _ _ _ _

end Execution

/-! ### Requests -/

/-- A request keeps what holds between requests. -/
def Keeps (A : Driver → Watch → Prop) {α : Type} (x : Drive α) : Prop :=
  Triple (Holds A) x (fun _ => Holds Good) fun _ => Holds Good

theorem keeps_of_serving {α : Type} {x : Drive α} (h : Triple (Holds Serving) x (fun _ => Holds Serving) fun _ => Holds Kept) :
    Keeps Serving x :=
  h.mono (fun _ hc => hc) (fun _ _ hc => hc.mono fun _ _ h => .inr (.inl h)) fun _ _ hc => hc.mono fun _ _ h => h.good

theorem keeps_done {A : Driver → Watch → Prop} {x : Drive Unit} (h : Keeps A x) : Keeps A (done x) :=
  Triple.bind h fun _ => pure_rule

theorem walk_rule (address : ℕ) (write : Bool) :
    Triple (Holds Serving) (walk address write) (fun _ => Holds Serving) fun _ => Holds Kept := by
  refine Triple.bind check_kept fun _ => glance_rule fun d => ?_
  cases mmuWalk d.table address write with
  | ok dma => exact Triple.pure fun _ hc => hc.mono fun _ _ h => h.1
  | error e =>
    refine Triple.bind (settle_rule (B := Serving) (C := Checked) e (fun ⟨d, w, h, fault⟩ => ?_) fun _ _ h _ => .inr h.1) fun _ =>
      pure_rule
    exact absurd fault (by simp [h.1.1.1])

theorem sync_rule : Triple (Holds Serving) (result mmuInvalidate) (fun _ => Holds Serving) fun _ => Holds Kept :=
  (result_latch invalidate_rule).mono (fun _ hc => hc.mono fun _ _ h => ⟨h.1, h.2.1⟩)
    (fun _ _ hc => hc.mono fun _ _ h => ⟨h.1, h.2.1, h.2.2.1⟩) fun _ _ hc => hc.mono fun _ _ h => .inl h

theorem serveOwner_rule (r : Request) (valid : ValidRequest r.fields r.code) : Keeps Serving (serveOwner r) := by
  unfold serveOwner
  cases code : r.code with
  | execute => exact execute_rule.mono (fun _ hc => hc) (fun _ _ hc => hc.mono fun _ _ h => h.good) fun _ _ hc => hc
  | allocate =>
    rw [code] at valid
    exact keeps_of_serving (allocate_rule valid.2.2.1 _)
  | free => exact keeps_of_serving (retire_rule _ _)
  | retire => exact keeps_of_serving (retire_rule _ _)
  | sync => exact keeps_done (keeps_of_serving sync_rule)
  | finish =>
    exact keeps_done (finish_rule.mono (fun _ hc => hc) (fun _ _ hc => hc.mono fun _ _ h => .inr (.inr h))
      fun _ _ hc => hc.mono fun _ _ h => h.good)
  | walk => exact keeps_of_serving (walk_rule _ _)
  | query => exact Triple.pure fun _ hc => hc.mono fun _ _ h => .inr (.inl h)
  | begin => exact Triple.pure fun _ hc => hc.mono fun _ _ h => .inr (.inl h)

/-- A session that has an owner gets no other. -/
theorem begin_busy (file : ℕ) : Keeps Serving (begin file) := by
  refine look_rule fun d => Triple.bind (require_rule (F := fun _ => Good) fun _ _ _ h => .inr (.inl h.2)) fun _ =>
    assume_rule fun _ => Triple.bind (Q := fun _ => Holds fun _ _ => False) (Triple.require (fun c hc free => ?_)
      fun _ hc _ => hc.mono fun _ _ h => .inr (.inl h.2)) fun _ c hc => hc.2.elim
  obtain ⟨-, rfl, serving⟩ := hc
  exact absurd free serving.2.1.2.2.2.1

theorem serve_rule (r : Request) (file : ℕ) (valid : ValidRequest r.fields r.code) : Keeps Good (serve r file) := by
  refine look_rule fun d => Triple.bind (require_rule (F := fun _ => Good) fun _ _ _ h => h.2) fun _ =>
    assume_rule fun fine => Triple.ite (fun _ => ?_) fun _ => ?_
  · have both : Keeps (fun d w => Serving d w ∨ Closed none d w) (begin file) :=
      either_rule (begin_busy file) ((begin_rule file).mono (fun _ hc => hc) (fun _ _ hc => hc.mono fun _ _ h => .inr (.inl h))
        fun _ _ hc => hc)
    refine (keeps_done both).mono (fun _ hc => hc.mono ?_) (fun _ _ hc => hc) fun _ _ hc => hc
    rintro d' w ⟨rfl, held | h⟩
    · simp [held.1] at fine
    · exact h
  · refine Triple.bind (require_rule (F := fun _ => Good) fun _ _ _ h => h.2) fun _ => assume_rule fun mine => ?_
    refine (serveOwner_rule r valid).mono (fun _ hc => hc.mono ?_) (fun _ _ hc => hc) fun _ _ hc => hc
    rintro d' w ⟨rfl, held | serving | closed⟩
    · simp [held.1] at fine
    · exact serving
    · have := closed.2.1.2.2.1
      simp [this] at mine

theorem recordStatus_rule (code : Code) {x : Drive Reply} (h : Keeps Good x) : Keeps Good (recordStatus code x) := by
  refine Triple.bind (Triple.attempt (R := fun _ => Holds Good) h) fun s => ?_
  refine Triple.bind (change_rule (B := Good) _ fun d _ h => h.report d.online d.executions _) fun _ => ?_
  exact Triple.ofExcept (fun _ _ hc => hc) fun _ _ hc => hc

theorem query_rule : Keeps Good query := by
  refine Triple.bind (Triple.each fun i _ => Triple.each fun j _ => Triple.bind (read_rule steadfast_good.patient _ _) fun _ =>
    pure_rule) fun _ => ?_
  exact Triple.bind (read_rule steadfast_good.patient _ _) fun _ => pure_rule

theorem require_good {α : Type} {p : Prop} [Decidable p] {e : Status} {x : Drive α} (h : p → Keeps Good x) :
    Keeps Good (do require p e; x) :=
  Triple.bind (require_rule (F := fun _ => Good) fun _ _ _ h => h) fun _ => assume_rule h

theorem request_rule (r : Request) : Keeps Good (control r) := by
  refine Triple.ite (fun _ => ?_) fun _ => ?_
  · exact require_good fun _ => glance_rule fun d => require_good fun _ => query_rule
  · refine require_good fun _ => ?_
    cases r.file with
    | none => exact Triple.stop fun _ hc => hc
    | some file =>
      exact require_good fun valid => glance_rule fun d => require_good fun _ =>
        recordStatus_rule r.code (serve_rule r file valid.2.1)

/-! ### Files and power -/

theorem freeAll_rule (l : List (Fin 16)) {E : Status → Context → Prop} :
    Triple (Holds Kept) (freeAll l) (fun _ => Holds Kept) E := by
  induction l with
  | nil => exact pure_rule
  | cons i l ih =>
    refine look_rule fun d => Triple.ite (fun _ => Triple.pure fun _ hc => hc.mono fun _ _ h => h.2) fun fine => ?_
    rcases there : d.memory (.buffer i) with _ | b
    · exact ih.mono (fun _ hc => hc.mono fun _ _ h => h.2) (fun _ _ hc => hc) fun _ _ hc => hc
    · refine Triple.bind (Triple.attempt (R := fun _ => Holds Kept) ((retire_rule _ _).mono (fun _ hc => hc.mono ?_)
        (fun _ _ hc => hc.mono fun _ _ h => .inr h) fun _ _ hc => hc)) fun s => ?_
      · rintro d' w ⟨rfl, held | serving⟩
        · exact absurd held.1 fine
        · exact serving
      · cases s with
        | ok _ => exact ih
        | error e => exact pure_rule

theorem finishOrHold_rule {E : Status → Context → Prop} :
    Triple (Holds Kept) finishOrHold (fun _ => Holds fun d w => Held d w ∨ Closed none d w) E := by
  refine look_rule fun d => Triple.when (fun fine => ?_) fun _ hc fault => hc.mono ?_
  · refine Triple.attempt_bind (finish_rule.mono (fun _ hc => hc.mono ?_) (fun _ _ hc => hc) fun _ _ hc => hc) (fun _ => ?_) fun e => ?_
    · rintro d' w ⟨rfl, held | serving⟩
      · simp [held.1] at fine
      · exact serving
    · exact Triple.pure fun _ hc => hc.mono fun _ _ h => .inr h
    · refine look_rule fun d => Triple.when (fun _ => (hold_rule e).mono (fun _ hc => hc) (fun _ _ hc => hc.mono fun _ _ h => .inl h)
        fun _ _ hc => hc) fun _ hc fault => hc.mono ?_
      rintro d' w ⟨rfl, held | serving⟩
      · exact .inl held
      · exact absurd serving.2.1.2.2.1 fault
  · rintro d' w ⟨rfl, held | serving⟩
    · exact .inl held
    · exact absurd serving.2.1.2.2.1 fault

theorem cleanup_rule (file : ℕ) : Keeps Good (cleanup file) := by
  refine look_rule fun d => Triple.when (fun mine => ?_) fun _ hc _ => hc.mono fun _ _ h => h.2
  refine Triple.bind ((freeAll_rule slots).mono (fun _ hc => hc.mono ?_) (fun _ _ hc => hc) fun _ _ hc => hc) fun _ => ?_
  · rintro d' w ⟨rfl, held | serving | closed⟩
    · exact .inl held
    · exact .inr serving
    · have := closed.2.1.2.2.1
      simp [this] at mine
  refine Triple.bind finishOrHold_rule fun _ => change_rule _ ?_
  rintro d w (held | closed)
  · exact .inl held
  · exact .inr (.inr ⟨closed.1, ⟨closed.2.1.1, closed.2.1.2.1, rfl, closed.2.1.2.2.2⟩, closed.2.2⟩)

theorem exit_rule : Keeps Good exit := by
  refine Triple.bind (change_rule (B := Good) _ fun d _ h => h.report _ d.executions d.lastStatus) fun _ => glance_rule fun d => ?_
  refine Triple.when (fun _ => (hold_rule _).mono (fun _ hc => hc) (fun _ _ hc => hc.mono fun _ _ h => .inl h) fun _ _ hc => hc)
    fun _ hc _ => hc

theorem serveCall_rule (call : Call) : Keeps Good (serveCall call) := by
  cases call with
  | control r => exact request_rule r
  | cleanup file => exact keeps_done (cleanup_rule file)
  | entry => exact keeps_done (change_rule _ fun d _ h => h.report _ d.executions d.lastStatus)
  | exit => exact keeps_done exit_rule

/-! ### Runs -/

theorem start_good (world : World) : Holds Good (start world) :=
  ⟨trivial, .inr (.inr ⟨⟨rfl, rfl, rfl⟩, ⟨rfl, rfl, rfl, rfl, fun _ => rfl⟩, fun _ => rfl⟩)⟩

theorem step_good {c : Context} (h : Holds Good c) (call : Call) : Holds Good (step c call) := by
  have := serveCall_rule call h
  unfold step
  rcases hr : (serveCall call).run c with ⟨e | a, c'⟩ <;> rw [hr] at this <;> exact this

theorem run_good (world : World) (calls : List Call) : Holds Good (run world calls) := by
  unfold run
  induction calls using List.reverseRecOn with
  | nil => exact start_good world
  | append_singleton calls call ih =>
    rw [List.foldl_append]
    exact step_good ih call

/-! ### What may be freed -/

theorem saw_faulted {w : Watch} (h : w.faulted = true) (e : Event) : (w.saw e).faulted = true := by
  cases e with
  | read unit off v => by_cases mmu : unit = 1 <;> simp [Watch.saw, mmu, Watch.sawRead, h]
  | write unit off v => by_cases mmu : unit = 1 <;> simp [Watch.saw, mmu, Watch.sawWrite, h]
  | allocated m => cases m <;> exact h
  | fault => rfl
  | _ => exact h

theorem faulted_of_mem {trace : List Event} (h : .fault ∈ trace) : (observer.watch trace).faulted = true := by
  induction trace with
  | nil => cases h
  | cons e older ih =>
    rcases List.mem_cons.mp h with rfl | h
    · rfl
    · exact saw_faulted (ih h) e

/-- A buffer goes when its entries are zero and were flushed, and the unit was seen off. -/
def BuffersRetired (trace : List Event) : Prop :=
  ∀ newer older i, trace = newer ++ .freed (.buffer i) :: older → (observer.watch older).Retired i

/-- The tables and the trap page go when the unit was never given anything since there is
a root, or when it was given back what it was found with and everything was flushed. -/
def TablesWithdrawn (trace : List Event) : Prop :=
  ∀ newer older m, trace = newer ++ .freed m :: older → (∀ i, m ≠ .buffer i) →
    (observer.watch older).Untouched ∨ (observer.watch older).Withdrawn

/-- What does not happen to memory and owner in a quarantine. -/
def Event.Barred : Event → Prop
  | .allocated _ | .freed _ | .owner _ => True
  | _ => False

/-- After a fault no memory comes or goes, and nobody gets the unit. -/
def Quarantined (trace : List Event) : Prop :=
  ∀ newer older e, trace = newer ++ e :: older → .fault ∈ older → ¬e.Barred

theorem buffers_retired {trace : List Event} (h : observer.InOrder trace) : BuffersRetired trace := by
  rintro newer older i rfl
  exact h.allows.2

theorem tables_withdrawn {trace : List Event} (h : observer.InOrder trace) : TablesWithdrawn trace := by
  rintro newer older m rfl table
  have := h.allows
  cases m with
  | buffer i => exact absurd rfl (table i)
  | _ => exact this.2

theorem quarantined {trace : List Event} (h : observer.InOrder trace) : Quarantined trace := by
  rintro newer older e rfl fault barred
  have allowed : (observer.watch older).Allows e := h.allows
  have faulted := faulted_of_mem fault
  have unfaulted : (observer.watch older).faulted = false := by
    cases e with
    | allocated m => exact allowed
    | freed m => cases m <;> exact allowed.1
    | owner file => exact allowed
    | _ => exact barred.elim
  simp [faulted] at unfaulted

/-! ### Requests after a fault -/

theorem held_of_faulted {c : Context} (h : Holds Good c) (fault : .fault ∈ c.trace) : Holds Held c := by
  have faulted := faulted_of_mem fault
  refine ⟨h.1, ?_⟩
  rcases h.2 with held | serving | closed
  · exact held
  · simp [serving.2.1.2.1] at faulted
  · simp [closed.2.1.1] at faulted

/-- A program that never returns from where there is a fault. -/
def Refused {α : Type} (x : Drive α) : Prop := Triple (Holds Held) x (fun _ _ => False) fun _ _ => True

theorem require_refused {α : Type} {p : Prop} [Decidable p] {e : Status} {x : Drive α} (h : Refused x) :
    Refused (do require p e; x) :=
  Triple.bind (Q := fun _ => Holds Held) (Triple.require (fun _ hc _ => hc) fun _ _ _ => trivial) fun _ => h

theorem serve_refused (r : Request) (file : ℕ) : Refused (serve r file) := by
  refine look_rule fun d => Triple.bind (Q := fun _ _ => False) (Triple.require (fun c hc fine => ?_) fun _ _ _ => trivial)
    fun _ _ h => h.elim
  obtain ⟨-, rfl, held⟩ := hc
  simp [held.1] at fine

theorem recordStatus_refused (code : Code) {x : Drive Reply} (h : Refused x) : Refused (recordStatus code x) := by
  refine Triple.bind (Triple.attempt (R := fun s _ => ∃ e, s = .error e) (h.mono (fun _ hc => hc)
    (fun _ _ h => h.elim) fun e _ _ => ⟨e, rfl⟩)) fun s => ?_
  refine Triple.bind (Triple.modify (Q := fun _ _ => ∃ e, s = .error e) fun _ h => h) fun _ => ?_
  rintro c ⟨e, rfl⟩
  trivial

theorem request_refused {r : Request} (h : r.code ≠ .query) : Refused (control r) := by
  refine Triple.ite (fun query => absurd query h) fun _ => require_refused ?_
  cases r.file with
  | none => exact Triple.stop fun _ _ => trivial
  | some file =>
    exact require_refused <| glance_rule fun d => require_refused <| recordStatus_refused _ <| serve_refused r file

/-- Whatever a driver over any world is asked, memory goes only when the unit cannot
reach it, and after a fault nothing comes or goes and every request is refused. -/
theorem memory_contained (world : World) (calls : List Call) :
    let trace := (run world calls).trace
    BuffersRetired trace ∧ TablesWithdrawn trace ∧ Quarantined trace ∧
      (.fault ∈ trace → ∀ r, r.code ≠ .query → ∃ e, reply (run world calls) (.control r) = .error e) := by
  have good := run_good world calls
  refine ⟨buffers_retired good.1, tables_withdrawn good.1, quarantined good.1, fun fault r other => ?_⟩
  have refused := request_refused other (held_of_faulted good fault)
  change ∃ e, ((control r).run (run world calls)).1 = .error e
  rcases hr : (control r).run (run world calls) with ⟨e | a, c⟩ <;> rw [hr] at refused
  · exact ⟨e, rfl⟩
  · exact refused.elim

/-! ### Tables that were never flushed -/

/-- Every entry is zero and was flushed since, and the unit was seen switched off. -/
def Watch.Cleared (w : Watch) : Prop := (∀ k, w.table k = 0 ∧ w.stale k = false) ∧ w.control = some 0

/-- Memory of every kind goes only after a flush. -/
def FlushedFirst (trace : List Event) : Prop :=
  ∀ newer older m, trace = newer ++ .freed m :: older →
    match m with
    | .buffer i => (observer.watch older).Retired i
    | _ => (observer.watch older).Cleared

/-- A world with memory for the tables but none for the trap page. -/
def shortOfMemory : World where
  register := fun _ _ _ => 0
  allocate := fun t _ => if t < 2 then some (0xb00000000 + t * mmuPage, true) else none
  intact := fun _ _ => true
  callback := fun _ _ => 0
  trapWords := fun _ => 0

/-- A session that is asked for in it. -/
def beginSession : Call :=
  .control
    { code := .begin, fields := ⟨1, 4, 0, 0, 0, 0⟩, file := some 1, kernelMode := true, sized := true, callbacks := false }

/-- The tables of a session that could not begin go without a flush: the unit was not
yet pointed to them. -/
theorem tables_freed_unflushed : ¬∀ world calls, FlushedFirst (run world calls).trace := by
  intro h
  have trace : (run shortOfMemory [.entry, beginSession]).trace =
      [.freed .l2] ++ .freed .root :: [.allocated .l2, .allocated .root] := by decide +kernel
  have cleared := h _ _ _ _ _ trace
  exact absurd (cleared.1 0).2 (by decide)

end Pi5Drivers.Iommu
