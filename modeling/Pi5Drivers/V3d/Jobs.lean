import Pi5Drivers.V3d.Session

/-! The jobs of the V3D driver: from a check of the idle engine to the fence. -/

namespace Pi5Drivers.V3d

open Effect

variable {α : Type} {A : Driver → Watch → Prop} {E : Status → Context → Prop} {r : Series}

/-! ### A driver without a fault, through the sequences -/

theorem Watch.life_advance {w : Watch} {a b : Life} (ha : a ≠ .free) {s : Slot} (h : w.life s = .free) :
    (w.advance a b).life s = .free := by
  simp only [Watch.advance, h]
  rw [if_neg (fun eq => ha eq.symm)]

theorem Calm.sawIdle {d : Driver} {w : Watch} (h : Calm d w) : Calm d w.sawIdle :=
  h.of_watch rfl rfl (fun _ h => h) rfl rfl

theorem Calm.quiet {d : Driver} {w : Watch} {q : Quiet} (h : Calm d w) : Calm d { w with quiet := q } :=
  h.of_watch rfl rfl (fun _ h => h) rfl rfl

theorem Calm.invalidate {d : Driver} {w : Watch} (h : Calm d w) : Calm d w.invalidate := by
  unfold Watch.invalidate
  split
  · exact h.of_watch rfl rfl (fun _ hs => Watch.life_advance (by decide) hs) rfl rfl
  · exact h

theorem Calm.flush {d : Driver} {w : Watch} (h : Calm d w) : Calm d w.flush := by
  unfold Watch.flush
  split
  · exact h.of_watch rfl rfl (fun _ hs => Watch.life_advance (by decide) hs) rfl rfl
  · exact h

@[simp] theorem Watch.fence_invalidate (w : Watch) : w.invalidate.fence = w.fence := by
  unfold Watch.invalidate; split <;> rfl

@[simp] theorem Watch.job_invalidate (w : Watch) : w.invalidate.job = w.job := by
  unfold Watch.invalidate; split <;> rfl

@[simp] theorem Watch.seen_invalidate (w : Watch) : w.invalidate.seen = w.seen := by
  unfold Watch.invalidate; split <;> rfl

@[simp] theorem Watch.idle_invalidate (w : Watch) : w.invalidate.idle = w.idle := by
  unfold Watch.invalidate; split <;> rfl

@[simp] theorem Watch.unproved_invalidate (w : Watch) : w.invalidate.unproved = w.unproved := by
  unfold Watch.invalidate; split <;> rfl

theorem Calm.launched {d : Driver} {w : Watch} {j : Job} (h : Calm d w) (hj : j ≠ .bin) : Calm d (w.launched j) :=
  h.of_watch rfl (by simp [Watch.launched, hj, h.proved]) (fun _ h => h) rfl rfl

theorem drained_rule : Triple (Assert Calm) (contain (hw v3dDrain)) (fun _ => Assert fun d w => Calm d w ∧ w.idle = true)
    Fail :=
  contain_hw (fun _ => v3dDrain_at) fun _ _ h => ⟨h.sawIdle.quiet, rfl⟩

theorem idle_rule : Triple (Assert Calm) (contain (hw v3dIdle)) (fun _ => Assert fun d w => Calm d w ∧ w.idle = true)
    Fail :=
  contain_hw (fun _ => v3dIdle_at) fun _ _ h => ⟨h.sawIdle, rfl⟩

theorem invalidated_rule : Triple (Assert fun d w => Calm d w ∧ w.idle = true) (contain (hw v3dInvalidate))
    (fun _ => Assert fun d w => Calm d w ∧ w.idle = true) Fail :=
  contain_hw (fun _ => v3dInvalidate_at) fun _ _ h => ⟨h.1.sawIdle.invalidate, by simp [Watch.sawIdle]⟩

theorem steady_ready : Steady fun d w => Calm d w ∧ w.idle = true := (stable_calm.and stable_idle).steady

/-! ### One job -/

/-- The submission is counted, and newer than the last fence. -/
def Ahead (r : Series) (d : Driver) (w : Watch) : Prop := w.fence r < d.submitted r

/-- A job may start. -/
def Ready (r : Series) (d : Driver) (w : Watch) : Prop := Calm d w ∧ w.idle = true ∧ Ahead r d w

def Running (r : Series) (j : Job) (d : Driver) (w : Watch) : Prop := Calm d w ∧ w.job = some j ∧ Ahead r d w

/-- The last binning job is either done with or known to have ended well. -/
def Binned (d : Driver) (w : Watch) : Prop :=
  Calm d { w with unproved := false } ∧ (w.unproved = true → w.Ended .bin)

theorem stable_ready : Stable (Ready r) := stable_calm.and (stable_idle.and (stable_ahead r))

theorem stable_running (j : Job) : Stable (Running r j) := stable_calm.and ((stable_job _).and (stable_ahead r))

/-- How the hardware is told to start a job. -/
def Starts (j : Job) (submit : Effect Machine Status Unit) : Prop :=
  ∀ w : Watch, w.faulted = false ∧ w.idle = true → Triple (At w) submit (fun _ => At (w.launched j)) fun _ _ => False

theorem launch_rule {j : Job} {submit : Effect Machine Status Unit} (starts : Starts j submit) (hj : j ≠ .bin) :
    Triple (Assert (Ready r)) (on submit) (fun _ => Assert (Running r j)) E :=
  on_exact (f := fun _ w => w.launched j) (fun _ w h => starts w ⟨h.1.unfaulted, h.2.1⟩)
    fun _ _ _ h => ⟨h.1.launched hj, rfl, h.2.2⟩

theorem contain_require {c : Prop} [Decidable c] {e : Status} :
    Triple (Assert A) (contain (require c e)) (fun _ => Assert A) Fail :=
  contain_rule (Triple.require (fun _ hc _ => hc) fun _ hc _ => ⟨hc.1, trivial⟩)

theorem rest_rule {j : Job} : Triple (Assert (Running r j)) (contain (hw v3dDrain)) (fun _ => Assert (Running r j)) Fail :=
  contain_hw (fun _ => v3dDrain_at) fun _ _ h => ⟨h.1.sawIdle.quiet, h.2⟩

/-- The pending words are compared with what the job should have raised. -/
theorem exact_rule {j : Job} (stable : Stable A) (job : ∀ d w, A d w → w.job = some j) :
    Triple (Assert A) (contain (on (exact j))) (fun _ => Assert fun d w => A d w ∧ w.Ended j) Fail := by
  refine contain_rule (on_rule fun d w ha => ?_)
  refine Triple.bind (inspect_at .hub) fun hub => Triple.bind (Q := fun _ m => hub = j.done .hub ∧
    At { w with seen := Function.update w.seen .hub (some hub) } m)
    (Triple.require (fun _ hm yes => ⟨yes, hm⟩) fun _ hm _ => ⟨_, hm, trivial⟩) fun _ => Triple.assume fun hh => ?_
  refine Triple.bind (inspect_at .core) fun core => Triple.require (fun m hm hc => ?_) fun _ hm _ => ⟨_, hm, trivial⟩
  have looks := (looks_seen w .hub hub).trans (looks_seen _ .core core)
  refine ⟨_, hm, stable ha (.refl d) looks, job _ _ (stable ha (.refl d) looks), fun u => ?_⟩
  cases u with
  | hub => simp [hh]
  | core => simp [hc]

theorem Watch.Ended.sawMmu {w : Watch} {j : Job} (h : w.Ended j) (v : BitVec 32) : (w.sawMmu v).Ended j := h

/-- The MMU is looked at last. -/
theorem mmuFine_rule {j : Job} (stable : Stable A) :
    Triple (Assert fun d w => A d w ∧ w.Ended j) (contain (on mmuFine))
      (fun _ => Assert fun d w => A d w ∧ w.Ended j ∧ w.Unfaulted) Fail := by
  refine contain_rule (on_rule fun d w ha => ?_)
  refine Triple.bind readMmu_at fun v => Triple.require (fun m hm fine => ?_) fun _ hm _ => ⟨_, hm, trivial⟩
  exact ⟨_, hm, stable ha.1 (.refl d) (looks_mmu w v), ha.2.sawMmu v, v, rfl, fine⟩

/-- What holds when a fence is given. -/
def Over (r : Series) (j : Job) (d : Driver) (w : Watch) : Prop := Running r j d w ∧ w.Ended j ∧ w.Unfaulted

theorem steady_over (j : Job) : Steady (Over r j) :=
  (stable_running j).steady.and (steady_watch fun w => w.Ended j ∧ w.Unfaulted)

theorem fence_rule {j : Job} (n : ℕ) :
    Triple (Assert fun d w => n = d.submitted r ∧ Over r j d w) (on (note (.fence r j n))) (fun _ => Assert Calm) E := by
  refine note_rule (f := fun w => { w with fence := Function.update w.fence r n }) (fun _ _ => rfl) ?_ ?_
  · rintro d w ⟨rfl, ⟨calm, -, ahead⟩, ended, fine⟩
    exact ⟨calm.unfaulted, ended, fine, calm.proved, ahead⟩
  · rintro d w ⟨rfl, ⟨calm, -, -⟩, -, -⟩
    refine { calm with fences := fun k => ?_ }
    by_cases h : k = r
    · subst h
      simp
    · simpa [Function.update_of_ne h] using calm.fences k

/-- A counter of completed work takes the number of the submission. -/
theorem complete_rule {j : Job} (f : Driver → Driver) (steps : ∀ d w, Over r j d w → Over r j (f d) w)
    (completed : Driver → ℕ) (h : ∀ d, completed (f d) = (f d).submitted r) :
    Triple (Assert (Over r j)) (do
      set f
      let d ← driver
      on (note (.fence r j (completed d)))
      pure (Reply.fence r (completed d))) (fun a c => Assert Calm c ∧ Answered c a) E := by
  refine Triple.bind (set_rule (B := fun d w => completed d = d.submitted r ∧ Over r j d w) f
    fun d w ended => ⟨h d, steps d w ended⟩) fun _ => driver_rule fun d => ?_
  refine Triple.bind ((note_head (fence_rule (completed d))).mono (fun _ hc => hc.mono ?_) (fun _ _ hc => hc)
    fun _ _ hc => hc) fun _ => Triple.pure fun _ hc => ⟨hc.1, j, hc.2⟩
  rintro d' w ⟨rfl, eq, ended⟩
  exact ⟨eq, ended⟩

/-! ### Binning and rendering -/

/-- A binning job is under way. -/
def Opened (r : Series) (d : Driver) (w : Watch) : Prop :=
  Calm d { w with unproved := false } ∧ w.job = some .bin ∧ Ahead r d w

theorem stable_opened : Stable (Opened r) := by
  rintro d _ w _ ⟨h, job, ahead⟩ ⟨i, g, f, s, rfl⟩ ⟨se, m, q, rfl, -⟩
  exact ⟨{ h with }, job, ahead⟩

theorem binJob_rule {submit : Effect Machine Status Unit} (starts : Starts .bin submit) :
    Triple (Assert (Ready r)) (binJob submit) (fun _ => Assert fun d w => Binned d w ∧ Ahead r d w) Fail := by
  refine Triple.bind (read_rule stable_ready _ _) fun before => ?_
  refine Triple.bind (arm_rule stable_ready.steady) fun _ => ?_
  refine Triple.bind (on_exact (f := fun _ w => w.launched .bin) (B := fun _ => Opened r)
    (fun _ w h => starts w ⟨h.1.unfaulted, h.2.1⟩) fun d w _ h => ⟨?_, rfl, h.2.2⟩) fun _ => ?_
  · exact h.1.of_watch rfl (by simp [h.1.proved]) (fun _ h => h) rfl rfl
  refine Triple.bind (wait_rule stable_opened 0 2) fun s => ?_
  iterate 3 refine Triple.bind (read_rule stable_opened _ _) fun _ => ?_
  refine Triple.bind (snapshot_rule stable_opened) fun _ => ?_
  refine Triple.bind (settle_rule s) fun _ => ?_
  refine Triple.bind contain_require fun _ => ?_
  refine (exact_rule stable_opened fun _ _ h => h.2.1).mono (fun _ hc => hc) (fun _ _ hc => hc.mono ?_) fun _ _ hc => hc
  exact fun d w h => ⟨⟨h.1.1, fun _ => h.2⟩, h.1.2.2⟩

theorem Calm.binned {d : Driver} {w : Watch} (h : Calm d w) : Binned d w :=
  ⟨h.of_watch rfl h.proved.symm (fun _ h => h) rfl rfl, fun proved => absurd h.proved (by simp [proved])⟩

theorem Ready.binned {d : Driver} {w : Watch} (h : Ready r d w) : (Binned d w ∧ w.idle = true) ∧ Ahead r d w :=
  ⟨⟨h.1.binned, h.2.1⟩, h.2.2⟩

theorem Binned.sawIdle {d : Driver} {w : Watch} (h : Binned d w) : Binned d w.sawIdle :=
  ⟨h.1.of_watch rfl rfl (fun _ h => h) rfl rfl, h.2⟩

theorem Binned.quiet {d : Driver} {w : Watch} {q : Quiet} (h : Binned d w) : Binned d { w with quiet := q } :=
  ⟨h.1.of_watch rfl rfl (fun _ h => h) rfl rfl, h.2⟩

theorem Binned.invalidate {d : Driver} {w : Watch} (h : Binned d w) : Binned d w.invalidate := by
  unfold Watch.invalidate
  split
  · exact ⟨h.1.of_watch rfl rfl (fun _ hs => Watch.life_advance (by decide) hs) rfl rfl, h.2⟩
  · exact h

theorem binnedDrain_rule : Triple (Assert fun d w => Binned d w ∧ Ahead r d w) (contain (hw v3dDrain))
    (fun _ => Assert fun d w => (Binned d w ∧ w.idle = true) ∧ Ahead r d w) Fail :=
  contain_hw (fun _ => v3dDrain_at) fun _ _ h => ⟨⟨h.1.sawIdle.quiet, rfl⟩, h.2⟩

theorem binnedInvalidate_rule :
    Triple (Assert fun d w => (Binned d w ∧ w.idle = true) ∧ Ahead r d w) (contain (hw v3dInvalidate))
      (fun _ => Assert fun d w => (Binned d w ∧ w.idle = true) ∧ Ahead r d w) Fail :=
  contain_hw (fun _ => v3dInvalidate_at) fun _ _ h =>
    ⟨⟨h.1.1.sawIdle.invalidate, by simp [Watch.sawIdle]⟩, by simpa [Ahead, Watch.sawIdle] using h.2⟩

/-- Rendering starts where binning is over, and then binning is proved for good. -/
theorem Binned.launched {d : Driver} {w : Watch} (h : Binned d w) : Calm d (w.launched .render) := by
  refine h.1.of_watch rfl ?_ (fun _ h => h) rfl rfl
  by_cases proved : w.unproved = true
  · simp [Watch.launched, h.2 proved]
  · simp [Watch.launched, proved]

theorem steady_binned : Steady fun d w => (Binned d w ∧ w.idle = true) ∧ Ahead r d w := by
  rintro d _ w ⟨⟨⟨h, ended⟩, idle⟩, ahead⟩ ⟨i, g, f, s, rfl⟩
  exact ⟨⟨⟨{ h with }, ended⟩, idle⟩, ahead⟩

theorem renderJob_rule {submit : Effect Machine Status Unit} (starts : Starts .render submit) :
    Triple (Assert fun d w => (Binned d w ∧ w.idle = true) ∧ Ahead r d w) (renderJob submit)
      (fun _ => Assert (Over r .render)) Fail := by
  have running := stable_running (r := r) .render
  refine Triple.bind (silent fun _ => read_at .core 0x104 (by decide)) fun _ => ?_
  refine Triple.bind (silent fun _ => read_at .core 0x138 (by decide)) fun before => ?_
  refine Triple.bind (arm_rule steady_binned) fun _ => ?_
  refine Triple.bind (on_exact (f := fun _ w => w.launched .render) (B := fun _ => Running r .render)
    (fun _ w h => starts w ⟨h.1.1.1.unfaulted, h.1.2⟩) fun d w _ h => ⟨h.1.1.launched, rfl, h.2⟩) fun _ => ?_
  refine Triple.bind (wait_rule running 0 1) fun s => ?_
  iterate 6 refine Triple.bind (read_rule running _ _) fun _ => ?_
  refine Triple.bind (snapshot_rule running) fun _ => ?_
  refine Triple.bind (settle_rule s) fun _ => ?_
  refine Triple.bind contain_require fun _ => ?_
  refine Triple.bind rest_rule fun _ => ?_
  refine Triple.bind (exact_rule running fun _ _ h => h.2.1) fun _ => ?_
  exact mmuFine_rule running

/-! ### The requests that run jobs -/

/-- A request keeps a driver without a fault, or records one. -/
def Keeps (x : Drive α) : Prop := Triple (Assert Calm) x (fun _ => Assert Calm) Fail

theorem require_keeps {c : Prop} [Decidable c] {e : Status} : Keeps (require c e) :=
  (require_rule fun _ _ h => h.good).mono (fun _ hc => hc) (fun _ _ hc => hc.mono fun _ _ h => h.2) fun _ _ hc => hc

theorem stop_rule (e : Status) {Q : α → Context → Prop} : Triple (Assert Calm) (stop e : Drive α) Q Fail :=
  Triple.stop fun _ hc => hc.mono fun _ _ h => h.good

/-- Submissions of some sequences are counted. -/
structure Counts (f : Driver → Driver) (r : Series) : Prop where
  more : ∀ d k, d.submitted k ≤ (f d).submitted k
  counted : ∀ d, d.submitted r < (f d).submitted r
  calm : ∀ d w, Calm d w → (∀ k, w.fence k ≤ (f d).submitted k) → Calm (f d) w

theorem count_rule {f : Driver → Driver} (counts : Counts f r) :
    Triple (Assert fun d w => Calm d w ∧ w.idle = true) (set f) (fun _ => Assert (Ready r)) E :=
  set_rule f fun d w h =>
    ⟨counts.calm d w h.1 fun k => (h.1.fences k).trans (counts.more d k), h.2,
      (h.1.fences r).trans_lt (counts.counted d)⟩

theorem counts_memory : Counts (fun d => { d with memorySubmitted := d.memorySubmitted + 1 }) .memory where
  more d k := by cases k <;> simp [Driver.submitted]
  counted d := by simp [Driver.submitted]
  calm d w h fences := { h with fences := fences }

theorem counts_compute : Counts (fun d => { d with computeSubmitted := d.computeSubmitted + 1 }) .compute where
  more d k := by cases k <;> simp [Driver.submitted]
  counted d := by simp [Driver.submitted]
  calm d w h fences := { h with fences := fences }

theorem counts_render : Counts (fun d => { d with renderSubmitted := d.renderSubmitted + 1 }) .render where
  more d k := by cases k <;> simp [Driver.submitted]
  counted d := by simp [Driver.submitted]
  calm d w h fences := { h with fences := fences }

theorem counts_both : Counts (fun d =>
    { d with memorySubmitted := d.memorySubmitted + 1, renderSubmitted := d.renderSubmitted + 1 }) .memory where
  more d k := by cases k <;> simp [Driver.submitted]
  counted d := by simp [Driver.submitted]
  calm d w h fences := { h with fences := fences }

theorem objectTfu_keeps (width height source destination stride config : BitVec 32) :
    Answers Calm (objectTfu width height source destination stride config) := by
  have running := stable_running (r := .memory) .transfer
  refine forget_rule fun d => Triple.bind require_keeps fun _ => Triple.bind drained_rule fun _ => ?_
  refine Triple.bind (guards_rule steady_ready) fun _ => Triple.bind invalidated_rule fun _ => ?_
  refine Triple.bind (write_rule _ _ _ (by rfl) (by decide)) fun _ => Triple.bind (arm_rule steady_ready) fun _ => ?_
  refine Triple.bind (count_rule counts_memory) fun _ => ?_
  refine Triple.bind (launch_rule (fun w h => v3dSubmitTransferAt_at h _ _ _ _ _ _) (by decide)) fun _ => ?_
  refine Triple.bind (wait_rule running 2 0) fun s => Triple.bind (snapshot_rule running) fun _ => ?_
  refine Triple.bind (settle_rule s) fun _ => Triple.bind rest_rule fun _ => ?_
  refine Triple.bind (exact_rule running fun _ _ h => h.2.1) fun _ => Triple.bind (mmuFine_rule running) fun _ => ?_
  refine Triple.bind (guards_rule (steady_over .transfer)) fun _ => ?_
  exact complete_rule (fun d => { d with memoryCompleted := d.memorySubmitted })
    (fun d w h => ⟨⟨{ h.1.1 with }, h.1.2⟩, h.2⟩) Driver.memoryCompleted fun _ => rfl

theorem objectSubmit_keeps (q : SubmitCl) : Answers Calm (objectSubmit q) := by
  refine forget_rule fun d => Triple.bind require_keeps fun _ => Triple.bind require_keeps fun _ => ?_
  refine Triple.bind drained_rule fun _ => Triple.bind (guards_rule steady_ready) fun _ => ?_
  refine Triple.bind invalidated_rule fun _ => Triple.bind (write_rule _ _ _ (by rfl) (by decide)) fun _ => ?_
  refine Triple.bind (count_rule counts_both) fun _ => ?_
  refine Triple.bind (Q := fun _ => Assert fun d w => (Binned d w ∧ w.idle = true) ∧ Ahead _ d w)
    (Triple.when (fun _ => ?_) fun _ hc _ => hc.mono fun _ _ h => h.binned) fun _ => ?_
  · refine Triple.bind (binJob_rule fun w h => v3dSubmitBinAt_at h _ _ _ _ _) fun _ => ?_
    refine Triple.bind binnedDrain_rule fun _ => Triple.bind binnedInvalidate_rule fun _ => ?_
    exact write_rule _ _ _ (by rfl) (by decide)
  refine Triple.bind (renderJob_rule fun w h => v3dSubmitRenderAt_at h _ _) fun _ => ?_
  refine Triple.bind (guards_rule (steady_over .render)) fun _ => ?_
  exact complete_rule
    (fun d => { d with memoryCompleted := d.memorySubmitted, renderCompleted := d.renderSubmitted })
    (fun d w h => ⟨⟨{ h.1.1 with }, h.1.2⟩, h.2⟩) Driver.memoryCompleted fun _ => rfl

theorem interruptCheck_keeps : Answers Calm interruptCheck := by
  refine Triple.bind (arm_rule stable_calm.steady) fun _ => ?_
  refine Triple.bind (write_rule _ _ _ (by rfl) (by decide)) fun _ => Triple.bind (write_rule _ _ _ (by rfl) (by decide)) fun _ => ?_
  refine Triple.bind (contain_rule ((looking stable_calm fun _ => wait_seeing 2 1).mono (fun _ hc => hc)
    (fun _ _ hc => hc) fun _ _ hc => hc.mono fun _ _ _ => trivial)) fun _ => ?_
  exact done_rule

theorem verify_rule : Triple (Assert A) (contain verify) (fun _ => Assert A) Fail :=
  contain_rule (Triple.bind (silent fun _ => ask_at _) fun _ =>
    Triple.require (fun _ hc _ => hc) fun _ hc _ => ⟨hc.1, trivial⟩)

theorem copy_keeps (q : Image) : Answers Calm (copy q) := by
  refine Triple.bind idle_rule fun _ => Triple.bind (guards_rule steady_ready) fun _ => ?_
  refine Triple.bind (arm_rule steady_ready) fun _ => ?_
  refine Triple.bind (on_exact (f := fun _ w => w.launched .transfer) (B := fun _ => Calm)
    (fun _ w h => v3dSubmitTransferAt_at ⟨h.1.unfaulted, h.2⟩ _ _ _ _ _ _)
    fun d w _ h => h.1.launched (by decide)) fun _ => ?_
  refine Triple.bind (wait_rule stable_calm 2 0) fun s => Triple.bind (snapshot_rule stable_calm) fun _ => ?_
  refine Triple.bind (settle_rule s) fun _ => ?_
  refine Triple.bind (contain_hw (f := fun w => w) (fun _ => v3dPoll_at .hub V3D.tfuCs _ _ (by decide)) fun _ _ h => h)
    fun _ => ?_
  refine Triple.bind drained_rule fun _ => Triple.bind (guards_rule steady_ready) fun _ => ?_
  refine Triple.bind verify_rule fun _ => Triple.bind (write_rule _ _ _ (by rfl) (by decide)) fun _ => ?_
  exact Triple.pure fun _ hc => ⟨hc.mono fun _ _ h => h.1, trivial⟩

theorem compute_keeps : Answers Calm compute := by
  have running := stable_running (r := .compute) .compute
  refine forget_rule fun d => Triple.bind require_keeps fun _ => Triple.bind idle_rule fun _ => ?_
  refine Triple.bind (guards_rule steady_ready) fun _ => Triple.bind invalidated_rule fun _ => ?_
  refine Triple.bind (arm_rule steady_ready) fun _ => ?_
  refine Triple.bind (read_rule (stable_calm.and stable_idle) _ _) fun _ => ?_
  refine Triple.bind (count_rule counts_compute) fun _ => ?_
  refine Triple.bind (launch_rule (fun w h => v3dSubmitCompute_at h _) (by decide)) fun _ => ?_
  refine Triple.bind (wait_rule running 0 0x40) fun s => Triple.bind (read_rule running _ _) fun after => ?_
  refine Triple.bind (snapshot_rule running) fun _ => Triple.bind (settle_rule s) fun _ => ?_
  refine Triple.bind (silent fun _ => latch_at _) fun _ => Triple.bind rest_rule fun _ => ?_
  refine Triple.bind (exact_rule running fun _ _ h => h.2.1) fun _ => Triple.bind (mmuFine_rule running) fun _ => ?_
  refine Triple.bind (guards_rule (steady_over .compute)) fun _ => ?_
  refine Triple.bind verify_rule fun _ => Triple.bind (write_rule _ _ _ (by rfl) (by decide)) fun _ => ?_
  exact complete_rule (fun d => { d with computeCompleted := d.computeSubmitted })
    (fun d w h => ⟨⟨{ h.1.1 with }, h.1.2⟩, h.2⟩) Driver.computeCompleted fun _ => rfl

theorem render_keeps (q : RenderRequest) (triangle : Bool) : Answers Calm (render q triangle) := by
  refine forget_rule fun d => Triple.bind require_keeps fun _ => Triple.bind require_keeps fun _ => ?_
  refine Triple.bind require_keeps fun _ => Triple.bind idle_rule fun _ => ?_
  refine Triple.bind (guards_rule steady_ready) fun _ => Triple.bind invalidated_rule fun _ => ?_
  refine Triple.bind (count_rule counts_render) fun _ => ?_
  refine Triple.bind (Q := fun _ => Assert fun d w => (Binned d w ∧ w.idle = true) ∧ Ahead _ d w)
    (Triple.when (fun _ => ?_) fun _ hc _ => hc.mono fun _ _ h => h.binned) fun _ => ?_
  · refine Triple.bind (binJob_rule fun w h => v3dSubmitBinAt_at h _ _ _ _ _) fun _ => ?_
    refine Triple.bind binnedDrain_rule fun _ => Triple.bind (write_rule _ _ _ (by rfl) (by decide)) fun _ => ?_
    exact binnedInvalidate_rule
  refine Triple.bind (renderJob_rule fun w h => v3dSubmitRenderAt_at h _ _) fun _ => ?_
  refine Triple.bind (guards_rule (steady_over .render)) fun _ => ?_
  refine Triple.bind verify_rule fun _ => Triple.bind (write_rule _ _ _ (by rfl) (by decide)) fun _ => ?_
  exact complete_rule (fun d => { d with renderCompleted := d.renderSubmitted })
    (fun d w h => ⟨⟨{ h.1.1 with }, h.1.2⟩, h.2⟩) Driver.renderCompleted fun _ => rfl

theorem found_keeps (handle : BitVec 32) (c : Prop) [Decidable c] : Keeps (found handle c) := by
  refine forget_rule fun d => ?_
  cases d.space.object handle.toNat with
  | none => exact stop_rule _
  | some i => exact Triple.bind require_keeps fun _ => Triple.pure fun _ hc => hc

theorem objectTransfer_keeps (q : Transfer) : Answers Calm (objectTransfer q) := by
  refine Triple.bind (found_keeps _ _) fun i => forget_rule fun d => Triple.bind require_keeps fun _ => ?_
  refine Triple.bind drained_rule fun _ => Triple.bind (guards_rule steady_ready) fun _ => ?_
  exact Triple.pure fun _ hc => ⟨hc.mono fun _ _ h => h.1, trivial⟩

theorem objectCopy_keeps (q : BufferCopy) : Answers Calm (objectCopy q) := by
  refine Triple.bind (found_keeps _ _) fun i => Triple.bind (found_keeps _ _) fun j => forget_rule fun d => ?_
  refine Triple.bind require_keeps fun _ => Triple.bind require_keeps fun _ => ?_
  exact objectTfu_keeps _ _ _ _ _ _

theorem objectTile_keeps (q : BufferTile) : Answers Calm (objectTile q) := by
  refine Triple.bind (found_keeps _ _) fun i => Triple.bind (found_keeps _ _) fun j => forget_rule fun d => ?_
  refine Triple.bind require_keeps fun _ => ?_
  cases Texture.v3dTextureLayout q.width.toNat q.height.toNat q.sourcePitch.toNat q.layout.toNat q.outputRows.toNat with
  | none => exact stop_rule _
  | some l => exact Triple.bind require_keeps fun _ => objectTfu_keeps _ _ _ _ _ _

end Pi5Drivers.V3d
