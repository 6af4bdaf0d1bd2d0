import Pi5Drivers.Iommu.Tables

/-! The life of the memory of a session: what the driver and the observer agree on
between requests, and that every request and the cleanup of a file keep it. -/

namespace Pi5Drivers.Iommu

open Effect Recorded

/-! ### Between requests -/

/-- The fault is recorded, and the observer knows. -/
def Held (d : Driver) (w : Watch) : Prop := d.bootFault = true ∧ w.faulted = true ∧ d.hw.fault = true

/-- The session has an owner, and the buffers are counted. -/
def Mine (d : Driver) : Prop := d.bootFault = false ∧ d.owner ≠ none ∧ d.activeBuffers = d.occupied

/-- A session without a fault. -/
def Serving (d : Driver) (w : Watch) : Prop := Ready d ∧ (Open none d w ∧ Outside Mine d w) ∧ Fresh d w

/-- There are no buffers. -/
def Vacant (o : Option ℕ) (d : Driver) : Prop :=
  d.bootFault = false ∧ d.owner = o ∧ d.activeBuffers = 0 ∧ ∀ i, d.memory (.buffer i) = none

/-- The unit is not staged. -/
def Unstaged (d : Driver) : Prop := d.hw.fault = false ∧ d.hw.staged = false ∧ d.hw.active = false

/-- There is no session and no memory. -/
def Closed (o : Option ℕ) (d : Driver) (w : Watch) : Prop :=
  Unstaged d ∧ Outside (Vacant o) d w ∧ ∀ m, d.memory m = none

def Good (d : Driver) (w : Watch) : Prop := Held d w ∨ Serving d w ∨ Closed none d w

/-- Where a request of the owner may stop. -/
def Kept (d : Driver) (w : Watch) : Prop := Held d w ∨ Serving d w

theorem Kept.good {d : Driver} {w : Watch} (h : Kept d w) : Good d w := h.imp id .inl

theorem independent_mine : Driver.Independent Mine := fun _ _ h => h

theorem independent_vacant (o : Option ℕ) : Driver.Independent (Vacant o) := fun _ _ h => h

theorem steadfast_serving : Steadfast Serving :=
  (steadfast_driver Ready).and (((steadfast_open none).and (steadfast_outside Mine)).and steadfast_fresh)

theorem steadfast_held : Steadfast Held := by
  rintro d w _ h ⟨f, c, v, rfl, -⟩
  exact h

theorem steadfast_closed (o : Option ℕ) : Steadfast (Closed o) := by
  rintro d w _ h ⟨f, c, v, rfl, -⟩
  exact h

theorem steadfast_good : Steadfast Good := by
  rintro d w w' h handled
  rcases h with h | h | h
  · exact .inl (steadfast_held h handled)
  · exact .inr (.inl (steadfast_serving h handled))
  · exact .inr (.inr (steadfast_closed none h handled))

/-! ### Faults -/

section Rules

variable {A B C T : Driver → Watch → Prop} {α : Type} {P : Context → Prop} {Q : α → Context → Prop}
  {E : Status → Context → Prop}

theorem quarantine_rule (s : Status) : Triple (Holds A) (quarantine s : Drive α) Q fun _ => Holds Held := by
  refine Triple.bind (change_rule (B := fun d _ => d.bootFault = true ∧ d.hw.fault = true) _ fun _ _ _ => ⟨rfl, rfl⟩)
    fun _ => ?_
  refine Triple.bind (record_rule (B := Held) _ (fun _ _ _ => trivial) fun _ _ h => ⟨h.1, rfl, h.2⟩) fun _ => ?_
  exact Triple.stop fun _ hc => hc

theorem hold_rule (s : Status) : Triple (Holds A) (hold s) (fun _ => Holds Held) E :=
  Triple.bind (Triple.attempt (R := fun _ => Holds Held) (quarantine_rule s)) fun _ => pure_rule

/-- A latched fault becomes a recorded one. -/
theorem settle_rule (r : Result) (latched : (∃ d w, C d w ∧ d.hw.fault = true) → ∀ d w, Held d w → T d w)
    (stays : ∀ d w, C d w → d.hw.fault = false → T d w) :
    Triple (Holds C) (settle r) (fun _ => Holds B) fun _ => Holds T := by
  refine look_rule fun d => Triple.ite (fun fault c hc => ?_) fun fine => Triple.stop fun _ hc => hc.mono ?_
  · have held := latched ⟨d, _, hc.2.1 ▸ hc.2.2, fault⟩
    have rule (s : Status) : Triple (Holds fun s' w => s' = d ∧ C s' w) (quarantine s : Drive Unit) (fun _ => Holds B)
        fun _ => Holds T :=
      (quarantine_rule s).mono (fun _ hc => hc) (fun _ _ hc => hc) fun _ _ hc => hc.mono held
    exact rule _ hc
  · rintro _ w ⟨rfl, h⟩
    exact stays _ w h (by simpa using fine)

/-- A sequence of the hardware, and what becomes of its errors. -/
theorem result_rule {x : Mmu Unit} (hx : Triple P x (fun _ => Holds B) fun _ => Holds C)
    (latched : (∃ d w, C d w ∧ d.hw.fault = true) → ∀ d w, Held d w → T d w)
    (stays : ∀ d w, C d w → d.hw.fault = false → T d w) :
    Triple P (result x) (fun _ => Holds B) fun _ => Holds T := by
  refine Triple.attempt_bind hx (fun _ => ?_) fun e => ?_
  · exact Triple.pure fun _ hc => hc
  · exact settle_rule e latched stays

/-- A sequence that only stops with a fault. -/
theorem result_latch {x : Mmu Unit} (hx : Triple P x (fun _ => Holds B) Latch) :
    Triple P (result x) (fun _ => Holds B) fun _ => Holds Held :=
  result_rule hx (fun _ _ _ h => h) fun _ _ fault fine => by simp [Latched, fine] at fault

/-! ### Memory -/

def Driver.without (d : Driver) (m : Memory) : Driver := { d with memory := Function.update d.memory m none }

theorem without_of_none {d : Driver} {m : Memory} (h : d.memory m = none) : d.without m = d := by
  have : Function.update d.memory m none = d.memory := Function.update_eq_self_iff.mpr h.symm
  simp [Driver.without, this]

theorem freeMemory_rule {m : Memory} (allowed : ∀ d w, A d w → (d.memory m).isSome → observer.Allows w (.freed m))
    (gone : ∀ d w, A d w → B (d.without m) w) : Triple (Holds A) (freeMemory m) (fun _ => Holds B) E := by
  refine look_rule fun d => Triple.when (fun there => ?_) fun c hc absent => hc.mono ?_
  · refine Triple.bind (record_rule (B := A) _ ?_ ?_) fun _ => change_rule _ gone
    · rintro _ w ⟨rfl, h⟩
      exact allowed _ w h there
    · rintro _ w ⟨rfl, h⟩
      simpa [observer, Watch.saw] using h
  · rintro d' w ⟨rfl, h⟩
    have : d'.memory m = none := by simpa using absent
    exact without_of_none this ▸ gone _ w h

theorem allocateMemory_rule {m : Memory} {pages : ℕ} (allowed : ∀ d w, A d w → w.faulted = false)
    (enters : ∀ d w b, A d w → b.pages = 0 → b.mapped = false → B (d.setBuffer m b) (w.saw (.allocated m)))
    (fails : ∀ d w, A d w → T d w) (frees : ∀ d w, B d w → observer.Allows w (.freed m))
    (freed : ∀ d w, B d w → T (d.without m) w)
    (accepts : ∀ d w, B d w → C (if m = .l2 then { d with table := fun _ => 0 } else d) w) :
    Triple (Holds A) (allocateMemory m pages) (fun _ => Holds C) fun _ => Holds T := by
  refine Triple.bind (ask_rule _) fun r => ?_
  rcases r with _ | ⟨dma, aligned⟩
  · exact Triple.stop fun _ hc => hc.mono fails
  · refine Triple.bind (record_rule (B := fun d w => ∃ w₀, w = w₀.saw (.allocated m) ∧ A d w₀) _ allowed
      fun d w h => ⟨w, rfl, h⟩) fun _ => ?_
    refine Triple.bind (change_rule (B := B) _ ?_) fun _ => Triple.ite (fun _ => ?_) fun _ => ?_
    · rintro d _ ⟨w, rfl, h⟩
      exact enters d w _ h rfl rfl
    · refine Triple.when (fun l2 => change_rule _ fun d w h => ?_) fun c hc other => hc.mono fun d w h => ?_
      · simpa [l2] using accepts d w h
      · simpa [other] using accepts d w h
    · refine Triple.bind (freeMemory_rule (fun d w h _ => frees d w h) freed) fun _ => Triple.stop fun _ hc => hc

end Rules

/-! ### The tables come and go -/

section Tables

variable {o : Option ℕ} {ε : Type} {E : Status → Context → Prop}

/-- The memory of the tables is free to go. -/
def Loose (o : Option ℕ) (d : Driver) (w : Watch) : Prop :=
  Unstaged d ∧ Outside (Vacant o) d w ∧ ((∃ m, (d.memory m).isSome) → w.Untouched ∨ w.Withdrawn)

/-- The unit was not touched since there is a root. -/
def Staging (d : Driver) (w : Watch) : Prop := Unstaged d ∧ w.Untouched ∧ Outside (Vacant none) d w

theorem Staging.loose {d : Driver} {w : Watch} (h : Staging d w) : Loose none d w := ⟨h.1, h.2.2, fun _ => .inl h.2.1⟩

theorem Closed.loose {d : Driver} {w : Watch} (h : Closed o d w) : Loose o d w :=
  ⟨h.1, h.2.1, fun ⟨m, there⟩ => by simp [h.2.2 m] at there⟩

theorem Vacant.without {d : Driver} (h : Vacant o d) (m : Memory) : Vacant o (d.without m) := by
  refine ⟨h.1, h.2.1, h.2.2.1, fun i => ?_⟩
  by_cases eq : Memory.buffer i = m
  · simp [Driver.without, eq]
  · simpa [Driver.without, eq] using h.2.2.2 i

theorem Vacant.setBuffer {d : Driver} (h : Vacant o d) {m : Memory} (table : ∀ i, m ≠ .buffer i) (b : Buffer) :
    Vacant o (d.setBuffer m b) :=
  ⟨h.1, h.2.1, h.2.2.1, fun i => by simpa [Driver.setBuffer, (table i).symm] using h.2.2.2 i⟩

theorem Loose.without {d : Driver} {w : Watch} (h : Loose o d w) (m : Memory) : Loose o (d.without m) w := by
  refine ⟨h.1, ⟨h.2.1.1, h.2.1.2.without m⟩, fun ⟨n, there⟩ => h.2.2 ⟨n, ?_⟩⟩
  by_cases eq : n = m
  · simp [Driver.without, eq] at there
  · simpa [Driver.without, eq] using there

theorem Staging.without {d : Driver} {w : Watch} (h : Staging d w) (m : Memory) : Staging (d.without m) w :=
  ⟨h.1, h.2.1, h.2.2.1, h.2.2.2.without m⟩

/-- Memory of the tables may go. -/
theorem Loose.allows {d : Driver} {w : Watch} (h : Loose o d w) {m : Memory} (table : ∀ i, m ≠ .buffer i)
    (there : (d.memory m).isSome) : observer.Allows w (.freed m) := by
  have free : w.faulted = false ∧ (w.Untouched ∨ w.Withdrawn) := ⟨h.2.1.1, h.2.2 ⟨m, there⟩⟩
  cases m with
  | buffer i => exact absurd rfl (table i)
  | _ => exact free

theorem freeTables_rule : Triple (Holds (Loose o)) freeTables (fun _ => Holds (Closed o)) E := by
  have free (m : Memory) (table : ∀ i, m ≠ .buffer i) (gone : Driver → Prop) (stays : ∀ d, gone d → gone (d.without m)) :
      Triple (Holds fun d w => Loose o d w ∧ gone d) (freeMemory m)
        (fun _ => Holds fun d w => Loose o d w ∧ gone d ∧ d.memory m = none) E := by
    refine freeMemory_rule (fun d w h there => h.1.allows table there) fun d w h => ⟨h.1.without m, stays d h.2, ?_⟩
    simp [Driver.without]
  refine Triple.bind ((free .root (fun _ => Memory.noConfusion) (fun _ => True) fun _ _ => trivial).mono
    (fun _ hc => hc.mono fun _ _ h => ⟨h, trivial⟩) (fun _ _ hc => hc) fun _ _ hc => hc) fun _ => ?_
  refine Triple.bind ((free .l2 (fun _ => Memory.noConfusion) (fun d => d.memory .root = none) fun d h => ?_).mono
    (fun _ hc => hc.mono fun _ _ h => ⟨h.1, h.2.2⟩) (fun _ _ hc => hc) fun _ _ hc => hc) fun _ => ?_
  · simpa [Driver.without] using h
  refine (free .trap (fun _ => Memory.noConfusion) (fun d => d.memory .root = none ∧ d.memory .l2 = none) fun d h => ?_).mono
    (fun _ hc => hc.mono fun _ _ h => ⟨h.1, h.2⟩) (fun _ _ hc => hc.mono ?_) fun _ _ hc => hc
  · simpa [Driver.without] using h
  · rintro d w ⟨⟨unstaged, outside, -⟩, ⟨root, l2⟩, trap⟩
    refine ⟨unstaged, outside, fun m => ?_⟩
    cases m with
    | root => exact root
    | l2 => exact l2
    | trap => exact trap
    | buffer i => exact outside.2.2.2.2 i

/-- The tables are allocated while the unit is left alone. -/
theorem allocateTable_rule {A B C : Driver → Watch → Prop} {m : Memory} (table : ∀ i, m ≠ .buffer i)
    (loose : ∀ d w, A d w → Loose none d w) (staging : ∀ d w, B d w → Staging d w)
    (enters : ∀ d w b, A d w → B (d.setBuffer m b) (w.saw (.allocated m)))
    (accepts : ∀ d w, B d w → C (if m = .l2 then { d with table := fun _ => 0 } else d) w) :
    Triple (Holds A) (allocateMemory m 1) (fun _ => Holds C) fun _ => Holds (Loose none) := by
  refine allocateMemory_rule (fun d w h => (loose d w h).2.1.1) (fun d w b h _ _ => enters d w b h) loose
    (fun d w h => ?_) (fun d w h => (staging d w h).loose.without m) accepts
  have free : w.faulted = false ∧ (w.Untouched ∨ w.Withdrawn) := ⟨(staging d w h).2.2.1, .inl (staging d w h).2.1⟩
  cases m with
  | buffer i => exact absurd rfl (table i)
  | _ => exact free

theorem stageTables_rule : Triple (Holds (Closed none)) stageTables
    (fun _ => Holds fun d w => Ready d ∧ (Open none d w ∧ Outside (Vacant none) d w) ∧ Fresh d w)
    fun _ => Holds fun d w => Held d w ∨ Loose none d w := by
  have looses {α : Type} {x : Drive α} {P : Context → Prop} {Q : α → Context → Prop}
      (hx : Triple P x Q fun _ => Holds (Loose none)) : Triple P x Q fun _ => Holds fun d w => Held d w ∨ Loose none d w :=
    hx.mono (fun _ hc => hc) (fun _ _ hc => hc) fun _ _ hc => hc.mono fun _ _ h => .inr h
  refine Triple.bind (looses (allocateTable_rule (B := Staging) (C := Staging) (fun _ => Memory.noConfusion)
    (fun _ _ h => h.loose) (fun _ _ h => h) (fun d w b h => ?_) fun _ _ h => h)) fun _ => ?_
  · exact ⟨h.1, fun _ => rfl, h.2.1.1, h.2.1.2.setBuffer (fun _ => Memory.noConfusion) b⟩
  refine Triple.bind (looses (allocateTable_rule (B := fun d w => Staging d w ∧ w.table = fun _ => 0)
    (C := Prepared (Vacant none)) (fun _ => Memory.noConfusion) (fun _ _ h => h.loose) (fun _ _ h => h.1)
    (fun d w b h => ?_) fun d w h => ?_)) fun _ => ?_
  · exact ⟨⟨h.1, h.2.1, h.2.2.1, h.2.2.2.setBuffer (fun _ => Memory.noConfusion) b⟩, rfl⟩
  · exact ⟨h.1.1, h.1.2.1, h.2, fun _ => rfl, h.1.2.2⟩
  refine Triple.bind (looses (allocateTable_rule (B := Prepared (Vacant none)) (C := Prepared (Vacant none))
    (fun _ => Memory.noConfusion) (fun d w h => ⟨h.1, h.2.2.2.2, fun _ => .inl h.2.1⟩) (fun d w h => ⟨h.1, h.2.1, h.2.2.2.2⟩)
    (fun d w b h => ?_) fun _ _ h => h)) fun _ => ?_
  · exact ⟨h.1, h.2.1, h.2.2.1, h.2.2.2.1, h.2.2.2.2.1, h.2.2.2.2.2.setBuffer (fun _ => Memory.noConfusion) b⟩
  refine Triple.bind (change_rule (B := Prepared (Vacant none)) _ fun d w h => h) fun _ => glance_rule fun d => ?_
  refine result_rule ((mmuBegin_rule (independent_vacant none) (fun _ h => h.2.2.2) _ _).mono (fun _ hc => hc)
    (fun _ _ hc => hc.mono fun _ _ h => ⟨h.1, h.2.1, h.2.2.1⟩) fun _ _ hc => hc) (fun _ _ _ h => .inl h) ?_
  rintro d w (latched | h) fine
  · simp [Latched, fine] at latched
  · exact .inr ⟨h.1, h.2.2.2.2, fun _ => .inl h.2.1⟩

theorem occupied_of_vacant {d : Driver} (h : ∀ i, d.memory (.buffer i) = none) : d.occupied = 0 :=
  Finset.sum_eq_zero fun i _ => by simp [h i]

/-- No buffer is counted, so there is none. -/
theorem vacant_of_occupied {d : Driver} (h : d.occupied = 0) (i : Fin 16) : d.memory (.buffer i) = none := by
  have := Finset.sum_eq_zero_iff.mp h i (Finset.mem_univ i)
  simpa using this

theorem begin_rule (file : ℕ) :
    Triple (Holds (Closed none)) (begin file) (fun _ => Holds Serving) fun _ => Holds Good := by
  refine glance_rule fun d => Triple.bind ((require_rule (F := fun _ => Good) fun _ _ _ h => .inr (.inr h)).mono
    (fun _ hc => hc) (fun _ _ hc => hc.mono fun _ _ h => h.2) fun _ _ hc => hc) fun _ => ?_
  refine Triple.bind ((require_rule (F := fun _ => Good) fun _ _ _ h => .inr (.inr h)).mono
    (fun _ hc => hc) (fun _ _ hc => hc.mono fun _ _ h => h.2) fun _ _ hc => hc) fun _ => ?_
  refine Triple.attempt_bind stageTables_rule (fun _ => ?_) fun e => ?_
  · refine Triple.bind (record_rule (B := fun d w => Ready d ∧ (Open none d w ∧ Outside (Vacant none) d w) ∧ Fresh d w) _
      (fun d w h => h.2.1.2.1) fun _ _ h => h) fun _ => change_rule _ fun d w h => ?_
    obtain ⟨ready, ⟨opened, faulted, boot, -, count, vacant⟩, fresh⟩ := h
    exact ⟨ready, ⟨{ opened with }, faulted, boot, by simp, count.trans (occupied_of_vacant vacant).symm⟩, fresh⟩
  · refine look_rule fun d => Triple.bind (Q := fun _ => Holds Good) ?_ fun _ => Triple.stop fun _ hc => hc
    refine Triple.when (fun fine => ?_) fun _ hc fault => hc.mono ?_
    · refine freeTables_rule.mono (fun _ hc => hc.mono ?_) (fun _ _ hc => hc.mono fun _ _ h => .inr (.inr h)) fun _ _ hc => hc
      rintro d' w ⟨rfl, held | loose⟩
      · simp [held.2.2] at fine
      · exact loose
    · rintro d' w ⟨rfl, held | loose⟩
      · exact .inl held
      · exact absurd loose.1.1 fault

theorem finish_rule : Triple (Holds Serving) finish (fun _ => Holds (Closed none)) fun _ => Holds Kept := by
  refine look_rule fun d => Triple.bind (require_rule (F := fun _ => Kept) fun _ _ _ h => .inr h.2) fun _ =>
    assume_rule fun none => ?_
  refine Triple.bind ((result_latch (mmuEnd_rule (independent_vacant d.owner) fun _ h => h.2.2.2)).mono
    (fun _ hc => hc.mono ?_) (fun _ _ hc => hc) fun _ _ hc => hc.mono fun _ _ h => .inl h) fun _ => ?_
  · rintro d' w ⟨rfl, ready, ⟨opened, faulted, boot, -, count⟩, -⟩
    exact ⟨ready, opened, faulted, boot, rfl, none, vacant_of_occupied (count.symm.trans none)⟩
  refine Triple.bind (freeTables_rule.mono (fun _ hc => hc.mono fun d w h => ⟨h.1, h.2.2, fun _ => .inr h.2.1⟩)
    (fun _ _ hc => hc) fun _ _ hc => hc) fun _ => change_rule _ fun d w h => ?_
  exact ⟨h.1, ⟨h.2.1.1, h.2.1.2.1, rfl, h.2.1.2.2.2⟩, h.2.2⟩

end Tables

end Pi5Drivers.Iommu
