import Pi5Drivers.Iommu.Lifetime

/-! The buffers of a session: how they are mapped, retired and freed, and what an
execution does to them. -/

namespace Pi5Drivers.Iommu

open Effect Recorded

/-! ### Counting -/

theorem buffers_update (memory : Memory → Option Buffer) (i : Fin 16) (b : Option Buffer) :
    (fun j => Function.update memory (.buffer i) b (.buffer j)) =
      Function.update (fun j => memory (.buffer j)) i b := by
  funext j
  by_cases h : j = i
  · subst h
    simp
  · have : Memory.buffer j ≠ .buffer i := fun eq => h (Memory.buffer.inj eq)
    simp [h, this]

theorem occupied_update (d : Driver) (i : Fin 16) (b : Option Buffer) :
    Driver.occupied { d with memory := Function.update d.memory (.buffer i) b } +
        (if (d.memory (.buffer i)).isSome then 1 else 0) =
      d.occupied + (if b.isSome then 1 else 0) := by
  have := sum_update (fun b : Option Buffer => if b.isSome then 1 else 0) (fun j => d.memory (.buffer j)) i b
  rw [← buffers_update] at this
  exact this

theorem modifyBuffer_memory (d : Driver) (i : Fin 16) (f : Buffer → Buffer) (j : Fin 16) :
    (d.modifyBuffer i f).memory (.buffer j) =
      if j = i then (d.memory (.buffer i)).map f else d.memory (.buffer j) := by
  by_cases h : j = i
  · subst h
    simp [Driver.modifyBuffer]
  · have : Memory.buffer j ≠ .buffer i := fun eq => h (Memory.buffer.inj eq)
    simp [Driver.modifyBuffer, h, this]

theorem occupied_modifyBuffer (d : Driver) (i : Fin 16) (f : Buffer → Buffer) :
    (d.modifyBuffer i f).occupied = d.occupied := by
  refine Finset.sum_congr rfl fun j _ => ?_
  rw [modifyBuffer_memory]
  by_cases h : j = i
  · subst h
    simp
  · simp [h]

/-! ### A buffer that is not mapped -/

section Unmapped

variable {d : Driver} {w : Watch} {i : Fin 16}

/-- The slot of such a buffer may be given up. -/
theorem Open.retired (h : Open none d w) (fresh : Fresh d w) (control : w.control = some 0)
    (unmapped : ∀ b, d.memory (.buffer i) = some b → b.mapped = false) : w.Retired i :=
  ⟨fun _ hk => ⟨(congrFun h.same _).trans (h.empty unmapped hk), fresh.1 _⟩, control⟩

/-- A change of such a buffer: entries of the other buffers stay as they are. -/
theorem Open.replace {b : Option Buffer} (h : Open none d w)
    (unmapped : ∀ b, d.memory (.buffer i) = some b → b.mapped = false) (pages : ∀ c, b = some c → c.pages ≤ mmuMaxPages) :
    Open none { d with memory := Function.update d.memory (.buffer i) b } w :=
  { h with
    entries := fun k hk => by
      obtain ⟨j, c, hc, mapped, range⟩ := h.entries k hk
      have ne : Memory.buffer j ≠ .buffer i := by
        rintro eq
        cases eq
        exact absurd (mapped.resolve_right (by simp)) (by simp [unmapped c hc])
      exact ⟨j, c, by simpa [ne] using hc, mapped, range⟩
    pages := fun j c hc => by
      by_cases eq : Memory.buffer j = .buffer i
      · exact pages c (by simpa [eq] using hc)
      · exact h.pages j c (by simpa [eq] using hc) }

/-- The buffer whose entries were just written is mapped. -/
theorem Open.account {b : Buffer} (h : Open (some i) d w) (there : d.memory (.buffer i) = some b) :
    Open none (d.account i) w :=
  { h with
    entries := fun k hk => by
      obtain ⟨j, c, hc, mapped, range⟩ := h.entries k hk
      by_cases eq : j = i
      · subst eq
        cases there.symm.trans hc
        exact ⟨j, { b with mapped := true, token := d.nextToken + 1 }, (modifyBuffer_memory d j _ j).trans (by simp [there]),
          .inl rfl, range⟩
      · refine ⟨j, c, (modifyBuffer_memory d i _ j).trans (by simpa [eq] using hc), .inl ?_, range⟩
        exact mapped.resolve_right fun now => eq (Option.some.inj now).symm
    pages := fun j c hc => by
      have := (modifyBuffer_memory d i (fun b => { b with mapped := true, token := d.nextToken + 1 }) j).symm.trans hc
      by_cases eq : j = i
      · subst eq
        simp only [there, if_true, Option.map_some, Option.some.injEq] at this
        subst this
        exact h.pages j b there
      · exact h.pages j c (by simpa [eq] using this) }

end Unmapped

/-! ### Allocation -/

section Requests

variable {i : Fin 16} {α ε : Type} {E : Status → Context → Prop}

/-- The session, just after its registers were compared. -/
def Checked (d : Driver) (w : Watch) : Prop := Serving d w ∧ w.control = some 0

theorem check_rule : Triple (Holds Serving) (result mmuCheck) (fun _ => Holds Checked) fun _ => Holds Held := by
  refine result_latch ((mmuCheck_rule (A := fun d w => (Open none d w ∧ Outside Mine d w) ∧ Fresh d w)
    (((steadfast_open none).and (steadfast_outside Mine)).and steadfast_fresh).patient).mono (fun _ hc => hc)
    (fun _ _ hc => hc.mono fun d w h => ⟨h.1, ?_⟩) fun _ _ hc => hc)
  exact ((h.2 0).2 rfl).trans (congrArg some h.1.2.1.1.rest)

/-- A driver with a buffer that is not counted yet. -/
def Extra (i : Fin 16) (pages : ℕ) (d : Driver) : Prop :=
  d.bootFault = false ∧ d.owner ≠ none ∧ d.activeBuffers + 1 = d.occupied ∧
    ∃ b, d.memory (.buffer i) = some b ∧ b.mapped = false ∧ b.pages = pages

/-- A new buffer before its entries are written. -/
def Coming (i : Fin 16) (pages : ℕ) (d : Driver) (w : Watch) : Prop :=
  (Ready d ∧ (Open none d w ∧ Outside (Extra i pages) d w) ∧ Fresh d w) ∧ w.control = some 0

theorem Coming.allows {pages : ℕ} {d : Driver} {w : Watch} (h : Coming i pages d w) : observer.Allows w (.freed (.buffer i)) := by
  obtain ⟨⟨-, ⟨opened, faulted, -, -, -, b, there, unmapped, -⟩, fresh⟩, control⟩ := h
  refine ⟨faulted, opened.retired fresh control fun c hc => ?_⟩
  cases there.symm.trans hc
  exact unmapped

theorem Coming.without {pages : ℕ} {d : Driver} {w : Watch} (h : Coming i pages d w) : Serving (d.without (.buffer i)) w := by
  obtain ⟨⟨ready, ⟨opened, faulted, boot, owner, count, b, there, unmapped, -⟩, fresh⟩, -⟩ := h
  refine ⟨ready, ⟨opened.replace (fun c hc => ?_) fun c hc => by simp at hc, faulted, boot, owner, ?_⟩, fresh⟩
  · cases there.symm.trans hc
    exact unmapped
  · have := occupied_update d i none
    simp only [there] at this
    simp only [Driver.without] at this ⊢
    simp at this
    omega

theorem Coming.setPages {d : Driver} {w : Watch} (h : Coming i 0 d w) {pages : ℕ} (most : pages ≤ mmuMaxPages) (writable : Bool) :
    Coming i pages (d.modifyBuffer i fun b => { b with pages := pages, writable := writable }) w := by
  obtain ⟨⟨ready, ⟨opened, faulted, boot, owner, count, b, there, unmapped, -⟩, fresh⟩, control⟩ := h
  refine ⟨⟨ready, ⟨opened.replace (fun c hc => ?_) fun c hc => ?_, faulted, boot, owner, ?_, ?_⟩, fresh⟩, control⟩
  · cases there.symm.trans hc
    exact unmapped
  · simp only [there, Option.map_some, Option.some.injEq] at hc
    subst hc
    exact most
  · exact count.trans (occupied_modifyBuffer d i _).symm
  · exact ⟨{ b with pages := pages, writable := writable }, (modifyBuffer_memory d i _ i).trans (by simp [there]), unmapped, rfl⟩

theorem coming_rule (pages : ℕ) :
    Triple (Holds fun d w => Checked d w ∧ d.memory (.buffer i) = none) (allocateMemory (.buffer i) pages)
      (fun _ => Holds (Coming i 0)) fun _ => Holds Serving := by
  refine allocateMemory_rule (B := Coming i 0) (fun _ _ h => h.1.1.2.1.2.1) (fun d w b h zero unmapped => ?_) (fun _ _ h => h.1.1)
    (fun _ _ h => h.allows) (fun _ _ h => h.without) fun _ _ h => by simpa using h
  obtain ⟨⟨⟨ready, ⟨opened, faulted, boot, owner, count⟩, fresh⟩, control⟩, empty⟩ := h
  refine ⟨⟨ready, ⟨opened.replace (fun c hc => by simp [empty] at hc) fun c hc => ?_, faulted, boot, owner, ?_, b, ?_, unmapped, zero⟩,
    fresh⟩, control⟩
  · cases hc
    simp [zero]
  · have := occupied_update d i (some b)
    simp only [empty] at this
    simp only [Driver.setBuffer] at this ⊢
    simp at this
    omega
  · simp [Driver.setBuffer]

/-- A buffer with entries that is not counted yet. -/
def Entered (i : Fin 16) (pages : ℕ) (d : Driver) (w : Watch) : Prop :=
  Open (some i) d w ∧ Ready d ∧ Outside (Extra i pages) d w

theorem mapBuffer_rule (pages : ℕ) (writable : Bool) :
    Triple (Holds (Coming i pages)) (mapBuffer i pages writable) (fun _ => Holds (Entered i pages)) fun _ => Holds Serving := by
  refine glance_rule fun d => Triple.attempt_bind (result_rule (mmuMap_rule (A := Coming i pages)
    (D := fun d w => Ready d ∧ Outside (Extra i pages) d w) ?_ ?_ fun _ _ h => ?_) ?_ fun _ _ h _ => h) (fun _ => ?_) fun e => ?_
  · exact fun d w k v h => h
  · rintro d w ⟨-, -, -, -, -, b, there, -, rfl⟩
    exact ⟨b, there, rfl⟩
  · exact ⟨h.1.2.1.1, h.1.1, h.1.2.1.2⟩
  · rintro ⟨d, w, h, fault⟩
    exact absurd fault (by simp [h.1.1.1])
  · exact Triple.pure fun _ hc => hc
  · exact Triple.bind (freeMemory_rule (fun _ _ h _ => h.allows) fun _ _ h => h.without) fun _ => Triple.stop fun _ hc => hc

theorem Entered.account {pages : ℕ} {d : Driver} {w : Watch} (h : Entered i pages d w) :
    Ready (d.account i) ∧ Open none (d.account i) w ∧ Outside Mine (d.account i) w := by
  obtain ⟨opened, ready, faulted, boot, owner, count, b, there, -⟩ := h
  refine ⟨ready, opened.account there, faulted, boot, owner, ?_⟩
  exact count.trans (occupied_modifyBuffer d i fun b => { b with mapped := true, token := d.nextToken + 1 }).symm

theorem allocateAt_rule {pages : ℕ} (most : pages ≤ mmuMaxPages) (writable : Bool) :
    Triple (Holds fun d w => Checked d w ∧ d.memory (.buffer i) = none) (allocateAt i pages writable)
      (fun _ => Holds Serving) fun _ => Holds Kept := by
  have keeps {β : Type} {x : Drive β} {P : Context → Prop} {Q : β → Context → Prop} (hx : Triple P x Q fun _ => Holds Serving) :
      Triple P x Q fun _ => Holds Kept := hx.mono (fun _ hc => hc) (fun _ _ hc => hc) fun _ _ hc => hc.mono fun _ _ h => .inr h
  refine Triple.bind (keeps (coming_rule _)) fun _ => ?_
  refine Triple.bind (change_rule (B := Coming i pages) _ fun _ _ h => h.setPages most writable) fun _ => ?_
  refine Triple.bind (keeps (mapBuffer_rule pages writable)) fun _ => ?_
  refine Triple.bind (change_rule (B := fun d w => Ready d ∧ Open none d w ∧ Outside Mine d w) _ fun _ _ h => h.account)
    fun _ => ?_
  refine Triple.bind ((result_latch invalidate_rule).mono (fun _ hc => hc) (fun _ _ hc => hc.mono fun _ _ h =>
    (⟨h.1, h.2.1, h.2.2.1⟩ : Serving _ _)) fun _ _ hc => hc.mono fun _ _ h => .inl h) fun _ => ?_
  exact glance_rule fun d => Triple.pure fun _ hc => hc

theorem check_kept : Triple (Holds Serving) (result mmuCheck) (fun _ => Holds Checked) fun _ => Holds Kept :=
  check_rule.mono (fun _ hc => hc) (fun _ _ hc => hc) fun _ _ hc => hc.mono fun _ _ h => .inl h

theorem allocate_rule {pages : ℕ} (most : pages ≤ mmuMaxPages) (writable : Bool) :
    Triple (Holds Serving) (allocate pages writable) (fun _ => Holds Serving) fun _ => Holds Kept := by
  refine Triple.bind check_kept fun _ => look_rule fun d => ?_
  rcases vacant : d.vacant with _ | i
  · exact Triple.stop fun _ hc => hc.mono fun _ _ h => .inr h.2.1
  · refine Triple.bind (require_rule (F := fun _ => Kept) fun _ _ _ h => .inr h.2.1) fun _ => assume_rule fun _ => ?_
    refine (allocateAt_rule most writable).mono (fun _ hc => hc.mono ?_) (fun _ _ hc => hc) fun _ _ hc => hc
    rintro d' w ⟨rfl, h⟩
    have := List.find?_some vacant
    exact ⟨h, by simpa using this⟩

/-! ### Retirement -/

theorem checkGuards_rule {A : Driver → Watch → Prop} (i : Fin 16) :
    Triple (Holds A) (checkGuards i) (fun _ => Holds A) fun _ => Holds Held :=
  Triple.bind (ask_rule _) fun _ => Triple.ite (fun _ => pure_rule) fun _ => quarantine_rule _

/-- A buffer that may be freed. -/
def Retiring (i : Fin 16) (d : Driver) (w : Watch) : Prop :=
  Checked d w ∧ ∃ b, d.memory (.buffer i) = some b ∧ b.mapped = false

theorem unmapBuffer_rule {b : Buffer} :
    Triple (Holds fun d w => Checked d w ∧ d.memory (.buffer i) = some b) (unmapBuffer i b)
      (fun _ => Holds (Retiring i)) fun _ => Holds Held := by
  refine Triple.attempt_bind (E := fun _ => Holds fun d w => Open none d w ∧ Ready d ∧ Outside Mine d w ∧ d.memory (.buffer i) = some b)
    ((mmuUnmap_rule fun d w k v h => h).mono (fun _ hc => hc.mono fun _ _ h => ?_) (fun _ _ hc => hc) fun _ _ hc => hc) (fun _ => ?_) fun e => ?_
  · exact ⟨h.1.1.2.1.1, h.1.1.1, h.1.1.2.1.2, h.2⟩
  rotate_left
  · exact quarantine_rule _
  · refine Triple.bind ((result_latch (invalidate_rule (D := fun d => Mine d ∧ d.memory (.buffer i) = some b ∧
      ∀ k < mmuSlotPages, d.table (first i + k) = 0))).mono (fun _ hc => hc.mono ?_) (fun _ _ hc => hc) fun _ _ hc => hc) fun _ => ?_
    · rintro d w ⟨⟨opened, ready, ⟨faulted, mine⟩, there⟩, zero⟩
      exact ⟨ready, opened, faulted, mine, there, zero⟩
    refine change_rule _ ?_
    rintro d w ⟨ready, ⟨opened, faulted, ⟨boot, owner, count⟩, there, zero⟩, fresh, control⟩
    have alone : ∀ k, d.table k ≠ 0 → ∃ j c, j ≠ i ∧ d.memory (.buffer j) = some c ∧ (c.mapped = true ∨ none = some j) ∧
        first j + 1 ≤ k ∧ k ≤ first j + c.pages := by
      intro k hk
      obtain ⟨j, c, hc, mapped, low, high⟩ := opened.entries k hk
      refine ⟨j, c, ?_, hc, mapped, low, high⟩
      rintro rfl
      have := opened.pages j c hc
      have := zero (k - first j) (by simp only [mmuSlotPages]; omega)
      rw [Nat.add_sub_cancel' (by omega)] at this
      exact hk this
    refine ⟨⟨⟨ready, ⟨{ opened with entries := fun k hk => ?_, pages := fun j c hc => ?_ }, faulted, boot, owner, ?_⟩, fresh⟩, control⟩, ?_⟩
    · obtain ⟨j, c, ne, hc, rest⟩ := alone k hk
      exact ⟨j, c, (modifyBuffer_memory d i _ j).trans (by simpa [ne] using hc), rest⟩
    · have old := (modifyBuffer_memory d i (fun b => { b with mapped := false }) j).symm.trans hc
      by_cases eq : j = i
      · subst eq
        simp only [there, if_true, Option.map_some, Option.some.injEq] at old
        subst old
        exact opened.pages j b there
      · exact opened.pages j c (by simpa [eq] using old)
    · exact count.trans (occupied_modifyBuffer d i _).symm
    · exact ⟨{ b with mapped := false }, (modifyBuffer_memory d i _ i).trans (by simp [there]), rfl⟩

theorem releaseBuffer_rule : Triple (Holds (Retiring i)) (releaseBuffer i) (fun _ => Holds Serving) E := by
  refine Triple.bind (freeMemory_rule (B := fun d w => (Ready d ∧ (Open none d w ∧ w.faulted = false ∧
    d.bootFault = false ∧ d.owner ≠ none) ∧ Fresh d w) ∧ d.activeBuffers = d.occupied + 1) ?_ ?_) fun _ => ?_
  · rintro d w ⟨⟨⟨-, ⟨opened, faulted, -⟩, fresh⟩, control⟩, b, there, unmapped⟩ -
    refine ⟨faulted, opened.retired fresh control fun c hc => ?_⟩
    cases there.symm.trans hc
    exact unmapped
  · rintro d w ⟨⟨⟨ready, ⟨opened, faulted, boot, owner, count⟩, fresh⟩, -⟩, b, there, unmapped⟩
    refine ⟨⟨ready, ⟨opened.replace (fun c hc => ?_) fun c hc => by simp at hc, faulted, boot, owner⟩, fresh⟩, ?_⟩
    · cases there.symm.trans hc
      exact unmapped
    · have := occupied_update d i none
      simp only [there] at this
      simp only [Driver.without] at this ⊢
      simp at this
      omega
  · refine Triple.bind (change_rule (B := Serving) _ ?_) fun _ => pure_rule
    rintro d w ⟨⟨ready, ⟨opened, faulted, boot, owner⟩, fresh⟩, count⟩
    refine ⟨ready, ⟨{ opened with }, faulted, boot, owner, ?_⟩, fresh⟩
    change d.activeBuffers - 1 = d.occupied
    omega

theorem retireAt_rule (b : Buffer) (release : Bool) :
    Triple (Holds fun d w => Serving d w ∧ d.memory (.buffer i) = some b) (retireAt i b release)
      (fun _ => Holds Serving) fun _ => Holds Kept := by
  have held {β : Type} {x : Drive β} {P : Context → Prop} {Q : β → Context → Prop} (hx : Triple P x Q fun _ => Holds Held) :
      Triple P x Q fun _ => Holds Kept := hx.mono (fun _ hc => hc) (fun _ _ hc => hc) fun _ _ hc => hc.mono fun _ _ h => .inl h
  refine Triple.bind (Q := fun _ => Holds fun d w => Checked d w ∧ d.memory (.buffer i) = some b) (held ?_) fun _ => ?_
  · refine result_latch ((mmuCheck_rule (A := fun d w => ((Open none d w ∧ Outside Mine d w) ∧ Fresh d w) ∧
      d.memory (.buffer i) = some b) ((((steadfast_open none).and (steadfast_outside Mine)).and steadfast_fresh).and
        (steadfast_driver _)).patient).mono (fun _ hc => hc.mono fun _ _ h => ⟨h.1.1, h.1.2, h.2⟩)
      (fun _ _ hc => hc.mono fun d w h => ?_) fun _ _ hc => hc)
    obtain ⟨⟨ready, session, there⟩, compared⟩ := h
    exact ⟨⟨⟨ready, session⟩, ((compared 0).2 rfl).trans (congrArg some session.1.1.rest)⟩, there⟩
  refine Triple.bind (held (checkGuards_rule i)) fun _ => Triple.ite (fun _ => ?_) fun busy => ?_
  · exact Triple.pure fun _ hc => hc.mono fun _ _ h => h.1.1
  · refine Triple.bind (Q := fun _ => Holds (Retiring i)) (Triple.when (fun _ => held unmapBuffer_rule) fun _ hc unmapped => ?_) fun _ => ?_
    · exact hc.mono fun _ _ h => ⟨h.1, b, h.2, by simpa using unmapped⟩
    · exact Triple.ite (fun _ => releaseBuffer_rule) fun _ => Triple.pure fun _ hc => hc.mono fun _ _ h => h.1.1

theorem retire_rule (token : ℕ) (release : Bool) :
    Triple (Holds Serving) (retire token release) (fun _ => Holds Serving) fun _ => Holds Kept := by
  refine look_rule fun d => ?_
  rcases d.named token with _ | i
  · exact Triple.stop fun _ hc => hc.mono fun _ _ h => .inr h.2
  · rcases there : d.memory (.buffer i) with _ | b
    · simp only [there]
      exact Triple.stop fun _ hc => hc.mono fun _ _ h => .inr h.2
    · simp only [there]
      refine (retireAt_rule b release).mono (fun _ hc => hc.mono ?_) (fun _ _ hc => hc) fun _ _ hc => hc
      rintro d' w ⟨rfl, h⟩
      exact ⟨h, there⟩

end Requests

end Pi5Drivers.Iommu
