import Pi5Drivers.Iommu.Session

/-! The second-level table and the registers that lead to it: what holds of them while a
session is open, and how the sequences that open it, close it and switch the unit on and
off keep it. -/

namespace Pi5Drivers.Iommu

open Effect Recorded

/-! ### The tables of a session -/

/-- The entry is one of a buffer that is mapped, or of the slot that is being mapped. -/
def Driver.Maps (d : Driver) (now : Option (Fin 16)) (k : ℕ) : Prop :=
  ∃ i b, d.memory (.buffer i) = some b ∧ (b.mapped = true ∨ now = some i) ∧ first i + 1 ≤ k ∧ k ≤ first i + b.pages

/-- The unit is pointed to the tables, and the entries are those of the buffers. -/
structure Open (now : Option (Fin 16)) (d : Driver) (w : Watch) : Prop where
  same : w.table = d.table
  written : ∀ j ∈ tableRegisters, w.written (offsets j) = some (d.hw.expected j)
  found : ∀ j ∈ tableRegisters, w.found (offsets j) = d.hw.baseline 1 j
  rest : d.hw.expected 0 = 0
  entries : ∀ k, d.table k ≠ 0 → d.Maps now k
  pages : ∀ i b, d.memory (.buffer i) = some b → b.pages ≤ mmuMaxPages

/-- Every entry and every register was flushed. -/
def Fresh (_ : Driver) (w : Watch) : Prop := (∀ k, w.stale k = false) ∧ w.dirty = false

/-- The number of buffers. -/
def Driver.occupied (d : Driver) : ℕ := ∑ i, if (d.memory (.buffer i)).isSome then 1 else 0

/-- There is no fault. -/
def Safe (d : Driver) (w : Watch) : Prop := d.bootFault = false ∧ w.faulted = false

theorem offsets_ne_zero {j : Fin 9} (h : j ∈ tableRegisters) : offsets j ≠ 0 := by
  revert j
  decide

theorem Open.handled {now : Option (Fin 16)} {d : Driver} {w w' : Watch} (h : Open now d w) (handled : w.Handled w') :
    Open now d w' := by
  obtain ⟨f, c, v, rfl, same⟩ := handled
  exact { h with
    written := fun j hj => (same _ (offsets_ne_zero hj)).1.trans (h.written j hj)
    found := fun j hj => ((same _ (offsets_ne_zero hj)).2 (by simp [h.written j hj])).trans (h.found j hj) }

theorem steadfast_open (now : Option (Fin 16)) : Steadfast (Open now) := fun _ _ _ h handled => h.handled handled

theorem steadfast_fresh : Steadfast Fresh := by
  rintro d w _ h ⟨f, c, v, rfl, -⟩
  exact h

theorem steadfast_safe : Steadfast Safe := by
  rintro d w _ h ⟨f, c, v, rfl, -⟩
  exact h

theorem Open.flush {now : Option (Fin 16)} {d : Driver} {w : Watch} (h : Open now d w) : Open now d w.flush := { h with }

theorem fresh_flush (d : Driver) (w : Watch) : Fresh d w.flush := ⟨fun _ => rfl, rfl⟩

theorem first_apart {i j : Fin 16} {k l : ℕ} (hk : k < mmuSlotPages) (hl : l < mmuSlotPages)
    (h : first i + k = first j + l) : i = j := by
  simp only [first, mmuSlotPages, mmuMaxPages] at *
  exact Fin.ext (by omega)

/-- The slot of a buffer that is not mapped has no entries. -/
theorem Open.empty {d : Driver} {w : Watch} {i : Fin 16} (h : Open none d w)
    (unmapped : ∀ b, d.memory (.buffer i) = some b → b.mapped = false) {k : ℕ} (hk : k < mmuSlotPages) :
    d.table (first i + k) = 0 := by
  by_contra entry
  obtain ⟨j, b, hb, mapped, low, high⟩ := h.entries _ entry
  have most := h.pages j b hb
  have here : i = j := by
    refine first_apart hk (l := first i + k - first j) ?_ (by omega)
    simp only [mmuSlotPages]
    omega
  subst here
  rcases mapped with mapped | mapped
  · simp [unmapped b hb] at mapped
  · exact absurd mapped (by simp)

/-! ### Entries -/

def Driver.put (d : Driver) (k : ℕ) (v : BitVec 32) : Driver := { d with table := Function.update d.table k v }

section Rules

variable {A B : Driver → Watch → Prop} {ε : Type} {E : ε → Context → Prop}

theorem store_rule {k : ℕ} {v : BitVec 32} (h : ∀ d w, A d w → B (d.put k v) (w.sawStore k v)) :
    Triple (Holds A) (store k v) (fun _ => Holds B) E := by
  refine Triple.bind (record_rule (B := fun d w => ∃ w₀, w = w₀.sawStore k v ∧ A d w₀) _ (fun _ _ _ => trivial)
    fun _ w ha => ⟨w, rfl, ha⟩) fun _ => change_rule _ ?_
  rintro d _ ⟨w, rfl, ha⟩
  exact h d w ha

/-- An entry that belongs to a buffer. -/
theorem Open.put {now : Option (Fin 16)} {d : Driver} {w : Watch} {k : ℕ} {v : BitVec 32} (h : Open now d w)
    (maps : v ≠ 0 → d.Maps now k) : Open now (d.put k v) (w.sawStore k v) :=
  { h with
    same := by simp [Watch.sawStore, Driver.put, h.same]
    entries := fun l hl => by
      by_cases eq : l = k
      · subst eq
        exact maps (by simpa [Driver.put] using hl)
      · exact h.entries l (by simpa [Driver.put, eq] using hl) }

theorem Open.widen {d : Driver} {w : Watch} (h : Open none d w) (i : Fin 16) : Open (some i) d w :=
  { h with
    entries := fun k hk => by
      obtain ⟨j, b, hb, mapped, range⟩ := h.entries k hk
      exact ⟨j, b, hb, .inl (mapped.resolve_right (by simp)), range⟩ }

/-- The entries of a new buffer, all of them or none. -/
theorem mmuMap_rule {i : Fin 16} {dma pages : ℕ} {writable : Bool} {D : Driver → Watch → Prop}
    (stores : ∀ d w k v, D d w → D (d.put k v) (w.sawStore k v))
    (there : ∀ d w, D d w → ∃ b, d.memory (.buffer i) = some b ∧ b.pages = pages)
    (enters : ∀ d w, A d w → Open none d w ∧ D d w) :
    Triple (Holds A) (mmuMap i dma pages writable) (fun _ => Holds fun d w => Open (some i) d w ∧ D d w)
      fun _ => Holds A := by
  refine Triple.bind (require_rule fun _ _ _ h => h) fun _ => assume_rule fun _ => glance_rule fun d => ?_
  refine Triple.bind (require_rule fun _ _ _ h => h) fun _ => assume_rule fun _ => ?_
  refine Triple.mono (P := Holds fun d w => Open (some i) d w ∧ D d w) (E := fun _ => Holds fun _ _ => False)
    (Triple.each fun k hk => store_rule fun d w h => ?_)
    (fun _ hc => hc.mono fun d w h => ⟨(enters d w h).1.widen i, (enters d w h).2⟩) (fun _ _ hc => hc)
    fun _ _ hc => hc.mono fun _ _ h => h.elim
  obtain ⟨b, hb, rfl⟩ := there d w h.2
  have := List.mem_range.mp hk
  exact ⟨h.1.put fun _ => ⟨i, b, hb, .inr rfl, by omega, by omega⟩, stores _ _ _ _ h.2⟩

/-- The entries of a buffer are zeroed, all of them or none. -/
theorem mmuUnmap_rule {i : Fin 16} {pages : ℕ} {now : Option (Fin 16)} {D : Driver → Watch → Prop}
    (stores : ∀ d w k v, D d w → D (d.put k v) (w.sawStore k v)) :
    Triple (Holds fun d w => Open now d w ∧ D d w) (mmuUnmap i pages)
      (fun _ => Holds fun d w => (Open now d w ∧ D d w) ∧ ∀ k < mmuSlotPages, d.table (first i + k) = 0)
      fun _ => Holds fun d w => Open now d w ∧ D d w := by
  refine Triple.bind (require_rule fun _ _ _ h => h) fun _ => assume_rule fun _ => look_rule fun d => ?_
  refine Triple.bind (require_rule fun _ _ _ h => h.2) fun _ => assume_rule fun start => ?_
  refine Triple.bind (require_rule fun _ _ _ h => h.2) fun _ => assume_rule fun _ => ?_
  refine Triple.bind (require_rule fun _ _ _ h => h.2) fun _ => assume_rule fun tail => ?_
  refine (Triple.each_rest (I := fun l => Holds fun d w => (Open now d w ∧ D d w) ∧
    ∀ k < mmuSlotPages, (∀ n ∈ l, k ≠ 1 + n) → d.table (first i + k) = 0) (fun n l => store_rule ?_)
    (List.range pages)).mono (fun _ hc => hc.mono ?_) (fun _ _ hc => hc.mono fun _ _ h => ⟨h.1, fun k hk =>
      h.2 k hk fun n hn => absurd hn List.not_mem_nil⟩) fun _ _ hc => hc
  · rintro d w ⟨⟨opened, rest⟩, zero⟩
    refine ⟨⟨opened.put fun ne => absurd rfl ne, stores _ _ _ _ rest⟩, fun k hk others => ?_⟩
    by_cases h : k = 1 + n
    · simp [Driver.put, h, Nat.add_assoc]
    · have ne : first i + k ≠ first i + 1 + n := by omega
      simp only [Driver.put, Function.update_of_ne ne]
      exact zero k hk fun m hm => by
        rcases List.mem_cons.mp hm with rfl | hm
        · exact h
        · exact others m hm
  · rintro _ w ⟨rfl, h⟩
    refine ⟨h, fun k hk others => ?_⟩
    by_cases zero : k = 0
    · simpa [zero] using start
    · refine tail k hk (Nat.lt_of_not_le fun le => others (k - 1) (List.mem_range.mpr (by omega)) (by omega))

end Rules

/-! ### The sequences -/

/-- What holds of the driver besides its hardware, and that no fault was recorded. -/
def Outside (D : Driver → Prop) (d : Driver) (w : Watch) : Prop := w.faulted = false ∧ D d

/-- A property of the driver that does not look at the hardware. -/
def Driver.Independent (D : Driver → Prop) : Prop := ∀ (d : Driver) (h : Hw), D d → D { d with hw := h }

theorem steadfast_outside (D : Driver → Prop) : Steadfast (Outside D) := by
  rintro d w _ h ⟨f, c, v, rfl, -⟩
  exact h

section Sequences

variable {D : Driver → Prop}

/-- An invalidation in a session. -/
theorem invalidate_rule : Triple (Holds fun d w => Ready d ∧ Open none d w ∧ Outside D d w) mmuInvalidate
    (fun _ => Holds fun d w => Ready d ∧ (Open none d w ∧ Outside D d w) ∧ Fresh d w ∧ w.control = some 0) Latch := by
  refine mmuInvalidate_rule ((steadfast_open none).and (steadfast_outside D)) fun d w ready ⟨opened, outside⟩ compared => ?_
  exact ⟨ready, ⟨opened.flush, outside⟩, fresh_flush d w, (compared 0).2 rfl |>.trans (congrArg some opened.rest)⟩

/-- The tables are there, and the unit does not know of them. -/
def Prepared (D : Driver → Prop) (d : Driver) (w : Watch) : Prop :=
  (d.hw.fault = false ∧ d.hw.staged = false ∧ d.hw.active = false) ∧ w.Untouched ∧ w.table = d.table ∧
    (∀ k, d.table k = 0) ∧ Outside D d w

theorem patient_prepared : Patient (Prepared D) := by
  rintro d w _ h ⟨f, c, rfl, -⟩
  exact h

/-- The registers of a unit are saved; what was saved of the others stays. -/
theorem saveUnit_rule {A : Driver → Watch → Prop} (patient : Patient A) (i : Fin 3)
    (saves : ∀ d w f, A d w → A { d with hw := { d.hw with baseline := Function.update d.hw.baseline i f } } w) :
    Triple (Holds A) (saveUnit i) (fun _ => Holds fun d w => d.hw.baseline i 0 = 0 ∧ A d w) fun _ => Holds A := by
  refine Triple.bind (Triple.each fun j _ => Triple.bind (read_rule patient _ _) fun v =>
    setHw_rule _ fun d w h => saves d w _ h) fun _ => look_rule fun d => ?_
  exact (require_rule (F := fun _ => A) fun _ _ _ h => h.2).mono (fun _ hc => hc)
    (fun _ _ hc => hc.mono fun _ _ h => ⟨h.2.1 ▸ h.1, h.2.2⟩) fun _ _ hc => hc

/-- Between the comparison and the writes: the registers are as they were found. -/
def Compares (D : Driver → Prop) (d : Driver) (w : Watch) : Prop :=
  w.Untouched ∧ d.hw.baseline 1 0 = 0 ∧ d.hw.expected = d.hw.baseline 1 ∧ w.table = d.table ∧ (∀ k, d.table k = 0) ∧
    Outside D d w

theorem patient_compares : Patient (Compares D) := by
  rintro d w _ h ⟨f, c, rfl, -⟩
  exact h

/-- The registers of the list are still to be written. -/
structure Installing (D : Driver → Prop) (l : List (Fin 9)) (d : Driver) (w : Watch) : Prop where
  ready : Ready d
  same : w.table = d.table
  zero : ∀ k, d.table k = 0
  rest : d.hw.expected 0 = 0
  found : ∀ j ∈ tableRegisters, w.found (offsets j) = d.hw.baseline 1 j
  written : ∀ j ∈ tableRegisters, j ∉ l → w.written (offsets j) = some (d.hw.expected j)
  outside : Outside D d w

theorem install_rule {A B : Driver → Watch → Prop} {j : Fin 9} {E : Result → Context → Prop}
    (h : ∀ d w, A d w → B d (w.sawWrite (offsets j) (d.hw.expected j))) :
    Triple (Holds A) (install j) (fun _ => Holds B) E := by
  refine look_rule fun d => record_rule _ (fun _ _ _ => trivial) ?_
  rintro _ w ⟨rfl, ha⟩
  exact h _ w ha

theorem installing_step (j : Fin 9) (l : List (Fin 9)) :
    Triple (Holds (Installing D (j :: l))) (install j) (fun _ => Holds (Installing D l)) Latch := by
  refine install_rule fun d w h => { h with written := fun k hk out => ?_ }
  by_cases eq : k = j
  · subst eq
    exact Function.update_self _ _ _
  · have apart : offsets k ≠ offsets j := fun same => eq (offsets_injective same)
    exact (Function.update_of_ne apart _ _).trans (h.written k hk (by simp [eq, out]))

/-- Without a buffer there is nothing an entry could belong to. -/
theorem Installing.opened {d : Driver} {w : Watch} (h : Installing D [] d w) (none : ∀ d, D d → ∀ i, d.memory (.buffer i) = none) :
    Open Option.none d w where
  same := h.same
  written j hj := h.written j hj List.not_mem_nil
  found := h.found
  rest := h.rest
  entries k hk := absurd (h.zero k) hk
  pages i b hb := by simp [none d h.outside.2 i] at hb

/-- The unit is pointed to the tables, or left alone, or the fault is latched. -/
theorem mmuBegin_rule (independent : Driver.Independent D) (none : ∀ d, D d → ∀ i, d.memory (.buffer i) = none)
    (table trap : ℕ) :
    Triple (Holds (Prepared D)) (mmuBegin table trap)
      (fun _ => Holds fun d w => Ready d ∧ (Open Option.none d w ∧ Outside D d w) ∧ Fresh d w ∧ w.control = some 0)
      fun _ => Holds fun d w => Latched d w ∨ Prepared D d w := by
  have stays {c : Prop} [Decidable c] (r : Result) {A : Driver → Watch → Prop} (h : ∀ d w, A d w → Prepared D d w) :
      Triple (Holds A) (require c r) (fun _ => Holds A) fun _ => Holds fun d w => Latched d w ∨ Prepared D d w :=
    (require_rule (F := fun _ d w => Latched d w ∨ Prepared D d w) fun _ d w ha => .inr (h d w ha)).mono
      (fun _ hc => hc) (fun _ _ hc => hc.mono fun _ _ h => h.2) fun _ _ hc => hc
  have saves (d : Driver) (w : Watch) (i : Fin 3) (f : Fin 9 → BitVec 32) (h : Prepared D d w) :
      Prepared D { d with hw := { d.hw with baseline := Function.update d.hw.baseline i f } } w :=
    ⟨h.1, h.2.1, h.2.2.1, h.2.2.2.1, h.2.2.2.2.1, independent _ _ h.2.2.2.2.2⟩
  have fails {A : Driver → Watch → Prop} (h : ∀ d w, A d w → Prepared D d w) {α : Type} {x : Mmu α} {Q : α → Context → Prop}
      {P : Context → Prop} (hx : Triple P x Q fun _ => Holds A) :
      Triple P x Q fun _ => Holds fun d w => Latched d w ∨ Prepared D d w :=
    hx.mono (fun _ hc => hc) (fun _ _ hc => hc) fun _ _ hc => hc.mono fun d w ha => .inr (h d w ha)
  have latches {α : Type} {x : Mmu α} {Q : α → Context → Prop} {P : Context → Prop} (hx : Triple P x Q Latch) :
      Triple P x Q fun _ => Holds fun d w => Latched d w ∨ Prepared D d w :=
    hx.mono (fun _ hc => hc) (fun _ _ hc => hc) fun _ _ hc => hc.mono fun _ _ h => .inl h
  refine glance_rule fun _ => Triple.bind (stays _ fun _ _ h => h) fun _ => Triple.bind (stays _ fun _ _ h => h) fun _ => ?_
  -- the three units; of the second one it matters that it was found switched off
  refine Triple.bind (Q := fun _ => Holds fun d w => d.hw.baseline 1 0 = 0 ∧ Prepared D d w) ?_ fun _ => ?_
  · refine Triple.bind (fails (fun _ _ h => h) (saveUnit_rule patient_prepared 0 fun d w f => saves d w 0 f)) fun _ => ?_
    refine Triple.bind (fails (A := Prepared D) (fun _ _ h => h) ((saveUnit_rule patient_prepared 1 fun d w f => saves d w 1 f).mono
      (fun _ hc => hc.mono fun _ _ h => h.2) (fun _ _ hc => hc) fun _ _ hc => hc)) fun _ => ?_
    refine Triple.bind (fails (fun _ _ h => h.2) (saveUnit_rule ((patient_driver fun d => d.hw.baseline 1 0 = 0).and patient_prepared) 2
      fun d w f h => ⟨?_, saves d w 2 f h.2⟩)) fun _ => Triple.pure fun _ hc => hc.mono fun _ _ h => h.2
    simpa using h.1
  refine glance_rule fun _ => Triple.bind (stays _ fun _ _ h => h.2) fun _ => ?_
  refine Triple.bind (read_other_rule (by decide) _) fun cache => ?_
  refine Triple.bind (setHw_rule (B := fun d w => d.hw.baseline 1 0 = 0 ∧ Prepared D d w) _ fun d w h =>
    ⟨h.1, h.2.1, h.2.2.1, h.2.2.2.1, h.2.2.2.2.1, h.2.2.2.2.2.1, independent _ _ h.2.2.2.2.2.2⟩) fun _ => ?_
  refine Triple.bind (stays _ fun _ _ h => h.2) fun _ => ?_
  refine Triple.bind (setHw_rule (B := fun d w => Ready d ∧ Compares D d w) _ ?_) fun _ => ?_
  · rintro d w ⟨off, ⟨fault, -, active⟩, untouched, same, zero, outside⟩
    exact ⟨⟨fault, rfl, active⟩, untouched, off, rfl, same, zero, outside.1, independent _ _ outside.2⟩
  refine Triple.bind (latches (Triple.mapError (mmuCheck_rule patient_compares))) fun _ => ?_
  refine Triple.bind (setHw_rule (B := Installing D tableRegisters) _ ?_) fun _ => ?_
  · rintro d w ⟨⟨ready, untouched, off, found, same, zero, outside⟩, compared⟩
    exact {
      ready := ready
      same := same
      zero := zero
      rest := (congrFun found 0).trans off
      found := fun j _ => ((compared j).1 (untouched _)).trans (congrFun found j)
      written := fun j hj out => absurd hj out
      outside := ⟨outside.1, independent _ _ outside.2⟩ }
  refine Triple.bind (latches (Triple.each_rest (I := fun l => Holds (Installing D l)) installing_step tableRegisters)) fun _ => ?_
  exact latches (invalidate_rule.mono (fun _ hc => hc.mono fun _ _ h => ⟨h.ready, h.opened none, h.outside⟩)
    (fun _ _ hc => hc) fun _ _ hc => hc)

/-- The registers not in the list are as they were found. -/
structure Restoring (D : Driver → Prop) (l : List (Fin 9)) (d : Driver) (w : Watch) : Prop where
  ready : Ready d
  opened : Open none d w
  restored : ∀ j ∈ tableRegisters, j ∉ l → d.hw.expected j = d.hw.baseline 1 j
  outside : Outside D d w

/-- The driver expects a register to be as it was found. -/
def Driver.expectFound (d : Driver) (j : Fin 9) : Driver :=
  { d with hw := { d.hw with expected := Function.update d.hw.expected j (d.hw.baseline 1 j) } }

theorem Restoring.step (independent : Driver.Independent D) {j : Fin 9} (hj : j ∈ tableRegisters) {l : List (Fin 9)}
    {d : Driver} {w : Watch} (h : Restoring D (j :: l) d w) :
    Restoring D l (d.expectFound j) (w.sawWrite (offsets j) (d.hw.baseline 1 j)) where
  ready := h.ready
  opened :=
    { h.opened with
      written := fun k hk => by
        by_cases eq : k = j
        · subst eq
          simp [Watch.sawWrite, Driver.expectFound]
        · have apart : offsets k ≠ offsets j := fun same => eq (offsets_injective same)
          simp [Watch.sawWrite, Driver.expectFound, apart, eq, h.opened.written k hk]
      rest := by
        have zero : 0 ≠ j := by
          rintro rfl
          exact absurd hj (by decide)
        simp [Driver.expectFound, zero, h.opened.rest] }
  restored k hk out := by
    by_cases eq : k = j
    · subst eq
      simp [Driver.expectFound]
    · simpa [Driver.expectFound, eq] using h.restored k hk (by simp [eq, out])
  outside := ⟨h.outside.1, independent _ _ h.outside.2⟩

theorem restoring_step (independent : Driver.Independent D) {j : Fin 9} (hj : j ∈ tableRegisters) (l : List (Fin 9)) :
    Triple (Holds (Restoring D (j :: l))) (restore j) (fun _ => Holds (Restoring D l)) Latch := by
  refine Triple.bind (setHw_rule (B := fun d w => ∃ d₀ : Driver, d = d₀.expectFound j ∧ Restoring D (j :: l) d₀ w) _
    fun d w h => ⟨d, rfl, h⟩) fun _ => install_rule ?_
  rintro _ w ⟨d, rfl, h⟩
  have := h.step independent hj
  simpa [Driver.expectFound] using this

theorem restoring_rule (independent : Driver.Independent D) {l : List (Fin 9)} (hl : ∀ j ∈ l, j ∈ tableRegisters) :
    Triple (Holds (Restoring D l)) (each restore l) (fun _ => Holds (Restoring D [])) Latch := by
  induction l with
  | nil => exact pure_rule
  | cons j l ih =>
    exact Triple.bind (restoring_step independent (hl j List.mem_cons_self) l) fun _ =>
      ih fun k hk => hl k (List.mem_cons_of_mem j hk)

/-- The unit is back as it was found, and off. -/
theorem mmuEnd_rule (independent : Driver.Independent D) (none : ∀ d, D d → ∀ i, d.memory (.buffer i) = none) :
    Triple (Holds fun d w => Ready d ∧ Open Option.none d w ∧ Outside D d w) mmuEnd
      (fun _ => Holds fun d w => (d.hw.fault = false ∧ d.hw.staged = false ∧ d.hw.active = false) ∧ w.Withdrawn ∧ Outside D d w)
      Latch := by
  refine Triple.bind invalidate_rule fun _ => ?_
  refine Triple.bind ((restoring_rule independent fun _ h => h).mono (fun _ hc => hc.mono ?_) (fun _ _ hc => hc)
    fun _ _ hc => hc) fun _ => ?_
  · rintro d w ⟨ready, ⟨opened, outside⟩, -⟩
    exact ⟨ready, opened, fun j hj out => absurd hj out, outside⟩
  have keeps : Steadfast fun d w => (∀ j ∈ tableRegisters, d.hw.expected j = d.hw.baseline 1 j) ∧
      Open Option.none d w ∧ Outside D d w :=
    (steadfast_driver _).and ((steadfast_open _).and (steadfast_outside D))
  refine Triple.bind ((mmuInvalidate_rule (B := fun d w => Ready d ∧ w.Withdrawn ∧ Outside D d w) keeps ?_).mono
    (fun _ hc => hc.mono ?_) (fun _ _ hc => hc) fun _ _ hc => hc) fun _ => ?_
  · rintro d w ready ⟨restored, opened, outside⟩ compared
    refine ⟨ready, ⟨fun k => ⟨?_, rfl⟩, fun j hj => ?_, rfl, ?_⟩, outside⟩
    · refine (congrFun opened.same k).trans (not_not.mp fun entry => ?_)
      obtain ⟨i, b, hb, -⟩ := opened.entries k entry
      simp [none d outside.2 i] at hb
    · exact (opened.written j hj).trans (congrArg some ((restored j hj).trans (opened.found j hj).symm))
    · exact ((compared 0).2 rfl).trans (congrArg some opened.rest)
  · rintro d w ⟨ready, opened, restored, outside⟩
    exact ⟨ready, fun j hj => restored j hj List.not_mem_nil, opened, outside⟩
  refine setHw_rule _ fun d w ⟨ready, withdrawn, outside⟩ => ?_
  exact ⟨⟨ready.1, rfl, ready.2.2⟩, withdrawn, outside.1, independent _ _ outside.2⟩

/-! ### Switching on and off -/

/-- The unit may translate. -/
def Driving (d : Driver) : Prop := d.hw.fault = false ∧ d.hw.staged = true ∧ d.hw.active = true

theorem steadfast_session : Steadfast fun d w => Open none d w ∧ Outside D d w ∧ Fresh d w :=
  (steadfast_open none).and ((steadfast_outside D).and steadfast_fresh)

theorem mmuActivate_rule (independent : Driver.Independent D) :
    Triple (Holds fun d w => Ready d ∧ Open none d w ∧ Outside D d w) mmuActivate
      (fun _ => Holds fun d w => Driving d ∧ Open none d w ∧ Outside D d w ∧ Fresh d w) Latch := by
  have keeps : Steadfast fun d w => Driving d ∧ Open none d w ∧ Outside D d w ∧ Fresh d w :=
    (steadfast_driver Driving).and steadfast_session
  refine Triple.bind invalidate_rule fun _ => glance_rule fun d => ?_
  refine Triple.bind (write_rule (by decide) _ _) fun _ => ?_
  refine Triple.bind (setHw_rule (B := fun d w => Driving d ∧ Open none d w ∧ Outside D d w ∧ Fresh d w) _ ?_) fun _ => ?_
  · rintro d w ⟨ready, ⟨opened, outside⟩, fresh, -⟩
    exact ⟨⟨ready.1, ready.2.1, rfl⟩, { opened with }, ⟨outside.1, independent _ _ outside.2⟩, fresh⟩
  refine Triple.bind (control_rule keeps _) fun _ => ?_
  refine Triple.bind (read_rule keeps.patient _ _) fun _ => Triple.bind (demand_keeps _) fun _ => ?_
  exact Triple.bind (read_rule keeps.patient _ _) fun _ => demand_keeps _

/-- What was seen of the unit is noted; that touches nothing else. -/
theorem snapFaults_rule {A : Driver → Watch → Prop} (patient : Patient A)
    (notes : ∀ d w f v h m s, A d w → A { d with
      hw := { d.hw with faultFlags := f, violationAddress := v, hits := h, misses := m, stalls := s } } w)
    {E : Result → Context → Prop} : Triple (Holds A) snapFaults (fun _ => Holds A) E := by
  unfold snapFaults
  iterate 5 refine Triple.bind (read_rule patient _ _) fun _ => ?_
  exact setHw_rule _ fun d w h => notes d w _ _ _ _ _ h

theorem mmuDeactivate_rule (independent : Driver.Independent D) (quiesced : Bool) :
    Triple (Holds fun d w => Driving d ∧ Open none d w ∧ Outside D d w ∧ Fresh d w) (mmuDeactivate quiesced)
      (fun _ => Holds fun d w => Ready d ∧ (Open none d w ∧ Outside D d w) ∧ Fresh d w ∧ w.control = some 0) Latch := by
  have keeps : Steadfast fun d w => Driving d ∧ Open none d w ∧ Outside D d w ∧ Fresh d w :=
    (steadfast_driver Driving).and steadfast_session
  have off : Steadfast fun d w => Ready d ∧ Open none d w ∧ Outside D d w :=
    (steadfast_driver Ready).and ((steadfast_open none).and (steadfast_outside D))
  refine look_rule fun d => Triple.bind (require_known fun _ _ h => h.1 ▸ h.2.1.2.2) fun _ => ?_
  refine Triple.bind ((snapFaults_rule keeps.patient ?_).mono (fun _ hc => hc.mono fun _ _ h => h.2) (fun _ _ hc => hc)
    fun _ _ hc => hc) fun _ => ?_
  · rintro d w f v h m s ⟨driving, opened, outside, fresh⟩
    exact ⟨driving, { opened with }, ⟨outside.1, independent _ _ outside.2⟩, fresh⟩
  refine Triple.bind (demand_keeps _) fun _ => look_rule fun d => ?_
  refine Triple.bind ((require_known fun _ _ h => h.1 ▸ h.2.1.1).mono (fun _ hc => hc) (fun _ _ hc => hc.mono fun _ _ h => h.2)
    fun _ _ hc => hc) fun _ => ?_
  refine Triple.bind (read_rule keeps.patient _ _) fun _ => Triple.bind (demand_keeps _) fun _ => ?_
  refine Triple.bind (read_rule keeps.patient _ _) fun _ => Triple.bind (demand_keeps _) fun _ => ?_
  refine Triple.bind (Triple.each fun i _ => Triple.each fun j _ => Triple.when (fun _ =>
    Triple.bind (read_rule keeps.patient _ _) fun _ => demand_keeps _) fun _ hc _ => hc) fun _ => ?_
  refine Triple.bind (control_rule keeps _) fun _ => ?_
  refine Triple.bind (read_rule keeps.patient _ _) fun _ => Triple.bind (demand_keeps _) fun _ => ?_
  refine Triple.bind (setHw_rule (B := fun d w => Ready d ∧ Open none d w ∧ Outside D d w) _ ?_) fun _ => ?_
  · rintro d w ⟨driving, opened, outside, -⟩
    exact ⟨⟨driving.1, driving.2.1, rfl⟩, { opened with }, outside.1, independent _ _ outside.2⟩
  refine Triple.bind (write_rule (by decide) _ _) fun _ => ?_
  refine Triple.bind (read_rule off.patient _ _) fun _ => Triple.bind (demand_keeps _) fun _ => ?_
  exact Triple.bind (demand_keeps _) fun _ => invalidate_rule

end Sequences

end Pi5Drivers.Iommu
