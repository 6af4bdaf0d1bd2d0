import Pi5Drivers.V3d.Jobs

/-! Sessions of the V3D driver and the memory in them, from the first lease to the
last. -/

namespace Pi5Drivers.V3d

open Effect

variable {α : Type} {A B : Driver → Watch → Prop} {E : Status → Context → Prop}

/-! ### Buffers -/

theorem Watch.setLife_setLife (w : Watch) (s : Slot) (a b : Life) : (w.setLife s a).setLife s b = w.setLife s b := by
  simp [setLife]

theorem Watch.setLife_self {w : Watch} {s : Slot} {l : Life} (h : w.life s = l) : w.setLife s l = w := by
  subst h
  simp [setLife]

theorem Watch.life_setLife (w : Watch) (s : Slot) (l : Life) : (w.setLife s l).life s = l := by simp [setLife]

theorem Watch.life_setLife_of_ne (w : Watch) {s t : Slot} (l : Life) (h : t ≠ s) :
    (w.setLife s l).life t = w.life t := by simp [setLife, h]

theorem Driver.buffer_setBuffer (d : Driver) (s : Slot) (b : Option Buffer) : (d.setBuffer s b).buffer s = b := by
  cases s <;> simp [setBuffer, buffer]

theorem Driver.setBuffer_none (d : Driver) {s : Slot} (h : d.buffer s = none) (b : Option Buffer) :
    (d.setBuffer s b).setBuffer s none = d := by
  cases s with
  | fixed f =>
    have : Function.update d.fixed f none = d.fixed := by
      rw [Function.update_eq_self_iff]
      exact h.symm
    simp only [setBuffer, Function.update_idem, this]
  | object i =>
    have same : ({ d.space.objects i with buffer := none } : Object) = d.space.objects i := by
      rw [← show (d.space.objects i).buffer = none from h]
    simp only [setBuffer, Function.update_self, Function.update_idem, same, Function.update_eq_self]

/-- Guards that are already unclean stay so in a driver with another buffer. -/
theorem Driver.clean_setBuffer (d : Driver) (s : Slot) (b : Option Buffer) :
    ({ Driver.setBuffer { d with guardsClean := false } s b with guardsClean := false } : Driver) =
      Driver.setBuffer { d with guardsClean := false } s b := by
  cases s <;> rfl

/-- A buffer whose payload is whole pages the unit can reach. -/
def Buffer.Sound (b : Buffer) (bytes : ℕ) : Prop := b.dma % page = 0 ∧ b.dma + (bytes + 2 * page) ≤ 2 ^ 36

theorem free_rule {s : Slot} (skip : ∀ d w, A d w → d.buffer s = none → B { d with guardsClean := false } w)
    (free : ∀ d w, A d w → (d.buffer s).isSome → w.Allows (.freed s) ∧
      B (Driver.setBuffer { d with guardsClean := false } s none) (w.setLife s .free)) :
    Triple (Assert A) (freeBuffer s) (fun _ => Assert B) E := by
  refine Triple.bind (set_rule (B := fun d w => ∃ d₀, A d₀ w ∧ d = { d₀ with guardsClean := false }) _
    fun d w h => ⟨d, h, rfl⟩) fun _ => driver_rule fun d => Triple.when (fun some => ?_) fun c hc none => ?_
  · refine Triple.bind (note_rule (B := fun d' w => d' = d ∧ ∃ d₀ w₀, A d₀ w₀ ∧ d = { d₀ with guardsClean := false } ∧
      w = w₀.setLife s .free) (f := fun w => w.setLife s .free) (fun _ _ => rfl) ?_ ?_) fun _ => set_rule _ ?_
    · rintro d' w ⟨rfl, d₀, ha, rfl⟩
      exact (free d₀ w ha (by cases s <;> exact some)).1
    · rintro d' w ⟨rfl, d₀, ha, rfl⟩
      exact ⟨rfl, d₀, w, ha, rfl, rfl⟩
    · rintro d' w ⟨rfl, d₀, w₀, ha, rfl, rfl⟩
      exact (free d₀ w₀ ha (by cases s <;> exact some)).2
  · refine hc.mono ?_
    rintro d' w ⟨rfl, d₀, ha, rfl⟩
    refine skip d₀ w ha ?_
    cases s <;> simpa [Driver.buffer] using none

/-- Memory that is found unfit goes back at once. -/
theorem allocate_rule {s : Slot} {n : ℕ} (small : n + 2 * page ≤ 2 ^ 36)
    (vacant : ∀ d w, A d w → d.buffer s = none ∧ w.life s = .free) (unfaulted : ∀ d w, A d w → w.faulted = false)
    (good : ∀ d w, A d w → Good { d with guardsClean := false } w)
    (h : ∀ d w b, A d w → b.Sound n → B (Driver.setBuffer { d with guardsClean := false } s (some b)) (w.setLife s .held)) :
    Triple (Assert A) (allocate s n) (fun _ => Assert B) Fail := by
  refine Triple.bind (set_rule (B := fun d w => ∃ d₀, A d₀ w ∧ d = { d₀ with guardsClean := false }) _
    fun d w h => ⟨d, h, rfl⟩) fun _ => Triple.bind (silent fun _ => ask_at _) fun r => ?_
  have start : ∀ d w, (∃ d₀, A d₀ w ∧ d = { d₀ with guardsClean := false }) → Good d w := by
    rintro d w ⟨d₀, ha, rfl⟩
    exact good d₀ w ha
  match r with
  | none => exact Triple.stop fun _ hc => hc.mono start
  | some (dma, aligned) =>
    let b : Buffer := ⟨dma, n + 2 * page⟩
    refine Triple.bind (note_rule (f := fun w => w.setLife s .held) (B := fun d w => ∃ d₀ w₀, A d₀ w₀ ∧
      d = { d₀ with guardsClean := false } ∧ w = w₀.setLife s .held) (fun _ _ => rfl) ?_ ?_) fun _ => ?_
    · rintro d w ⟨d₀, ha, rfl⟩
      exact ⟨unfaulted d₀ w ha, (vacant d₀ w ha).2⟩
    · rintro d w ⟨d₀, ha, rfl⟩
      exact ⟨d₀, w, ha, rfl, rfl⟩
    refine Triple.bind (set_rule (B := fun d w => ∃ d₀ w₀, A d₀ w₀ ∧
      d = Driver.setBuffer { d₀ with guardsClean := false } s (some b) ∧ w = w₀.setLife s .held) _ ?_) fun _ => ?_
    · rintro d w ⟨d₀, w₀, ha, rfl, rfl⟩
      exact ⟨d₀, w₀, ha, rfl, rfl⟩
    refine Triple.when (fun _ => ?_) fun c hc sound => ?_
    · refine Triple.bind (free_rule (B := Good) ?_ ?_) fun _ => Triple.stop fun _ hc => hc
      · rintro d w ⟨d₀, w₀, ha, rfl, rfl⟩ none
        simp [Driver.buffer_setBuffer] at none
      · rintro d w ⟨d₀, w₀, ha, rfl, rfl⟩ -
        obtain ⟨empty, free⟩ := vacant d₀ w₀ ha
        refine ⟨⟨unfaulted d₀ w₀ ha, .inl (w₀.life_setLife s .held)⟩, ?_⟩
        rw [Watch.setLife_setLife, Watch.setLife_self free]
        have back := Driver.setBuffer_none { d₀ with guardsClean := false } (s := s)
          (by cases s <;> exact empty) (some b)
        rw [Driver.clean_setBuffer, back]
        exact good d₀ w₀ ha
    · refine hc.mono ?_
      rintro d w ⟨d₀, w₀, ha, rfl, rfl⟩
      refine h d₀ w₀ b ha ⟨?_, ?_⟩ <;> simp only [b] <;> omega

theorem mark_rule {e : Slot → Event} {s : Slot} {l : Life} (saw : ∀ (w : Watch) older, w.saw older (e s) = w.setLife s l)
    (allowed : ∀ w : Watch, w.Allows (e s)) (h : ∀ d w, A d w → (d.buffer s).isSome → A d (w.setLife s l)) :
    Triple (Assert A) (mark e s) (fun _ => Assert A) E := by
  refine driver_rule fun d => Triple.when (fun some => ?_) fun _ hc _ => hc.mono fun _ _ h => h.2
  refine note_rule saw (fun _ w _ => allowed w) ?_
  rintro d' w ⟨rfl, ha⟩
  exact h d' w ha some

theorem Driver.holds_of_buffer {d : Driver} {s : Slot} (h : (d.buffer s).isSome) : d.Holds s := by
  cases s with
  | fixed b => exact h
  | object i => exact .inl h

/-- A buffer that is there may be in any state. -/
theorem Calm.setLife {d : Driver} {w : Watch} {s : Slot} {l : Life} (h : Calm d w) (holds : d.Holds s) :
    Calm d (w.setLife s l) :=
  { h with
    free := fun t ht => by
      have ne : t ≠ s := by
        rintro rfl
        exact ht holds
      rw [w.life_setLife_of_ne l ne]
      exact h.free t ht }

/-! ### The way to rest -/

theorem provider_rule (p : Provider) : Triple (Assert A) (provider p) (fun _ => Assert A) fun _ => Assert A :=
  Triple.bind (silent fun _ => ask_at _) fun _ => Triple.ofExcept (fun _ _ hc => hc) fun _ _ hc => hc

theorem contain_provider (p : Provider) : Triple (Assert A) (contain (provider p)) (fun _ => Assert A) Fail :=
  contain_rule ((provider_rule p).mono (fun _ hc => hc) (fun _ _ hc => hc) fun _ _ hc => hc.mono fun _ _ _ => trivial)

theorem clockRequest_rule (code : ClockCode) (v : BitVec 32) :
    Triple (Assert A) (clockRequest code v) (fun _ => Assert A) fun _ => Assert A := by
  refine Triple.bind (silent fun _ => ask_at _) fun r => ?_
  refine Triple.bind (Triple.ofExcept (Q := fun _ => Assert A) (fun _ _ hc => hc) fun _ _ hc => hc) fun out => ?_
  refine Triple.bind (Q := fun _ => Assert A) (Triple.require (fun _ hc _ => hc) fun _ hc _ => hc) fun _ => ?_
  exact Triple.pure fun _ hc => hc

theorem clock_rule (code : ClockCode) (v : BitVec 32) :
    Triple (Assert A) (clock code v) (fun _ => Assert A) fun _ => Assert A := by
  refine Triple.bind (clockRequest_rule code v) fun out => Triple.when (fun _ => ?_) fun _ hc _ => hc
  exact Triple.bind (clockRequest_rule _ _) fun _ => Triple.pure fun _ hc => hc

section Rest

variable {D : Driver → Prop}

/-- A property of the driver alone that small changes keep. -/
def Lasting (D : Driver → Prop) : Prop := ∀ d d' : Driver, D d → d.Minor d' → D d'

theorem Lasting.steady (lasting : Lasting D) : Steady fun d _ => D d := fun d d' _ h minor => lasting d d' h minor

theorem Lasting.stable (lasting : Lasting D) : Stable fun d _ => D d := fun d d' _ _ h minor _ => lasting d d' h minor

/-- A calm driver with a property, and a core on its way to rest. -/
def Resting (D : Driver → Prop) (q : Quiet) (d : Driver) (w : Watch) : Prop := (Calm d w ∧ D d) ∧ w.quiet = q

theorem quiesce_rule : Triple (Assert fun d w => Calm d w ∧ D d) quiesce (fun _ => Assert (Resting D .pulsed)) Fail := by
  refine Triple.bind (mask_rule false) fun _ => ?_
  refine Triple.bind (contain_hw (B := Resting D .drained) (fun _ => v3dDrain_at)
    fun _ _ h => ⟨⟨h.1.sawIdle.quiet, h.2⟩, rfl⟩) fun _ => ?_
  refine Triple.bind (contain_hw (B := Resting D .reset) (fun _ => v3dSmsReset_at)
    fun _ _ h => ⟨⟨h.1.1.quiet, h.1.2⟩, by simp [h.2]⟩) fun _ => ?_
  refine Triple.bind (contain_rule (Q := fun _ => Assert (Resting D .pulsed)) (Triple.bind
    ((provider_rule .pulse).mono (fun _ hc => hc) (fun _ _ hc => hc) fun _ _ hc => hc.mono fun _ _ _ => trivial)
    fun _ => ?_)) fun _ => ?_
  · exact note_rule (f := fun w => { w with quiet := if w.quiet = .reset then .pulsed else w.quiet })
      (fun _ _ => rfl) (fun _ _ _ => trivial) fun _ _ h => ⟨⟨h.1.1.quiet, h.1.2⟩, by simp [h.2]⟩
  · exact silent fun _ => latch_at _

theorem atRest_rule : Triple (Assert (Resting D .pulsed)) atRest (fun _ => Assert (Resting D .off))
    fun _ => Assert fun _ _ => True := by
  refine Triple.bind (Q := fun _ => Assert (Resting D .idle)) (Triple.orElse
    (hw_rule (fun _ => v3dIdle_at) fun _ _ h => ⟨⟨h.1.1.sawIdle, h.1.2⟩, by simp [Watch.sawIdle, h.2]⟩)
    fun _ => Triple.stop fun _ hc => hc) fun _ => ?_
  refine Triple.bind (on_exact (f := fun v w => w.sawMmu v) (B := fun v d w => v &&& 1 = 0 → Resting D .off d w)
    (fun _ _ _ => readMmu_at) fun d w v h off => ⟨⟨?_, h.1.2⟩, if_pos ⟨h.2, off⟩⟩) fun mmu => ?_
  · exact h.1.1.of_watch rfl rfl (fun _ h => h) rfl rfl
  · exact Triple.require (fun _ hc off => hc.mono fun _ _ h => h off) fun _ hc _ => ⟨hc.1, trivial⟩

theorem Calm.minor {d d' : Driver} {w : Watch} (h : Calm d w) (minor : d.Minor d') : Calm d' w :=
  stable_calm h minor (.refl w)

theorem reset_rule (lasting : Lasting D) :
    Triple (Assert fun d w => Calm d w ∧ D d) reset (fun _ => Assert fun d w => Calm d w ∧ D d) Fail := by
  have steady : Steady fun d w => Calm d w ∧ D d := stable_calm.steady.and lasting.steady
  refine Triple.bind (minor_rule steady _ fun d => ⟨_, _, _, _, rfl⟩) fun _ => ?_
  refine Triple.bind quiesce_rule fun _ => Triple.bind (contain_rule atRest_rule) fun _ => ?_
  refine Triple.mono (P := Assert fun d w => Calm d w ∧ D d) ?_ (fun _ hc => hc.mono fun _ _ h => h.1)
    (fun _ _ hc => hc) fun _ _ hc => hc
  refine Triple.bind (write_rule _ _ _ (by rfl) (by decide)) fun _ => Triple.bind (write_rule _ _ _ (by rfl) (by decide)) fun _ => forget_rule fun d => ?_
  refine Triple.bind (Triple.when (Q := fun _ => Assert fun d w => Calm d w ∧ D d) (fun _ => ?_) fun _ hc _ => hc)
    fun _ => ?_
  · have mapped (s : Slot) (d : Driver) (w : Watch) (h : Calm d w ∧ D d) (there : (d.buffer s).isSome) :
        Calm d (w.setLife s .mapped) ∧ D d := ⟨h.1.setLife (d.holds_of_buffer there), h.2⟩
    refine Triple.bind (mark_rule (fun _ _ => rfl) (fun _ => trivial) (mapped _)) fun _ => ?_
    refine Triple.bind (mark_rule (fun _ _ => rfl) (fun _ => trivial) (mapped _)) fun _ => ?_
    refine contain_on (fun _ => v3dMmuStart_at _ _) fun d w v h => ⟨?_, h.2⟩
    exact h.1.flush.of_watch rfl rfl (fun _ h => h) rfl rfl
  · exact Triple.bind pending_rule fun _ => mask_rule true

end Rest

/-! ### The end of a session -/

/-- The core is at rest, or there never was memory. -/
structure Idle (d : Driver) (w : Watch) : Prop where
  unfaulted : w.faulted = false
  boot : d.bootFault = false
  proved : w.unproved = false
  free : ∀ s, ¬d.Holds s → w.life s = .free
  fences : ∀ r, w.fence r ≤ d.submitted r
  handles : w.handle ≤ d.space.objectSerial
  claimed : d.claimed = false
  rest : w.quiet = .off ∨ ∀ s, ¬d.Holds s
  serial : d.space.objectSerial < 2 ^ 32

theorem stable_resting : Stable Idle := by
  rintro d _ w _ h ⟨i, g, f, s, rfl⟩ ⟨se, m, q, rfl, off⟩
  exact { h with rest := h.rest.imp_left off }

theorem retire_rule : Triple (Assert Calm) retire (fun _ => Assert Idle) Fail := by
  have stable : Stable (Resting (fun _ => True) .off) := (stable_calm.and fun _ _ _ _ _ _ _ => trivial).and stable_off
  refine Triple.bind (quiesce_rule.mono (fun _ hc => hc.mono fun _ _ h => ⟨h, trivial⟩) (fun _ _ hc => hc)
    fun _ _ hc => hc) fun _ => ?_
  refine Triple.bind (contain_rule (Q := fun _ => Assert (Resting (fun _ => True) .off))
    (Triple.bind atRest_rule fun _ => ?_)) fun _ => ?_
  · refine Triple.bind (read_rule stable _ _) fun table => ?_
    refine Triple.bind (Q := fun _ => Assert (Resting (fun _ => True) .off)) (Triple.require (fun _ hc _ => hc)
      fun _ hc _ => hc.mono fun _ _ _ => trivial) fun _ => Triple.bind (read_rule stable _ _) fun trap => ?_
    exact Triple.require (fun _ hc _ => hc) fun _ hc _ => hc.mono fun _ _ _ => trivial
  refine Triple.bind (mask_rule false) fun _ => Triple.bind (guards_rule stable.steady) fun _ => ?_
  refine set_rule _ fun d w h => ?_
  obtain ⟨⟨calm, -⟩, off⟩ := h
  exact { calm with claimed := rfl, rest := .inl off }

/-- What a driver without memory lets go of. -/
theorem Idle.free_all {d : Driver} {w : Watch} (h : Idle d w) {s : Slot} (holds : d.Holds s) :
    w.Allows (.freed s) :=
  ⟨h.unfaulted, .inr (.inr (h.rest.resolve_right fun none => none s holds))⟩

theorem drop_rule {i : Fin 256}
    (allowed : ∀ d w, A d w → d.Holds (.object i) → w.Allows (.freed (.object i)))
    (once : ∀ d w, A d w → (d.space.objects i).buffer.isSome → (d.space.objects i).importedMdl.isSome → w.quiet = .off)
    (h : ∀ d w w', A d w → (if d.Holds (.object i) then w' = w.setLife (.object i) .free else w' = w) →
      B (Driver.emptied { d with guardsClean := false } i) w') :
    Triple (Assert A) (dropObject i) (fun _ => Assert B) E := by
  refine Triple.bind (free_rule (B := fun d w => ∃ d₀ w₀, A d₀ w₀ ∧
    d.emptied i = Driver.emptied { d₀ with guardsClean := false } i ∧
    (d.space.objects i).importedMdl = (d₀.space.objects i).importedMdl ∧
      if (d₀.space.objects i).buffer.isSome then w = w₀.setLife (.object i) .free else w = w₀) ?_ ?_) fun _ => ?_
  · intro d w ha none
    refine ⟨d, w, ha, rfl, rfl, ?_⟩
    rw [if_neg (by simpa [Driver.buffer] using none)]
  · intro d w ha some
    refine ⟨allowed d w ha (.inl some), d, w, ha, ?_, by simp [Driver.setBuffer], ?_⟩
    · simp [Driver.emptied, Driver.setBuffer]
    · exact (if_pos some).mpr rfl
  refine driver_rule fun d => Triple.bind (Triple.when (Q := fun _ => Assert fun d w => ∃ d₀ w₀, A d₀ w₀ ∧
    d.emptied i = Driver.emptied { d₀ with guardsClean := false } i ∧
      if d₀.Holds (.object i) then w = w₀.setLife (.object i) .free else w = w₀)
    (fun there => ?_) fun c hc gone => hc.mono ?_) fun _ => set_rule _ ?_
  · refine note_rule (f := fun w => w.setLife (.object i) .free) (fun _ _ => rfl) ?_ ?_
    · rintro d' w ⟨rfl, d₀, w₀, ha, drop, mdl, eq⟩
      rw [mdl] at there
      split at eq
      · subst eq
        exact ⟨(allowed d₀ w₀ ha (.inr there)).1, .inr (.inr (once d₀ w₀ ha ‹_› there))⟩
      · subst eq
        exact allowed d₀ w ha (.inr there)
    · rintro d' w ⟨rfl, d₀, w₀, ha, drop, mdl, eq⟩
      rw [mdl] at there
      have holds : d₀.Holds (.object i) := .inr there
      refine ⟨d₀, w₀, ha, drop, ?_⟩
      rw [if_pos holds]
      split at eq
      · rw [eq, Watch.setLife_setLife]
      · rw [eq]
  · rintro d' w ⟨rfl, d₀, w₀, ha, drop, mdl, eq⟩
    rw [mdl] at gone
    refine ⟨d₀, w₀, ha, drop, ?_⟩
    by_cases some : (d₀.space.objects i).buffer.isSome
    · have holds : d₀.Holds (.object i) := .inl some
      rw [if_pos holds]
      rwa [if_pos some] at eq
    · have holds : ¬d₀.Holds (.object i) := not_or.mpr ⟨some, gone⟩
      rw [if_neg holds]
      rwa [if_neg some] at eq
  · rintro d w ⟨d₀, w₀, ha, drop, eq⟩
    rw [drop]
    exact h d₀ w₀ w ha eq

theorem holds_emptied {d : Driver} {i : Fin 256} {s : Slot} :
    (Driver.emptied { d with guardsClean := false } i).Holds s ↔ d.Holds s ∧ s ≠ .object i := by
  cases s with
  | fixed b => simp [Driver.Holds, Driver.emptied]
  | object j =>
    by_cases h : j = i
    · subst h
      simp [Driver.Holds, Driver.emptied, Object.empty]
    · simp [Driver.Holds, Driver.emptied, h]

/-- The observer knows of a slot that nothing is in it. -/
theorem free_emptied {d : Driver} {w w' : Watch} {i : Fin 256} (free : ∀ s, ¬d.Holds s → w.life s = .free)
    (eq : if d.Holds (.object i) then w' = w.setLife (.object i) .free else w' = w) (s : Slot)
    (hs : ¬(Driver.emptied { d with guardsClean := false } i).Holds s) : w'.life s = .free := by
  rw [holds_emptied, not_and, not_not] at hs
  split at eq
  · subst eq
    by_cases h : s = .object i
    · subst h
      exact w.life_setLife _ _
    · rw [w.life_setLife_of_ne _ h]
      exact free s fun holds => h (hs holds)
  · subst eq
    refine free s fun holds => ?_
    have := hs holds
    subst this
    exact absurd holds ‹_›

theorem dropAll_rule : Triple (Assert Idle) (each dropObject slots)
    (fun _ => Assert fun d w => Idle d w ∧ ∀ i, d.space.objects i = Object.empty) E := by
  refine Triple.mono (Triple.each_rest (I := fun rest => Assert fun d w => Idle d w ∧
    ∀ i, i ∉ rest → d.space.objects i = Object.empty) (fun i rest => ?_) slots)
    (fun _ hc => hc.mono fun d w h => ⟨h, fun i hi => absurd (mem_slots i) hi⟩)
    (fun _ _ hc => hc.mono fun d w h => ⟨h.1, fun i => h.2 i List.not_mem_nil⟩) fun _ _ hc => hc
  refine drop_rule (fun _ _ h holds => h.1.free_all holds) (fun d w h buffer _ => ?_) fun d w w' h eq => ⟨?_, fun j hj => ?_⟩
  · exact h.1.rest.resolve_right fun none => none (.object i) (.inl buffer)
  · have same : w'.faulted = w.faulted ∧ w'.unproved = w.unproved ∧ w'.fence = w.fence ∧
        w'.handle = w.handle ∧ w'.quiet = w.quiet := by
      split at eq <;> subst eq <;> exact ⟨rfl, rfl, rfl, rfl, rfl⟩
    exact {
      unfaulted := same.1 ▸ h.1.unfaulted
      boot := h.1.boot
      proved := same.2.1 ▸ h.1.proved
      free := free_emptied h.1.free eq
      fences := same.2.2.1 ▸ h.1.fences
      handles := same.2.2.2.1 ▸ h.1.handles
      claimed := h.1.claimed
      rest := same.2.2.2.2 ▸ h.1.rest.imp_right fun none s hs => none s (holds_emptied.mp hs).1
      serial := h.1.serial }
  · by_cases hji : j = i
    · subst hji
      simp [Driver.emptied]
    · simpa [Driver.emptied, hji] using h.2 j (by simp [hji, hj])

/-- All objects are gone, and their bytes. -/
def Emptied (d : Driver) (w : Watch) : Prop := Idle d w ∧ d.memorySession = false ∧ d.space.Clear

/-- Nothing is left of the session but its leases. -/
def Bare (d : Driver) (w : Watch) : Prop := Emptied d w ∧ ∀ s, ¬d.Holds s

theorem holds_setBuffer_fixed {d : Driver} {b : Fixed} {s : Slot} :
    (Driver.setBuffer { d with guardsClean := false } (.fixed b) none).Holds s ↔ d.Holds s ∧ s ≠ .fixed b := by
  cases s with
  | object i => simp [Driver.Holds, Driver.setBuffer]
  | fixed f =>
    by_cases h : f = b
    · subst h
      simp [Driver.Holds, Driver.setBuffer]
    · simp [Driver.Holds, Driver.setBuffer, h]

theorem freeFixed_rule : Triple (Assert Emptied) (each (fun b => freeBuffer (.fixed b)) lastBuffers)
    (fun _ => Assert Bare) E := by
  refine Triple.mono (Triple.each_rest (I := fun rest => Assert fun d w => Emptied d w ∧
    ∀ b, b ∉ rest → d.fixed b = none) (fun b rest => ?_) lastBuffers)
    (fun _ hc => hc.mono fun d w h => ⟨h, fun b hb => absurd ?_ hb⟩)
    (fun _ _ hc => hc.mono fun d w h => ⟨h.1, fun s => ?_⟩) fun _ _ hc => hc
  · refine free_rule (fun d w h none => ⟨⟨{ h.1.1 with }, h.1.2⟩, fun f hf => ?_⟩) fun d w h some =>
      ⟨h.1.1.free_all (d.holds_of_buffer some), ⟨⟨?_, h.1.2⟩, fun f hf => ?_⟩⟩
    · by_cases hfb : f = b
      · exact hfb ▸ none
      · exact h.2 f (by simp [hfb, hf])
    · exact {
        unfaulted := h.1.1.unfaulted
        boot := h.1.1.boot
        proved := h.1.1.proved
        free := fun s hs => by
          rw [holds_setBuffer_fixed, not_and, not_not] at hs
          by_cases hsb : s = .fixed b
          · subst hsb
            exact w.life_setLife _ _
          · rw [w.life_setLife_of_ne _ hsb]
            exact h.1.1.free s fun holds => hsb (hs holds)
        fences := h.1.1.fences
        handles := h.1.1.handles
        claimed := h.1.1.claimed
        rest := h.1.1.rest.imp_right fun none s hs => none s (holds_setBuffer_fixed.mp hs).1
        serial := h.1.1.serial }
    · by_cases hfb : f = b
      · subst hfb
        simp [Driver.setBuffer]
      · simpa [Driver.setBuffer, hfb] using h.2 f (by simp [hfb, hf])
  · cases b <;> decide
  · cases s with
    | fixed b => simp [Driver.Holds, h.2 b List.not_mem_nil]
    | object i => simp [Driver.Holds, h.1.2.2.empty i, Object.empty]

/-- The leases go when all memory is free. -/
theorem dropProviders_rule : Triple (Assert Bare) dropProviders (fun _ => Assert fun d w => Bare d w ∧ d.owner = none)
    Fail := by
  have released (l : Lease) : Triple (Assert Bare) (on (note (.released l))) (fun _ => Assert Bare) Fail :=
    note_rule (fun _ _ => rfl) (fun d w h => ⟨h.1.1.unfaulted, fun s => h.1.1.free s (h.2 s)⟩) fun _ _ h => h
  have clear (f : Driver → Driver) (keeps : ∀ d w, Bare d w → Bare (f d) w) :
      Triple (Assert Bare) (set f) (fun _ => Assert Bare) Fail := set_rule f keeps
  refine forget_rule fun d => Triple.bind (Triple.when (Q := fun _ => Assert Bare) (fun _ => ?_) fun _ hc _ => hc)
    fun _ => Triple.bind (Triple.when (Q := fun _ => Assert Bare) (fun _ => ?_) fun _ hc _ => hc) fun _ => ?_
  · refine Triple.bind (released .pm) fun _ => Triple.bind (contain_provider .releasePm) fun _ => ?_
    exact clear _ fun d w h => ⟨⟨{ h.1.1 with }, h.1.2⟩, h.2⟩
  · refine Triple.bind (released .clock) fun _ => Triple.bind (contain_rule
      ((clock_rule .release 0).mono (fun _ hc => hc) (fun _ _ hc => hc) fun _ _ hc => hc.mono fun _ _ _ => trivial))
      fun _ => ?_
    exact clear _ fun d w h => ⟨⟨{ h.1.1 with }, h.1.2⟩, h.2⟩
  · exact set_rule _ fun d w h => ⟨⟨⟨{ h.1.1 with }, h.1.2⟩, h.2⟩, rfl⟩

theorem Bare.calm {d : Driver} {w : Watch} (h : Bare d w) : Calm d w where
  unfaulted := h.1.1.unfaulted
  boot := h.1.1.boot
  proved := h.1.1.proved
  free := h.1.1.free
  fences := h.1.1.fences
  handles := h.1.1.handles
  unclaimed _ := ⟨h.1.2.1, h.2⟩
  ownerless _ := ⟨h.1.1.claimed, h.1.2.1⟩
  session on := absurd h.1.2.1 (by simp [on])
  fixedSession _ := h.1.2.2
  serial := h.1.1.serial

theorem Calm.idle {d : Driver} {w : Watch} (h : Calm d w) (claimed : d.claimed = false) : Idle d w :=
  { h with claimed := claimed, rest := .inr (h.unclaimed claimed).2 }

theorem sleep_rule : Triple (Assert Idle) sleep (fun _ => Assert Idle) Fail := by
  refine Triple.bind (write_rule _ _ _ (by rfl) (by decide)) fun _ => ?_
  refine Triple.bind (contain_hw (f := fun w => w) (fun _ => v3dPoll_at .sms 0x400 _ _ (by decide)) fun _ _ h => h) fun _ => ?_
  exact set_rule _ fun d w h => { h with }

/-- A session ends with everything given back, or with a fault. -/
theorem finish_rule : Triple (Assert Good) finish (fun _ => Assert fun d w => Calm d w ∧ d.owner = none) Fail := by
  refine Triple.bind (set_rule (B := Good) _ fun d w h => h.imp id fun h => { h with }) fun _ => driver_rule fun d => ?_
  refine Triple.bind (Q := fun _ => Assert fun d' w => d' = d ∧ Calm d' w) (Triple.require (fun c hc unfaulted =>
    hc.mono fun d' w h => ?_) fun c hc _ => hc.mono fun _ _ h => h.2) fun _ => ?_
  · obtain ⟨rfl, ⟨boot, -⟩ | calm⟩ := h
    · simp [unfaulted] at boot
    · exact ⟨rfl, calm⟩
  refine Triple.bind (Triple.when (Q := fun _ => Assert Idle) (fun _ => ?_) fun c hc unclaimed =>
    hc.mono fun d' w h => ?_) fun _ => ?_
  · exact retire_rule.mono (fun _ hc => hc.mono fun _ _ h => h.2) (fun _ _ hc => hc) fun _ _ hc => hc
  · obtain ⟨rfl, calm⟩ := h
    exact calm.idle (by simpa using unclaimed)
  refine Triple.bind (snapshot_rule stable_resting) fun _ => forget_rule fun d => ?_
  refine Triple.bind (Triple.when (fun _ => sleep_rule) fun _ hc _ => hc) fun _ => ?_
  refine Triple.bind (snapshot_rule stable_resting) fun _ => ?_
  refine Triple.bind (set_rule (B := Idle) _ fun d w h => { h with }) fun _ => Triple.bind dropAll_rule fun _ => ?_
  refine Triple.bind (set_rule (B := Emptied) _ fun d w h => ⟨{ h.1 with }, rfl, ⟨h.2, rfl, rfl⟩⟩) fun _ => ?_
  refine Triple.bind freeFixed_rule fun _ => dropProviders_rule.mono (fun _ hc => hc) (fun _ _ hc => ?_)
    fun _ _ hc => hc
  exact hc.mono fun d w h => ⟨h.1.calm, h.2⟩

/-! ### The start of a session -/

/-- The file owns the device, which is not claimed yet. -/
def Fresh (d : Driver) : Prop := d.claimed = false ∧ d.memorySession = false ∧ d.owner ≠ none

/-- The device is claimed, and is not a memory session yet. -/
def Claimed (d : Driver) : Prop := d.claimed = true ∧ d.memorySession = false ∧ d.owner ≠ none

theorem lasting_fresh : Lasting Fresh := by
  rintro d _ h ⟨i, g, f, s, rfl⟩
  exact h

theorem lasting_claimed : Lasting Claimed := by
  rintro d _ h ⟨i, g, f, s, rfl⟩
  exact h

theorem fresh_good {d : Driver} {w : Watch} (h : Calm d w ∧ Fresh d) : Good d w := h.1.good

theorem wake_rule : Triple (Assert fun d w => Calm d w ∧ Fresh d) wake (fun _ => Assert fun d w => Calm d w ∧ Fresh d)
    Fail := by
  refine Triple.bind (set_rule (B := fun d w => Calm d w ∧ Fresh d) _ fun d w h => ⟨{ h.1 with }, h.2⟩) fun _ => ?_
  refine Triple.bind (write_rule _ _ _ (by rfl) (by decide)) fun _ => ?_
  exact contain_hw (f := fun w => w) (fun _ => v3dPoll_at .sms 0x400 _ _ (by decide)) fun _ _ h => h

theorem acquire_rule (file : ℕ) : Triple (Assert fun d w => Calm d w ∧ d.owner = none) (acquire file)
    (fun _ => Assert fun d w => Calm d w ∧ Fresh d) Fail := by
  have stable : Stable fun d w => Calm d w ∧ Fresh d := stable_calm.and lasting_fresh.stable
  have provide (p : Provider) : Triple (Assert fun d w => Calm d w ∧ Fresh d) (provider p)
      (fun _ => Assert fun d w => Calm d w ∧ Fresh d) Fail :=
    (provider_rule p).mono (fun _ hc => hc) (fun _ _ hc => hc) fun _ _ hc => hc.mono fun _ _ h => fresh_good h
  have clocked (code : ClockCode) (v : BitVec 32) : Triple (Assert fun d w => Calm d w ∧ Fresh d) (clock code v)
      (fun _ => Assert fun d w => Calm d w ∧ Fresh d) Fail :=
    (clock_rule code v).mono (fun _ hc => hc) (fun _ _ hc => hc) fun _ _ hc => hc.mono fun _ _ h => fresh_good h
  have opened (p : Provider) (already : Bool) : Triple (Assert fun d w => Calm d w ∧ Fresh d) (openTarget p already)
      (fun _ => Assert fun d w => Calm d w ∧ Fresh d) Fail :=
    Triple.when (fun _ => provide p) fun _ hc _ => hc
  have keep (f : Driver → Driver) (h : ∀ d w, Calm d w ∧ Fresh d → Calm (f d) w ∧ Fresh (f d)) :
      Triple (Assert fun d w => Calm d w ∧ Fresh d) (set f) (fun _ => Assert fun d w => Calm d w ∧ Fresh d) Fail :=
    set_rule f h
  have check {c : Prop} [Decidable c] (e : Status) : Triple (Assert fun d w => Calm d w ∧ Fresh d) (require c e)
      (fun _ => Assert fun d w => Calm d w ∧ Fresh d) Fail :=
    (require_rule fun _ _ h => fresh_good h).mono (fun _ hc => hc) (fun _ _ hc => hc.mono fun _ _ h => h.2)
      fun _ _ hc => hc
  refine Triple.bind (set_rule (B := fun d w => Calm d w ∧ Fresh d) _ fun d w h => ?_) fun _ => ?_
  · obtain ⟨claimed, session⟩ := h.1.ownerless h.2
    exact ⟨{ h.1 with ownerless := fun none => by simp at none }, claimed, session, by simp⟩
  refine Triple.bind (note_rule (fun _ _ => rfl) (fun d w h => h.1.unfaulted) fun _ _ h => h) fun _ => ?_
  refine Triple.bind (provide .graph) fun _ => forget_rule fun d => Triple.bind (opened _ _) fun _ => ?_
  refine Triple.bind (keep _ fun d w h => ⟨{ h.1 with }, h.2⟩) fun _ => Triple.bind (opened _ _) fun _ => ?_
  refine Triple.bind (keep _ fun d w h => ⟨{ h.1 with }, h.2⟩) fun _ => Triple.bind (clocked _ _) fun _ => ?_
  refine Triple.bind (keep _ fun d w h => ⟨{ h.1 with }, h.2⟩) fun _ => Triple.bind (provide _) fun _ => ?_
  refine Triple.bind (keep _ fun d w h => ⟨{ h.1 with }, h.2⟩) fun _ => Triple.bind (clocked _ _) fun _ => ?_
  refine Triple.bind (keep _ fun d w h => ⟨{ h.1 with }, h.2⟩) fun _ => ?_
  refine Triple.bind (read_rule stable _ _) fun sms => Triple.bind (check _) fun _ => ?_
  refine Triple.bind (read_rule stable _ _) fun ree => Triple.bind (check _) fun _ => ?_
  refine Triple.bind (check _) fun _ => Triple.bind (Triple.when (fun _ => wake_rule) fun _ hc _ => hc) fun _ => ?_
  refine Triple.bind (snapshot_rule stable) fun _ => forget_rule fun d => Triple.bind (check _) fun _ => ?_
  refine Triple.bind (Q := fun _ => Assert fun d w => Calm d w ∧ Fresh d) ?_ fun _ => ?_
  · -- an engine that is busy belongs to someone else: no fault, the session just ends
    refine Triple.mono (on_rule (F := fun _ d w => Calm d w ∧ Fresh d) fun d w h => Triple.mapError (v3dIdle_same.mono (fun _ hm => hm)
      (fun _ _ hm => ⟨_, hm, h.1.sawIdle, h.2⟩) fun _ _ hm => ⟨w, hm, h⟩)) (fun _ hc => hc) (fun _ _ hc => hc) ?_
    exact fun _ _ hc => hc.mono fun _ _ h => fresh_good h
  refine Triple.bind (read_rule stable _ _) fun mmu => Triple.bind (check _) fun _ => ?_
  refine Triple.bind (read_rule stable _ _) fun gmp => Triple.bind (check _) fun _ => ?_
  exact Triple.bind (read_rule stable _ _) fun config => check _

theorem Calm.setFixed {d : Driver} {w : Watch} {b : Fixed} {x : Buffer} (h : Calm d w) (claimed : Claimed d) :
    Calm (Driver.setBuffer { d with guardsClean := false } (.fixed b) (some x)) (w.setLife (.fixed b) .held) where
  unfaulted := h.unfaulted
  boot := h.boot
  proved := h.proved
  free s hs := by
    by_cases hsb : s = .fixed b
    · subst hsb
      simp [Driver.Holds, Driver.setBuffer] at hs
    · rw [w.life_setLife_of_ne _ hsb]
      refine h.free s fun holds => hs ?_
      cases s with
      | object i => exact holds
      | fixed f =>
        have : f ≠ b := fun eq => hsb (eq ▸ rfl)
        simpa [Driver.Holds, Driver.setBuffer, this] using holds
  fences := h.fences
  handles := h.handles
  unclaimed none := absurd claimed.1 (by simp [show d.claimed = false from none])
  ownerless none := absurd none claimed.2.2
  session on := absurd claimed.2.1 (by simp [show d.memorySession = true from on])
  fixedSession := h.fixedSession
  serial := h.serial

/-- These buffers are still to be allocated. -/
def Waiting (rest : List (Fixed × ℕ)) (d : Driver) (w : Watch) : Prop :=
  (Calm d w ∧ Claimed d) ∧ (rest.map Prod.fst).Nodup ∧ ∀ b ∈ rest, d.fixed b.1 = none ∧ b.2 + 2 * page ≤ 2 ^ 36

theorem allocateFixed_rule : Triple (Assert fun d w => (Calm d w ∧ Claimed d) ∧ ∀ b, d.fixed b = none)
    (each (fun b => allocate (.fixed b.1) b.2) firstBuffers) (fun _ => Assert fun d w => Calm d w ∧ Claimed d) Fail := by
  refine Triple.mono (Triple.each_rest (I := fun rest => Assert (Waiting rest)) (fun b rest => ?_) firstBuffers)
    (fun _ hc => hc.mono fun d w h => ⟨h.1, by decide, fun b hb => ⟨h.2 b.1, ?_⟩⟩)
    (fun _ _ hc => hc.mono fun d w h => h.1) fun _ _ hc => hc
  · intro c hc
    refine allocate_rule (A := Waiting (b :: rest)) (hc.2.2.2 b List.mem_cons_self).2 ?_ ?_ ?_ ?_ hc
    · intro d w h
      have none := (h.2.2 b List.mem_cons_self).1
      exact ⟨none, h.1.1.free _ (by simp [Driver.Holds, none])⟩
    · exact fun d w h => h.1.1.unfaulted
    · exact fun d w h => .inr { h.1.1 with }
    · intro d w x h _
      obtain ⟨fresh, nodup⟩ := List.nodup_cons.mp h.2.1
      refine ⟨⟨h.1.1.setFixed h.1.2, h.1.2⟩, nodup, fun y hy => ?_⟩
      have ne : y.1 ≠ b.1 := fun eq => fresh (eq ▸ List.mem_map_of_mem hy)
      have := h.2.2 y (List.mem_cons_of_mem b hy)
      exact ⟨by simpa [Driver.setBuffer, ne] using this.1, this.2⟩
  · simp only [firstBuffers, List.mem_cons, List.not_mem_nil, or_false] at hb
    rcases hb with rfl | rfl | rfl | rfl | rfl | rfl | rfl | rfl <;> decide

/-- Only the table changes, and no object is there to notice. -/
theorem table_rule {D : Driver → Prop} (f : Driver → Driver) (table : ∀ d : Driver, ∃ t, f d = { d with
      space := { d.space with table := t } }) (session : ∀ d, D d → d.memorySession = false) {F : Driver → Prop}
    (h : ∀ d, D d → F (f d)) :
    Triple (Assert fun d w => Calm d w ∧ D d) (set f) (fun _ => Assert fun d w => Calm d w ∧ F d) E := by
  refine set_rule f fun d w hd => ⟨?_, h d hd.2⟩
  obtain ⟨t, eq⟩ := table d
  rw [eq]
  exact { hd.1 with
    session := fun on => absurd (session d hd.2) (by simp [show d.memorySession = true from on])
    fixedSession := fun off => ⟨(hd.1.fixedSession off).empty, (hd.1.fixedSession off).objectBytes,
      (hd.1.fixedSession off).importedBytes⟩ }

theorem mapFixed_rule (b : Fixed) (va : BitVec 32) (bytes : ℕ) (writable : Bool) :
    Triple (Assert fun d w => Calm d w ∧ Claimed d) (mapFixed b va bytes writable)
      (fun _ => Assert fun d w => Calm d w ∧ Claimed d) Fail := by
  refine Triple.bind (mark_rule (fun _ _ => rfl) (fun _ => trivial) fun d w h there =>
    ⟨h.1.setLife (d.holds_of_buffer there), h.2⟩) fun _ => ?_
  exact table_rule _ (fun d => ⟨_, rfl⟩) (fun _ h => h.2.1) fun _ h => h

theorem establish_rule : Triple (Assert fun d w => Calm d w ∧ Fresh d) establish
    (fun _ => Assert fun d w => Calm d w ∧ Claimed d) Fail := by
  refine Triple.bind (set_rule (B := fun d w => (Calm d w ∧ Claimed d) ∧ ∀ b, d.fixed b = none) _ fun d w h => ?_)
    fun _ => Triple.bind allocateFixed_rule fun _ => ?_
  · obtain ⟨calm, claimed, session, owner⟩ := h
    refine ⟨⟨{ calm with unclaimed := fun none => by simp at none, ownerless := fun none => absurd none owner },
      rfl, session, owner⟩, fun b => ?_⟩
    simpa [Driver.Holds] using (calm.unclaimed claimed).2 (.fixed b)
  refine Triple.bind (table_rule (F := Claimed) _ (fun d => ⟨_, rfl⟩) (fun _ h => h.2.1) fun _ h => h) fun _ => ?_
  refine Triple.bind (set_rule (B := fun d w => Calm d w ∧ Claimed d) _ fun d w h => ⟨{ h.1 with }, h.2⟩) fun _ => ?_
  refine Triple.bind (Q := fun _ => Assert fun d w => Calm d w ∧ Claimed d) ?_ fun _ => ?_
  · refine Triple.bind (mapFixed_rule _ _ _ _) fun _ => Triple.bind (mapFixed_rule _ _ _ _) fun _ => ?_
    refine Triple.bind (mapFixed_rule _ _ _ _) fun _ => Triple.bind (mapFixed_rule _ _ _ _) fun _ => ?_
    exact Triple.bind (mapFixed_rule _ _ _ _) fun _ => mapFixed_rule _ _ _ _
  refine Triple.bind (reset_rule lasting_claimed) fun _ => ?_
  exact snapshot_rule (stable_calm.and lasting_claimed.stable)

/-- A session begins with everything in place, or leaves nothing behind but a fault. -/
theorem begin_rule (file : ℕ) : Triple (Assert Calm) (begin file) (fun _ => Assert fun d w => Calm d w ∧ Claimed d)
    Fail := by
  refine driver_rule fun d => ?_
  refine Triple.bind (require_rule fun _ _ h => h.2.good) fun _ => ?_
  refine Triple.bind (require_rule fun _ _ h => h.2.2.good) fun _ => ?_
  refine Triple.orElse (Triple.bind ((acquire_rule file).mono (fun _ hc => hc.mono fun d' w h => ?_) (fun _ _ hc => hc)
    fun _ _ hc => hc) fun _ => establish_rule) fun s => ?_
  · obtain ⟨none, -, rfl, calm⟩ := h
    exact ⟨calm, none⟩
  · refine Triple.bind (set_rule (B := Good) _ fun d w h => h.imp id fun h => { h with }) fun _ => forget_rule fun d => ?_
    refine Triple.bind (Triple.when (Q := fun _ => Assert Good) (fun _ => ?_) fun _ hc _ => hc) fun _ => ?_
    · exact finish_rule.mono (fun _ hc => hc) (fun _ _ hc => hc.mono fun _ _ h => h.1.good) fun _ _ hc => hc
    · exact Triple.stop fun _ hc => hc

theorem memoryBegin_rule (file : ℕ) : Triple (Assert Calm) (memoryBegin file) (fun _ => Assert Calm) Fail := by
  refine Triple.bind (begin_rule file) fun _ => ?_
  refine Triple.bind (contain_hw (B := fun d w => Calm d w ∧ Claimed d) (fun _ => v3dDrain_at)
    fun _ _ h => ⟨h.1.sawIdle.quiet, h.2⟩) fun _ => ?_
  refine Triple.bind (Triple.each fun b _ => mark_rule (fun _ _ => rfl) (fun _ => trivial) fun d w h there =>
    ⟨h.1.setLife (d.holds_of_buffer there), h.2⟩) fun _ => ?_
  refine Triple.bind (table_rule (F := fun d => Claimed d ∧ ∀ k, d.space.table k = 0) _ (fun d => ⟨_, rfl⟩)
    (fun _ h => h.2.1) fun _ h => ⟨h, fun _ => rfl⟩) fun _ => ?_
  refine Triple.bind (contain_on (B := fun d w => Calm d w ∧ Claimed d ∧ ∀ k, d.space.table k = 0)
    (fun _ => v3dMmuFlush_at) fun d w v h => ⟨h.1.flush.of_watch rfl rfl (fun _ h => h) rfl rfl, h.2⟩) fun _ => ?_
  refine set_rule _ fun d w h => ?_
  obtain ⟨calm, ⟨claimed, session, owner⟩, table⟩ := h
  exact { calm with
    ownerless := fun none => absurd none owner
    unclaimed := fun none => absurd claimed (by simp [show d.claimed = false from none])
    session := fun _ => (calm.fixedSession session).valid table
    fixedSession := fun off => by simp at off }

end Pi5Drivers.V3d
