import Pi5Drivers.V3d.Requests

/-! Functions of the driver that change nothing the guards depend on: no buffer, no entry of the table and
no counter. They end in a driver that is like the one they started with, or record a fault. -/

namespace Pi5Drivers.V3d

open Effect

/-- Only what the guards do not depend on is different. -/
structure Driver.Alike (d d' : Driver) : Prop where
  boot : d'.bootFault = d.bootFault
  session : d'.memorySession = d.memorySession
  clean : d'.guardsClean = d.guardsClean
  fixed : d'.fixed = d.fixed
  space : d'.space = d.space
  failures : d'.guardFailures = d.guardFailures
  scratch : d'.scratchWrites = d.scratchWrites
  owner : d'.owner = none → d.owner = none

theorem Driver.Alike.refl (d : Driver) : d.Alike d := ⟨rfl, rfl, rfl, rfl, rfl, rfl, rfl, id⟩

theorem Driver.Alike.trans {d₁ d₂ d₃ : Driver} (h : d₁.Alike d₂) (h' : d₂.Alike d₃) : d₁.Alike d₃ where
  boot := h'.boot.trans h.boot
  session := h'.session.trans h.session
  clean := h'.clean.trans h.clean
  fixed := h'.fixed.trans h.fixed
  space := h'.space.trans h.space
  failures := h'.failures.trans h.failures
  scratch := h'.scratch.trans h.scratch
  owner := fun none => h.owner (h'.owner none)

/-- The driver is like `d`. -/
def Like {ε : Type} (d : Driver) (_ : ε) (c : Context) : Prop := d.Alike c.driver

/-- A fault was recorded. -/
def Broken {ε : Type} (_ : ε) (c : Context) : Prop := c.driver.bootFault = true

/-- A function that changes nothing the guards depend on, unless it records a fault. -/
def Mild {α : Type} (x : Drive α) : Prop := ∀ d, Triple (Like d ()) x (Like d) fun e c => Like d e c ∨ Broken e c

/-- One that records a fault when it fails. -/
def Grave {α : Type} (x : Drive α) : Prop := ∀ d, Triple (Like d ()) x (Like d) Broken

section Mild

variable {α β : Type} {x : Drive α} {f : α → Drive β}

theorem Grave.mild (h : Grave x) : Mild x := fun d => (h d).mono (fun _ hc => hc) (fun _ _ hc => hc) fun _ _ hc => .inr hc

theorem Mild.bind (hx : Mild x) (hf : ∀ a, Mild (f a)) : Mild (x >>= f) := fun d => Triple.bind (hx d) fun a => hf a d

theorem Grave.bind (hx : Grave x) (hf : ∀ a, Grave (f a)) : Grave (x >>= f) := fun d => Triple.bind (hx d) fun a => hf a d

theorem grave_pure (a : α) : Grave (pure a : Drive α) := fun _ => Triple.pure fun _ hc => hc

theorem mild_stop (e : Status) : Mild (stop e : Drive α) := fun _ => Triple.stop fun _ hc => .inl hc

theorem grave_driver {f : Driver → Drive β} (h : ∀ d, Grave (f d)) : Grave (driver >>= f) := fun d c hc => h c.driver d hc

theorem mild_driver {f : Driver → Drive β} (h : ∀ d, Mild (f d)) : Mild (driver >>= f) := fun d c hc => h c.driver d hc

theorem grave_set (g : Driver → Driver) (h : ∀ d : Driver, d.Alike (g d)) : Grave (set g) :=
  fun _ => Triple.modify fun c hc => Driver.Alike.trans hc (h c.driver)

theorem mild_set (g : Driver → Driver) (h : ∀ d : Driver, d.Alike (g d)) : Mild (set g) := (grave_set g h).mild

theorem like_on (d : Driver) (y : Effect Machine Status α) : Triple (Like d ()) (on y) (Like d) (Like d) :=
  Triple.zoom fun c hc m _ => by
    rcases y.run m with ⟨e | a, m'⟩
    · exact hc
    · exact hc

theorem mild_on (y : Effect Machine Status α) : Mild (on y) := fun d =>
  (like_on d y).mono (fun _ hc => hc) (fun _ _ hc => hc) fun _ _ hc => .inl hc

/-- What the machine does that cannot fail. -/
theorem grave_on {y : Effect Machine Status α} (h : Triple (fun _ => True) y (fun _ _ => True) fun _ _ => False) : Grave (on y) :=
  fun _ => Triple.zoom fun _ hc m _ => by
    have ended := h (s := m) trivial
    rcases run : y.run m with ⟨e | a, m'⟩
    · rw [run] at ended
      exact ended.elim
    · exact hc

theorem grave_note (e : Event) : Grave (on (note e)) := fun _ => Triple.zoom fun _ hc _ _ => hc

theorem grave_read (b : Block) (off : ℕ) : Grave (on (read b off)) := fun _ => Triple.zoom fun _ hc _ _ => hc

theorem grave_write (b : Block) (off : ℕ) (v : BitVec 32) : Grave (on (write b off v)) := fun _ => Triple.zoom fun _ hc _ _ => hc

theorem grave_modify (g : Machine → Machine) : Grave (on (modify g)) := fun _ => Triple.zoom fun _ hc _ _ => hc

theorem mild_require {c : Prop} [Decidable c] {e : Status} : Mild (require c e) :=
  fun _ => Triple.require (fun _ hc _ => hc) fun _ hc _ => .inl hc

theorem Grave.when {c : Prop} [Decidable c] {x : Drive Unit} (h : Grave x) : Grave (when c x) :=
  fun d => Triple.when (fun _ => h d) fun _ hc _ => hc

theorem Mild.when {c : Prop} [Decidable c] {x : Drive Unit} (h : Mild x) : Mild (when c x) :=
  fun d => Triple.when (fun _ => h d) fun _ hc _ => hc

theorem mild_ofExcept (r : Except Status α) : Mild (ofExcept r) :=
  fun _ => Triple.ofExcept (fun _ _ hc => hc) fun _ _ hc => .inl hc

theorem fault_broken (s : Status) {P : Context → Prop} {Q : α → Context → Prop} : Triple P (fault s : Drive α) Q Broken :=
  Triple.bind (Q := fun _ (c : Context) => c.driver.bootFault = true) (Triple.modify fun _ _ => rfl) fun _ =>
    Triple.bind (Q := fun _ (c : Context) => c.driver.bootFault = true) (Triple.zoom fun _ hc _ _ => hc) fun _ =>
      Triple.stop fun _ hc => hc

theorem Mild.contain (h : Mild x) : Grave (contain x) := fun d => Triple.orElse (h d) fun e => fault_broken e

theorem grave_fault (s : Status) : Grave (fault s : Drive α) := fun _ => fault_broken s

theorem mild_hw (y : Effect Machine Result α) : Mild (hw y) := mild_on _

theorem grave_hw (y : Effect Machine Result α) : Grave (contain (hw y)) := (mild_hw y).contain

theorem grave_attempt {y : Effect Machine Status α} : Grave (attempt (on y)) := fun d =>
  Triple.attempt (R := fun _ => Like d ()) (like_on d y)

end Mild

theorem grave_forget : Grave forget := (grave_note _).bind fun _ => grave_note _

theorem grave_maskOne (u : Irq) (b : Block) (enable : Bool) : Grave (maskOne u b enable) :=
  (grave_write _ _ _).bind fun _ => (grave_modify _).bind fun _ =>
    Grave.when ((grave_write _ _ _).bind fun _ => grave_write _ _ _)

theorem grave_mask (enable : Bool) : Grave (mask enable) := (grave_maskOne _ _ _).bind fun _ => grave_maskOne _ _ _

theorem grave_snapshotCore : Grave snapshotCore := by
  unfold snapshotCore
  iterate 8 refine (grave_read _ _).bind fun _ => ?_
  refine Grave.bind (grave_set _ fun _ => ⟨rfl, rfl, rfl, rfl, rfl, rfl, rfl, id⟩) fun _ => ?_
  iterate 11 refine (grave_read _ _).bind fun _ => ?_
  exact grave_pure ()

theorem grave_snapshot : Grave snapshot :=
  grave_driver fun _ => Grave.when <| (grave_read _ _).bind fun _ => (grave_read _ _).bind fun _ =>
    Grave.bind (grave_set _ fun _ => ⟨rfl, rfl, rfl, rfl, rfl, rfl, rfl, id⟩) fun _ => grave_snapshotCore.when

theorem mild_provider (p : Provider) : Mild (provider p) := (mild_on _).bind fun _ => mild_ofExcept _

theorem mild_clockRequest (code : ClockCode) (v : BitVec 32) : Mild (clockRequest code v) :=
  (mild_on _).bind fun _ => (mild_ofExcept _).bind fun _ => mild_require.bind fun _ => (grave_pure _).mild

theorem mild_clock (code : ClockCode) (v : BitVec 32) : Mild (clock code v) :=
  (mild_clockRequest _ _).bind fun _ => Mild.when ((mild_clockRequest _ _).bind fun _ => (grave_pure _).mild)

theorem grave_quiesce : Grave quiesce :=
  (grave_mask _).bind fun _ => (grave_hw _).bind fun _ => (grave_hw _).bind fun _ =>
    ((mild_provider _).bind fun _ => (grave_note _).mild).contain.bind fun _ => grave_modify _

theorem mild_atRest : Mild atRest := by
  refine Mild.bind (fun d => Triple.orElse (like_on d _) fun _ => mild_stop _ d) fun _ => ?_
  exact (grave_read _ _).mild.bind fun _ => mild_require

theorem mild_unmapped : Mild unmapped :=
  (grave_read _ _).mild.bind fun _ => mild_require.bind fun _ => (grave_read _ _).mild.bind fun _ => mild_require

theorem grave_sleep : Grave sleep :=
  (grave_write _ _ _).bind fun _ => (grave_hw _).bind fun _ => grave_set _ fun _ => ⟨rfl, rfl, rfl, rfl, rfl, rfl, rfl, id⟩

theorem grave_settle (r : Except Status Unit) : Grave (settle r) := by
  cases r with
  | ok _ => exact grave_pure ()
  | error e => exact (grave_mask _).bind fun _ => grave_fault e

theorem mild_wake : Mild wake :=
  Mild.bind (mild_set _ fun _ => ⟨rfl, rfl, rfl, rfl, rfl, rfl, rfl, id⟩) fun _ =>
    (grave_write _ _ _).mild.bind fun _ => (grave_hw _).mild

theorem mild_openTarget (p : Provider) (already : Bool) : Mild (openTarget p already) := (mild_provider p).when

/-- The driver has an owner. -/
theorem acquire_like (file : ℕ) (d : Driver) :
    Triple (Like d ()) (acquire file) (fun a c => Like d a c ∧ c.driver.owner ≠ none) fun e c => Like d e c ∨ Broken e c := by
  refine Triple.bind (Q := fun _ c => ∃ d', (d.Alike d' ∧ d'.owner ≠ none) ∧ Like d' () c)
    (Triple.modify fun c hc => ⟨{ c.driver with owner := some file }, ⟨?_, by simp⟩, .refl _⟩) fun _ => ?_
  · exact Driver.Alike.trans hc ⟨rfl, rfl, rfl, rfl, rfl, rfl, rfl, fun no => by cases no⟩
  refine Triple.of_exists fun d' => Triple.assume fun ⟨alike, owned⟩ => Triple.mono (P := Like d' ()) (Q := Like d')
    (E := fun e c => Like d' e c ∨ Broken e c) ?_ (fun _ hc => hc)
    (fun _ _ hc => ⟨alike.trans hc, fun none => owned (Driver.Alike.owner hc none)⟩) fun _ _ hc => hc.imp (alike.trans ·) id
  suffices rest : Mild _ from rest d'
  refine (grave_note _).mild.bind fun _ => (mild_provider _).bind fun _ => mild_driver fun _ => (mild_openTarget _ _).bind fun _ => ?_
  refine Mild.bind (mild_set _ fun _ => ⟨rfl, rfl, rfl, rfl, rfl, rfl, rfl, id⟩) fun _ => (mild_openTarget _ _).bind fun _ => ?_
  refine Mild.bind (mild_set _ fun _ => ⟨rfl, rfl, rfl, rfl, rfl, rfl, rfl, id⟩) fun _ => (mild_clock _ _).bind fun _ => ?_
  refine Mild.bind (mild_set _ fun _ => ⟨rfl, rfl, rfl, rfl, rfl, rfl, rfl, id⟩) fun _ => (mild_provider _).bind fun _ => ?_
  refine Mild.bind (mild_set _ fun _ => ⟨rfl, rfl, rfl, rfl, rfl, rfl, rfl, id⟩) fun _ => (mild_clock _ _).bind fun _ => ?_
  refine Mild.bind (mild_set _ fun _ => ⟨rfl, rfl, rfl, rfl, rfl, rfl, rfl, id⟩) fun _ => ?_
  refine (grave_read _ _).mild.bind fun _ => mild_require.bind fun _ => (grave_read _ _).mild.bind fun _ => ?_
  refine mild_require.bind fun _ => mild_require.bind fun _ => mild_wake.when.bind fun _ => ?_
  refine grave_snapshot.mild.bind fun _ => mild_driver fun _ => mild_require.bind fun _ => (mild_hw _).bind fun _ => ?_
  refine (grave_read _ _).mild.bind fun _ => mild_require.bind fun _ => (grave_read _ _).mild.bind fun _ => ?_
  exact mild_require.bind fun _ => (grave_read _ _).mild.bind fun _ => mild_require

/-- Reading the driver. -/
theorem driver_like {d : Driver} {α : Type} {f : Driver → Drive α} {Q : α → Context → Prop} {E : Status → Context → Prop}
    (h : Triple (fun c => c.driver = d) (f d) Q E) : Triple (fun c => c.driver = d) (driver >>= f) Q E := by
  intro c hc
  subst hc
  exact h (s := c) rfl

theorem placement_like (size : ℕ) (d : Driver) : Triple (fun c => c.driver = d) (objectPlacement size)
    (fun place c => c.driver = d ∧ d.space.objectPlacement size = some place) fun _ c => c.driver = d := by
  refine driver_like ?_
  cases d.space.objectPlacement size with
  | none => exact Triple.stop fun _ hc => hc
  | some place => exact Triple.pure fun _ hc => ⟨hc, rfl⟩

theorem found_like (handle : BitVec 32) (p : Prop) [Decidable p] (d : Driver) : Triple (fun c => c.driver = d) (found handle p)
    (fun i c => c.driver = d ∧ d.space.object handle.toNat = some i) fun _ c => c.driver = d := by
  refine driver_like ?_
  cases d.space.object handle.toNat with
  | none => exact Triple.stop fun _ hc => hc
  | some i => exact Triple.bind (Triple.require (Q := fun _ c => c.driver = d) (fun _ hc _ => hc) fun _ hc _ => hc) fun _ =>
      Triple.pure fun _ hc => ⟨hc, rfl⟩

/-- In a memory session the flag stays. -/
theorem arm_like {d : Driver} (session : d.memorySession = true) : Triple (Like d ()) arm (Like d) Broken := by
  refine Triple.bind (Q := Like d) (Triple.modify fun c hc => ?_) fun _ => ?_
  · have clean : (c.driver.guardsClean && c.driver.memorySession) = d.guardsClean := by
      rw [Driver.Alike.session hc, session, Bool.and_true, Driver.Alike.clean hc]
    exact { hc with clean := clean }
  exact ((grave_mask _).bind fun _ => grave_forget.bind fun _ => grave_mask _) d

theorem reset_like (d : Driver) : Triple (Like d ()) reset (Like { d with guardsClean := false }) Broken := by
  refine Triple.bind (Q := Like { d with guardsClean := false }) (Triple.modify fun c hc => { hc with clean := rfl }) fun _ => ?_
  have mark (e : Slot → Event) (s : Slot) : Grave (V3d.mark e s) := grave_driver fun _ => (grave_note _).when
  refine Grave.bind grave_quiesce (fun _ => mild_atRest.contain.bind fun _ => (grave_write _ _ _).bind fun _ => (grave_write _ _ _).bind fun _ => ?_) _
  refine grave_driver fun _ => Grave.bind (Grave.when ?_) fun _ => grave_forget.bind fun _ => grave_mask _
  exact (mark _ _).bind fun _ => (mark _ _).bind fun _ => grave_hw _

theorem submit_transfer (a b c d e f : BitVec 32) :
    Triple (fun _ => True) (v3dSubmitTransferAt a b c d e f : Effect Machine Status Unit) (fun _ _ => True) fun _ _ => False := by
  unfold v3dSubmitTransferAt
  iterate 12 refine Triple.bind (Q := fun _ _ => True) (Triple.modify fun _ _ => trivial) fun _ => ?_
  exact Triple.modify fun _ _ => trivial

theorem submit_render (a b : BitVec 32) :
    Triple (fun _ => True) (v3dSubmitRenderAt a b : Effect Machine Status Unit) (fun _ _ => True) fun _ _ => False := by
  unfold v3dSubmitRenderAt
  iterate 2 refine Triple.bind (Q := fun _ _ => True) (Triple.modify fun _ _ => trivial) fun _ => ?_
  exact Triple.modify fun _ _ => trivial

theorem submit_bin (a b c d e : BitVec 32) :
    Triple (fun _ => True) (v3dSubmitBinAt a b c d e : Effect Machine Status Unit) (fun _ _ => True) fun _ _ => False := by
  unfold v3dSubmitBinAt
  iterate 6 refine Triple.bind (Q := fun _ _ => True) (Triple.modify fun _ _ => trivial) fun _ => ?_
  exact Triple.modify fun _ _ => trivial

/-! ### Buffers that go -/

theorem Driver.setBuffer_self (d : Driver) (s : Slot) : d.setBuffer s (d.buffer s) = d := by
  cases s with
  | fixed f => simp only [setBuffer, buffer, Function.update_eq_self]
  | object i => simp only [setBuffer, buffer, Function.update_eq_self]

theorem freeBuffer_like (s : Slot) (d : Driver) : Triple (fun c => c.driver = d) (freeBuffer s)
    (fun _ c => c.driver = Driver.setBuffer { d with guardsClean := false } s none) fun _ _ => False := by
  refine Triple.bind (Q := fun _ c => c.driver = { d with guardsClean := false }) (Triple.modify fun c hc => ?_) fun _ => fun c hc => ?_
  · rw [← hc]
  revert hc
  refine fun hc => Triple.when (P := (· = c)) (E := fun _ _ => False) (Q := fun _ c' => c'.driver = Driver.setBuffer { d with guardsClean := false } s none)
    (fun some => ?_) (fun c' same gone => ?_) (s := c) rfl
  · refine Triple.bind (Q := fun _ c' => c'.driver = { d with guardsClean := false }) (Triple.zoom fun c' same m _ => ?_) fun _ =>
      Triple.modify fun c' hc' => congrArg (Driver.setBuffer · s none) hc'
    exact (congrArg Context.driver same).trans hc
  · have empty : Driver.buffer { d with guardsClean := false } s = none := by
      rw [← hc]
      exact Option.not_isSome_iff_eq_none.mp gone
    rw [← empty, Driver.setBuffer_self]
    exact (congrArg Context.driver same).trans hc

/-- Some buffers are gone. -/
structure Fewer (d d' : Driver) : Prop where
  boot : d'.bootFault = d.bootFault
  session : d'.memorySession = d.memorySession
  clean : d'.guardsClean = true → d.guardsClean = true
  failures : d'.guardFailures = d.guardFailures
  scratch : d'.scratchWrites = d.scratchWrites
  buffer : ∀ s b, d'.buffer s = some b → d.buffer s = some b

theorem Fewer.refl (d : Driver) : Fewer d d := ⟨rfl, rfl, id, rfl, rfl, fun _ _ hb => hb⟩

theorem fewer_setBuffer {d e : Driver} (h : Fewer d e) (s : Slot) : Fewer d (Driver.setBuffer { e with guardsClean := false } s none) where
  boot := by cases s <;> exact h.boot
  session := by cases s <;> exact h.session
  clean no := by cases s <;> cases no
  failures := by cases s <;> exact h.failures
  scratch := by cases s <;> exact h.scratch
  buffer t b hb := by
    refine h.buffer t b ?_
    cases s <;> cases t <;> simp only [Driver.setBuffer, Driver.buffer, Function.update_apply] at hb ⊢
    · split at hb
      · cases hb
      · exact hb
    · exact hb
    · exact hb
    · split at hb
      · cases hb
      · exact hb

theorem fewer_emptied {d d' : Driver} (h : Fewer d d') (i : Fin 256) : Fewer d (d'.emptied i) where
  boot := h.boot
  session := h.session
  clean := h.clean
  failures := h.failures
  scratch := h.scratch
  buffer t b hb := by
    refine h.buffer t b ?_
    cases t with
    | fixed f => exact hb
    | object j =>
      simp only [Driver.buffer, Driver.emptied, Function.update_apply] at hb ⊢
      split at hb
      · cases hb
      · exact hb

/-- All objects are dropped. -/
theorem dropAll_fewer (d : Driver) : Triple (fun c => c.driver = d) (each dropObject slots)
    (fun _ c => Fewer d c.driver ∧ ∀ i, c.driver.space.objects i = Object.empty) fun _ _ => False := by
  have dropped := Triple.each_rest (f := dropObject) (E := fun _ _ => False)
    (I := fun l c => Fewer d c.driver ∧ ∀ i ∉ l, c.driver.space.objects i = Object.empty) (fun i l c hc => ?_) slots
  · exact dropped.mono (fun c hc => ⟨by rw [hc]; exact .refl d, fun i no => absurd (mem_slots i) no⟩)
      (fun _ c hc => ⟨hc.1, fun i => hc.2 i List.not_mem_nil⟩) fun _ _ no => no
  obtain ⟨fewer, empty⟩ := hc
  refine Triple.bind (freeBuffer_like (.object i) c.driver) (fun _ => ?_) (s := c) rfl
  refine fun c' hc' => Triple.bind (Q := fun _ c'' => c''.driver = c'.driver) (P := (· = c')) (Triple.when (fun _ => ?_) ?_) (fun _ => ?_) (s := c') rfl
  · refine Triple.zoom fun c'' same m _ => ?_
    cases (show c'' = c' from same)
    rfl
  · exact fun c'' same _ => congrArg Context.driver same
  · refine Triple.modify fun c'' same => ?_
    change Fewer d (c''.driver.emptied i) ∧ ∀ j ∉ l, (c''.driver.emptied i).space.objects j = Object.empty
    rw [same, hc']
    refine ⟨fewer_emptied (fewer_setBuffer fewer _) i, fun j hj => ?_⟩
    by_cases here : j = i
    · rw [here]
      exact Function.update_self _ _ _
    · refine (Function.update_of_ne here _ _).trans ((Function.update_of_ne here _ _).trans (empty j ?_))
      exact fun mem => (List.mem_cons.mp mem).elim here hj

/-- Buffers that are not objects' are freed. -/
theorem freeAll_fewer (d : Driver) (l : List Fixed) :
    Triple (fun c => c.driver = d) (each (fun b => freeBuffer (.fixed b)) l)
      (fun _ c => Fewer d c.driver ∧ c.driver.space = d.space) fun _ _ => False := by
  refine (Triple.each (P := fun c => Fewer d c.driver ∧ c.driver.space = d.space) fun b _ c hc => ?_).mono
    (fun c hc => ⟨by rw [hc]; exact .refl d, by rw [hc]⟩) (fun _ _ hc => hc) fun _ _ no => no
  refine (freeBuffer_like (.fixed b) c.driver).mono (fun _ hc' => hc') (fun _ c' hc' => ?_) (fun _ _ no => no) (s := c) rfl
  rw [hc']
  exact ⟨fewer_setBuffer hc.1 _, hc.2⟩

/-! ### The start and the end of a session -/

theorem driver_any {α : Type} {P : Context → Prop} {f : Driver → Drive α} {Q : α → Context → Prop} {E : Status → Context → Prop}
    (h : ∀ d, Triple P (f d) Q E) : Triple P (driver >>= f) Q E := fun c hc => h c.driver hc

theorem dropProviders_like (d : Driver) : Triple (Like d ()) dropProviders
    (fun _ c => ∃ d', d.Alike d' ∧ c.driver = { d' with pmOpen := false, clockOpen := false, owner := none }) Broken := by
  refine driver_any fun e => Triple.bind (Q := Like d) (Grave.when ?_ d) fun _ => driver_any fun e' =>
    Triple.bind (Q := Like d) (Grave.when ?_ d) fun _ => Triple.modify fun c hc => ⟨c.driver, hc, rfl⟩
  · exact (grave_note _).bind fun _ => (mild_provider _).contain.bind fun _ => grave_set _ fun _ => ⟨rfl, rfl, rfl, rfl, rfl, rfl, rfl, id⟩
  · exact (grave_note _).bind fun _ => (mild_clock _ _).contain.bind fun _ => grave_set _ fun _ => ⟨rfl, rfl, rfl, rfl, rfl, rfl, rfl, id⟩

/-- Only the table may be different. -/
def Tabled {ε : Type} (d : Driver) (_ : ε) (c : Context) : Prop :=
  { c.driver with space := { c.driver.space with table := d.space.table } } = d

theorem mapAll_like (d : Driver) : Triple (Tabled d ()) mapAll (Tabled d) fun _ _ => False := by
  have mapped (b : Fixed) (va : BitVec 32) (bytes : ℕ) (writable : Bool) :
      Triple (Tabled d ()) (mapFixed b va bytes writable) (Tabled d) fun _ _ => False := by
    refine Triple.bind (Q := Tabled d) (driver_any fun _ => Triple.when (fun _ => Triple.zoom fun _ hc _ _ => hc) fun _ hc _ => hc) fun _ => ?_
    exact Triple.modify fun _ hc => hc
  exact Triple.bind (mapped _ _ _ _) fun _ => Triple.bind (mapped _ _ _ _) fun _ => Triple.bind (mapped _ _ _ _) fun _ =>
    Triple.bind (mapped _ _ _ _) fun _ => Triple.bind (mapped _ _ _ _) fun _ => mapped _ _ _ _

end Pi5Drivers.V3d
