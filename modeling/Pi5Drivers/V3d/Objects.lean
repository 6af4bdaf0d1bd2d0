import Pi5Drivers.V3d.Lifetime

/-! The objects of a memory session: how they come, and how they go. -/

namespace Pi5Drivers.V3d

open Effect AddressSpace

variable {α : Type} {A : Driver → Watch → Prop} {E : Status → Context → Prop} {i : Fin 256}

/-- The driver serves a memory session. -/
def Serving (d : Driver) : Prop := d.memorySession = true

theorem assume_rule {p : Prop} {x : Drive α} {Q : α → Context → Prop} (h : p → Triple (Assert A) x Q E) :
    Triple (Assert fun d w => p ∧ A d w) x Q E :=
  fun _ ⟨trace, hp, ha⟩ => h hp ⟨trace, ha⟩

theorem Object.Placed.holds {o : Object} (h : o.Placed) : o.buffer.isSome ∨ o.importedMdl.isSome := by
  have := h.backing
  cases hb : o.buffer <;> cases hm : o.importedMdl <;> simp_all

theorem Object.Placed.once {o : Object} (h : o.Placed) (buffer : o.buffer.isSome) (mdl : o.importedMdl.isSome) : False := by
  have := h.backing
  cases hm : o.importedMdl <;> simp_all

theorem holds_enter {d : Driver} {o : Object} {s : Slot} (h : s ≠ .object i) :
    (d.enter i o).Holds s ↔ d.Holds s := by
  cases s with
  | fixed b => exact Iff.rfl
  | object j =>
    have : j ≠ i := fun eq => h (eq ▸ rfl)
    simp [Driver.Holds, Driver.enter, AddressSpace.insert, this]

/-- An object that takes its place. -/
theorem Calm.enter {d : Driver} {w : Watch} {o : Object} (h : Calm d w) (serving : Serving d)
    (room : d.space.Room o.bytes i o.address) (placed : o.Placed) (handle : o.handle = d.space.objectSerial + 1) :
    Calm (d.enter i o) (w.setLife (.object i) .mapped) where
  unfaulted := h.unfaulted
  boot := h.boot
  proved := h.proved
  free s hs := by
    by_cases hsi : s = .object i
    · subst hsi
      exact absurd (show (d.enter i o).Holds (.object i) by
        simpa [Driver.Holds, Driver.enter, AddressSpace.insert] using placed.holds) hs
    · rw [w.life_setLife_of_ne _ hsi]
      exact h.free s fun holds => hs ((holds_enter hsi).mpr holds)
  fences := h.fences
  handles := h.handles.trans (Nat.le_succ _)
  unclaimed none := absurd serving (by simp [Serving, (h.unclaimed none).1])
  ownerless := h.ownerless
  session on := (h.session on).insert room placed handle
  fixedSession off := absurd serving (by simp [Serving, show d.memorySession = false from off])
  serial := by
    have := h.serial
    have := room.serial
    simp only [Driver.enter, AddressSpace.insert]
    omega

theorem holds_leave {d : Driver} {s : Slot} (h : s ≠ .object i) {g : Bool} :
    Driver.Holds { d with guardsClean := g, space := d.space.remove i } s ↔ d.Holds s := by
  cases s with
  | fixed b => exact Iff.rfl
  | object j =>
    have : j ≠ i := fun eq => h (eq ▸ rfl)
    simp [Driver.Holds, AddressSpace.remove, this]

/-- An object that is gone. -/
theorem Calm.leave {d : Driver} {w : Watch} {g : Bool} (h : Calm d w) (serving : Serving d)
    (live : (d.space.objects i).Live) :
    Calm { d with guardsClean := g, space := d.space.remove i } (w.setLife (.object i) .free) where
  unfaulted := h.unfaulted
  boot := h.boot
  proved := h.proved
  free s hs := by
    by_cases hsi : s = .object i
    · subst hsi
      exact w.life_setLife _ _
    · rw [w.life_setLife_of_ne _ hsi]
      exact h.free s fun holds => hs ((holds_leave hsi).mpr holds)
  fences := h.fences
  handles := h.handles
  unclaimed none := absurd serving (by simp [Serving, (h.unclaimed none).1])
  ownerless := h.ownerless
  session on := (h.session on).remove live
  fixedSession off := absurd serving (by simp [Serving, show d.memorySession = false from off])
  serial := h.serial

/-! ### Creation and import -/

section Place

variable {size : ℕ} {place : Fin 256 × ℕ}

/-- The object has a place to go to. -/
def Roomy (size : ℕ) (place : Fin 256 × ℕ) (d : Driver) : Prop := Serving d ∧ d.space.Room size place.1 place.2

theorem lasting_roomy : Lasting (Roomy size place) := by
  rintro d _ h ⟨g, f, s, t, rfl⟩
  exact h

theorem lasting_serving : Lasting Serving := by
  rintro d _ h ⟨g, f, s, t, rfl⟩
  exact h

theorem objectPlacement_rule :
    Triple (Assert fun d w => Calm d w ∧ Serving d) (V3d.objectPlacement size)
      (fun place => Assert fun d w => Calm d w ∧ Roomy size place d) Fail := by
  refine driver_rule fun d => ?_
  rcases placed : d.space.objectPlacement size with _ | place
  · exact Triple.stop fun _ hc => hc.mono fun _ _ h => h.2.1.good
  · refine Triple.pure fun _ hc => hc.mono ?_
    rintro d' w ⟨rfl, calm, serving⟩
    exact ⟨calm, serving, objectPlacement_some (calm.session serving) placed⟩

/-- The check of the engine and the guards before a change of the table. -/
theorem prepare_rule {D : Driver → Prop} (lasting : Lasting D) {x : Drive α} {Q : α → Context → Prop}
    (h : Triple (Assert fun d w => (Calm d w ∧ D d) ∧ w.idle = true) x Q Fail) :
    Triple (Assert fun d w => Calm d w ∧ D d) (do contain (hw v3dDrain); contain guards; x) Q Fail := by
  refine Triple.bind (contain_hw (B := fun d w => (Calm d w ∧ D d) ∧ w.idle = true) (fun _ => v3dDrain_at)
    fun _ _ h => ⟨⟨h.1.sawIdle.quiet, h.2⟩, rfl⟩) fun _ => ?_
  exact Triple.bind (guards_rule ((stable_calm.and lasting.stable).and stable_idle).steady) fun _ => h

theorem vacant_slot {d : Driver} {w : Watch} (h : Calm d w) (roomy : Roomy size place d) :
    d.space.objects place.1 = Object.empty ∧ w.life (.object place.1) = .free := by
  have empty := (h.session roomy.1).empty place.1 roomy.2.dead
  exact ⟨empty, h.free _ (by simp [Driver.Holds, empty, Object.empty])⟩

/-- The new object has a handle that was not given out. -/
def Unannounced (j : Fin 256) (d : Driver) (w : Watch) : Prop :=
  Calm d w ∧ w.handle < (d.space.objects j).handle ∧ (d.space.objects j).handle ≤ d.space.objectSerial

/-- The end of both: the table is flushed, and the object is known by its handle. -/
theorem announce_rule (place : Fin 256 × ℕ) (size : ℕ) (flags : BitVec 32) :
    Triple (Assert (Unannounced place.1)) (do contain (hw v3dMmuFlush); announce place size flags)
      (fun a c => Assert Calm c ∧ Answered c a) Fail := by
  refine Triple.bind (contain_on (B := Unannounced place.1) (fun _ => v3dMmuFlush_at) fun d w v h =>
    ⟨h.1.flush.of_watch rfl rfl (fun _ h => h) rfl rfl, ?_, h.2.2⟩) fun _ => driver_rule fun d => ?_
  · rw [Watch.flush]
    split <;> exact h.2.1
  refine Triple.bind (note_head (note_rule (f := fun w => { w with handle := (d.space.objects place.1).handle }) (B := Calm)
    (fun _ _ => rfl) ?_ ?_)) fun _ => Triple.pure fun _ hc => ⟨hc.1, hc.2⟩
  · rintro d' w ⟨rfl, calm, next, -⟩
    exact ⟨calm.unfaulted, next⟩
  · rintro d' w ⟨rfl, calm, -, le⟩
    exact { calm with handles := le }

/-- An object that takes its place takes the next handle. -/
theorem Calm.unannounced {d : Driver} {w w' : Watch} {o : Object} {j : Fin 256} (h : Calm d w)
    (entered : Calm (d.enter j o) w') (handle : o.handle = d.space.objectSerial + 1) (same : w'.handle = w.handle) :
    Unannounced j (d.enter j o) w' := by
  have := h.handles
  refine ⟨entered, ?_, ?_⟩ <;> simp only [Driver.enter, AddressSpace.insert, Function.update_self, handle] <;> omega

theorem aligned_of_and {x : BitVec 32} (h : x &&& 4095 = 0) : x.toNat % page = 0 := by
  have := congrArg BitVec.toNat h
  rw [BitVec.toNat_and] at this
  exact (Nat.and_two_pow_sub_one_eq_mod x.toNat 12).symm.trans this

/-- The buffer of a new object covers its pages. -/
theorem placed_of_sound {b : Buffer} {address handle : ℕ} {flags : BitVec 32} {a : AddressSpace} {j : Fin 256}
    (sound : b.Sound size) (room : a.Room size j address) (pos : 0 < size) (aligned : size % page = 0)
    (permission : flags &&& ~~~1 = 0) : (⟨some b, none, handle, address, size, flags⟩ : Object).Placed where
  first := room.first
  aligned := ⟨room.aligned, aligned⟩
  size := pos
  bound := room.fits.1
  frames k hk := by
    obtain ⟨base, top⟩ := sound
    have inside : k < size / page := hk
    simp only [Object.frame]
    unfold page at *
    omega
  backing := rfl
  permission := permission

theorem objectCreate_keeps (q : BufferRequest) : Answers (fun d w => Calm d w ∧ Serving d) (objectCreate q) := by
  refine Triple.bind (require_rule fun _ _ h => h.1.good) fun _ => assume_rule fun creates => forget_rule fun d => ?_
  refine Triple.bind (require_rule fun _ _ h => h.1.good) fun _ => assume_rule fun _ => ?_
  refine Triple.bind objectPlacement_rule fun place => prepare_rule lasting_roomy ?_
  obtain ⟨nonzero, most, aligned, permission, -⟩ := creates
  refine Triple.bind (allocate_rule (s := .object place.1) (n := q.bytes.toNat) (B := fun d w => ∃ d₀ w₀ b,
    (Calm d₀ w₀ ∧ Roomy q.bytes.toNat place d₀) ∧ Buffer.Sound b q.bytes.toNat ∧
      d = Driver.setBuffer { d₀ with guardsClean := false } (.object place.1) (some b) ∧
        w = w₀.setLife (.object place.1) .held) ?_ ?_ ?_ ?_ ?_) fun _ => ?_
  · unfold bufferMaxBytes at most
    unfold page
    omega
  · intro d w h
    obtain ⟨empty, free⟩ := vacant_slot h.1.1 h.1.2
    exact ⟨by simp [Driver.buffer, empty, Object.empty], free⟩
  · exact fun d w h => h.1.1.unfaulted
  · exact fun d w h => .inr { h.1.1 with }
  · exact fun d w b h sound => ⟨d, w, b, h.1, sound, rfl, rfl⟩
  refine Triple.bind (note_rule (f := fun w => w.setLife (.object place.1) .mapped) (B := fun d w => ∃ d₀ w₀ b,
    (Calm d₀ w₀ ∧ Roomy q.bytes.toNat place d₀) ∧ Buffer.Sound b q.bytes.toNat ∧
      d = Driver.setBuffer { d₀ with guardsClean := false } (.object place.1) (some b) ∧
        w = w₀.setLife (.object place.1) .mapped) (fun _ _ => rfl) (fun _ _ _ => trivial) ?_) fun _ => ?_
  · rintro d w ⟨d₀, w₀, b, h, sound, rfl, rfl⟩
    exact ⟨d₀, w₀, b, h, sound, rfl, w₀.setLife_setLife _ _ _⟩
  refine Triple.bind (set_rule (B := Unannounced place.1) _ ?_) fun _ => announce_rule place _ _
  rintro d w ⟨d₀, w₀, b, ⟨calm, serving, room⟩, sound, rfl, rfl⟩
  have entered := Calm.enter (i := place.1) (o := ⟨some b, none, d₀.space.objectSerial + 1, place.2, q.bytes.toNat, q.flags⟩)
    (d := { d₀ with guardsClean := false }) { calm with } serving room
    (placed_of_sound sound room (by rw [Nat.pos_iff_ne_zero]; exact fun h => nonzero (BitVec.eq_of_toNat_eq h))
      (aligned_of_and aligned) permission) rfl
  have unannounced := Calm.unannounced (d := { d₀ with guardsClean := false }) { calm with } entered rfl rfl
  simpa [Driver.enter, Driver.setBuffer, Driver.buffer, AddressSpace.insert] using unannounced

theorem objectImport_keeps (q : BufferImport) : Answers (fun d w => Calm d w ∧ Serving d) (objectImport q) := by
  unfold objectImport
  cases q.mdl with
  | none => exact Triple.stop fun _ hc => hc.mono fun _ _ h => h.1.good
  | some mdl =>
  refine Triple.bind (require_rule fun _ _ h => h.1.good) fun _ => assume_rule fun imports => forget_rule fun d => ?_
  refine Triple.bind (require_rule fun _ _ h => h.1.good) fun _ => assume_rule fun _ => ?_
  refine Triple.bind (require_rule fun _ _ h => h.1.good) fun _ => assume_rule fun reach => ?_
  refine Triple.bind objectPlacement_rule fun place => prepare_rule lasting_roomy ?_
  obtain ⟨permission, -, -, -, -, -, -, -, nonzero, aligned, -⟩ := imports
  refine Triple.bind (note_rule (f := fun w => w.setLife (.object place.1) .held) (B := fun d w => ∃ w₀,
    (Calm d w₀ ∧ Roomy mdl.byteCount place d) ∧ w = w₀.setLife (.object place.1) .held) (fun _ _ => rfl) ?_ ?_)
    fun _ => ?_
  · exact fun d w h => ⟨h.1.1.unfaulted, (vacant_slot h.1.1 h.1.2).2⟩
  · exact fun d w h => ⟨w, h.1, rfl⟩
  refine Triple.bind (note_rule (f := fun w => w.setLife (.object place.1) .mapped) (B := fun d w => ∃ w₀,
    (Calm d w₀ ∧ Roomy mdl.byteCount place d) ∧ w = w₀.setLife (.object place.1) .mapped) (fun _ _ => rfl)
    (fun _ _ _ => trivial) ?_) fun _ => ?_
  · rintro d w ⟨w₀, h, rfl⟩
    exact ⟨w₀, h, w₀.setLife_setLife _ _ _⟩
  refine Triple.bind (set_rule (B := Unannounced place.1) _ ?_) fun _ => announce_rule place _ _
  rintro d w ⟨w₀, ⟨calm, serving, room⟩, rfl⟩
  refine calm.unannounced (calm.enter serving room ?_ rfl) rfl rfl
  exact {
    first := room.first
    aligned := ⟨room.aligned, aligned⟩
    size := Nat.pos_of_ne_zero nonzero
    bound := room.fits.1
    frames := fun k hk => by
      have := reach k hk
      simp only [Object.frame]
      unfold page
      omega
    backing := by simp [Driver.buffer, (vacant_slot calm ⟨serving, room⟩).1, Object.empty]
    permission := permission }

end Place

/-! ### Destruction -/

/-- The object leaves, and is so far on its way. -/
def Leaving (i : Fin 256) (l : Life) (d : Driver) (w : Watch) : Prop :=
  Calm d w ∧ (Serving d ∧ (d.space.objects i).Live) ∧ w.idle = true ∧ w.life (.object i) = l

theorem objectDestroyAt_keeps :
    Answers (fun d w => Calm d w ∧ Serving d ∧ (d.space.objects i).Live) (objectDestroyAt i) := by
  have lasting : Lasting fun d => Serving d ∧ (d.space.objects i).Live := by
    rintro d _ h ⟨g, f, s, t, rfl⟩
    exact h
  refine prepare_rule lasting ?_
  refine Triple.bind (note_rule (f := fun w => w.setLife (.object i) .cleared) (B := Leaving i .cleared)
    (fun _ _ => rfl) (fun _ _ _ => trivial) fun d w h => ?_) fun _ => ?_
  · have holds : d.Holds (.object i) := (((h.1.1.session h.1.2.1).placed i h.1.2.2)).holds
    exact ⟨h.1.1.setLife holds, h.1.2, h.2, w.life_setLife _ _⟩
  refine Triple.bind (set_rule (B := fun d w => ∃ d₀ : Driver, d = d₀.unmap (d₀.space.objects i) ∧
    Leaving i .cleared d₀ w) _ fun d w h => ⟨d, rfl, h⟩) fun _ => ?_
  refine Triple.bind (contain_on (B := fun d w => ∃ d₀ : Driver, d = d₀.unmap (d₀.space.objects i) ∧
    Leaving i .flushed d₀ w) (fun _ => v3dMmuFlush_at) ?_) fun _ => ?_
  · rintro d w v ⟨d₀, rfl, calm, serving, idle, life⟩
    refine ⟨d₀, rfl, calm.flush.of_watch rfl rfl (fun _ h => h) rfl rfl, serving, ?_, ?_⟩
    · simp [Watch.flush, idle, Watch.advance]
    · simp [Watch.flush, idle, Watch.advance, life]
  refine Triple.bind (contain_hw (B := fun d w => ∃ d₀ : Driver, d = d₀.unmap (d₀.space.objects i) ∧
    Leaving i .retired d₀ w) (fun _ => v3dInvalidate_at) ?_) fun _ => ?_
  · rintro d w ⟨d₀, rfl, calm, serving, idle, life⟩
    refine ⟨d₀, rfl, calm.sawIdle.invalidate, serving, by simp [Watch.sawIdle], ?_⟩
    simp [Watch.invalidate, Watch.sawIdle, Watch.advance, life]
  refine Triple.bind (set_rule (B := fun d w => ∃ d₀ : Driver,
    d = (d₀.unmap (d₀.space.objects i)).discount (d₀.space.objects i) ∧ Leaving i .retired d₀ w) _ ?_) fun _ => ?_
  · rintro d w ⟨d₀, rfl, h⟩
    exact ⟨d₀, rfl, h⟩
  refine Triple.bind (drop_rule (B := Calm) ?_ ?_ ?_) fun _ => done_rule
  · rintro d w ⟨d₀, rfl, calm, -, -, life⟩ -
    exact ⟨calm.unfaulted, .inr (.inl life)⟩
  · rintro d w ⟨d₀, rfl, calm, ⟨serving, live⟩, -, -⟩ buffer mdl
    exact (((calm.session serving).placed i live).once buffer mdl).elim
  · rintro d w w' ⟨d₀, rfl, calm, ⟨serving, live⟩, -, -⟩ eq
    have holds : d₀.Holds (.object i) := ((calm.session serving).placed i live).holds
    rw [if_pos (show Driver.Holds ((d₀.unmap (d₀.space.objects i)).discount (d₀.space.objects i)) (.object i) from holds)]
      at eq
    subst eq
    have gone := Calm.leave (g := false) calm serving live
    have same : Driver.emptied { ((d₀.unmap (d₀.space.objects i)).discount (d₀.space.objects i)) with guardsClean := false } i =
        { d₀ with guardsClean := false, space := d₀.space.remove i } := by
      simp only [Driver.emptied, Driver.unmap, Driver.discount, AddressSpace.remove, ownBytes, foreignBytes, live, true_and]
      cases (d₀.space.objects i).importedMdl <;> simp
    rw [same]
    exact gone

theorem objectDestroy_keeps (q : BufferRequest) : Answers (fun d w => Calm d w ∧ Serving d) (objectDestroy q) := by
  refine Triple.bind (Q := fun i => Assert fun d w => Calm d w ∧ Serving d ∧ (d.space.objects i).Live) ?_
    fun i => objectDestroyAt_keeps
  refine driver_rule fun d => ?_
  rcases named : d.space.object q.handle.toNat with _ | i
  · exact Triple.stop fun _ hc => hc.mono fun _ _ h => h.2.1.good
  · refine Triple.bind (require_rule fun _ _ h => h.2.1.good) fun _ => Triple.pure fun _ hc => hc.mono ?_
    rintro d' w ⟨-, rfl, calm, serving⟩
    exact ⟨calm, serving, (object_some named).1⟩

end Pi5Drivers.V3d
