import Pi5Drivers.V3d.GuardWords
import Pi5Drivers.V3d.Mild

/-! A scan of the guards that is left out would have found nothing. In a memory session nobody writes a
guard page, and a job that wrote the trap page ends in a fault; so a flag that says that the guards were
fine stands until buffers come or go. -/

namespace Pi5Drivers.V3d.Paged

open Effect AddressSpace

/-- The driver and the memory are in a relation. -/
def Assert (A : Driver → Physical → Prop) (c : Context) : Prop := A c.base.driver c.physical

/-- What holds of drivers that are alike, while all is well. -/
structure Lasts (A : Driver → Physical → Prop) : Prop where
  alike : ∀ {d d' p}, A d p → d.Alike d' → A d' p
  fine : ∀ {d p}, A d p → Fine p

/-- The same buffers and the same table. -/
structure Near (d d' : Driver) : Prop where
  boot : d'.bootFault = d.bootFault
  session : d'.memorySession = d.memorySession
  fixed : d'.fixed = d.fixed
  space : d'.space = d.space
  owner : d'.owner = none → d.owner = none

/-- What holds whatever is known of the guards. -/
def Stays (B : Driver → Platform → Prop) : Prop := ∀ ⦃d d' p⦄, B d p → Near d d' → B d' p

/-- The guards are intact. -/
def Busy (B : Driver → Platform → Prop) (d : Driver) (p : Physical) : Prop := Held d p ∧ B d p.platform

/-- No job is running that has written to the trap page. -/
def Still (B : Driver → Platform → Prop) (d : Driver) (p : Physical) : Prop := Busy B d p ∧ p.trapped = false

/-- A memory session and its owner. -/
def Serving (P : Platform) (d : Driver) (p : Platform) : Prop := p = P ∧ InSession d p ∧ d.memorySession = true ∧ d.owner ≠ none

/-- There is no session. -/
def Ended (P : Platform) (d : Driver) (p : Platform) : Prop := p = P ∧ d.memorySession = false ∧ d.space.Clear

/-- What holds between requests: a fault was recorded, or the guards are intact. -/
def Good (P : Platform) (d : Driver) (p : Physical) : Prop := d.bootFault = true ∧ Fine p ∨ Still (Serving P) d p ∨ Still (Ended P) d p

/-- Where a function may stop. -/
def Fail (P : Platform) {ε : Type} (_ : ε) : Context → Prop := Assert (Good P)

section Rules

variable {P : Platform} {α β : Type} {A : Driver → Physical → Prop} {B : Driver → Platform → Prop} {Q : α → Context → Prop}
  {E : Status → Context → Prop}

theorem Near.buffer {d d' : Driver} (h : Near d d') : d'.buffer = d.buffer := by
  funext s
  cases s with
  | fixed b => exact congrFun h.fixed b
  | object i => exact congrArg (fun a : AddressSpace => (a.objects i).buffer) h.space

theorem near_of_alike {d d' : Driver} (h : d.Alike d') : Near d d' := ⟨h.boot, h.session, h.fixed, h.space, h.owner⟩

theorem Held.near {d d' : Driver} {p : Physical} (h : Held d p) (near : Near d d')
    (counters : d'.guardsClean = true → d'.guardFailures = 0 ∧ d'.scratchWrites = 0) : Held d' p :=
  h.less (fun _ _ hb => near.buffer ▸ hb) counters

theorem lasts_busy (stays : Stays B) : Lasts (Busy B) where
  alike h alike := ⟨Held.near h.1 (near_of_alike alike) fun clean => by
    rw [alike.failures, alike.scratch]
    exact h.1.counters (alike.clean ▸ clean), stays h.2 (near_of_alike alike)⟩
  fine h := h.1.fine

theorem lasts_still (stays : Stays B) : Lasts (Still B) where
  alike h alike := ⟨(lasts_busy stays).alike h.1 alike, h.2⟩
  fine h := h.1.1.fine

theorem base_rule {x : V3d.Drive α} (hx : ∀ d p, A d p → Triple (Like d ()) x (Like d) Broken) (lasts : Lasts A) :
    Triple (Assert A) (base x) (fun _ => Assert A) (Fail P) :=
  Triple.zoom fun c hc => (hx c.base.driver _ hc).mono (fun _ hb => hb ▸ Driver.Alike.refl _)
    (fun _ _ alike => lasts.alike hc alike) fun _ _ broken => .inl ⟨broken, lasts.fine hc⟩

theorem base_grave {x : V3d.Drive α} (hx : Grave x) (lasts : Lasts A) : Triple (Assert A) (base x) (fun _ => Assert A) (Fail P) :=
  base_rule (fun d _ _ => hx d) lasts

theorem base_mild {x : V3d.Drive α} (hx : Mild x) (lasts : Lasts A) (good : ∀ d p, A d p → Good P d p) :
    Triple (Assert A) (base x) (fun _ => Assert A) (Fail P) :=
  Triple.zoom fun c hc => (hx c.base.driver).mono (fun _ hb => hb ▸ Driver.Alike.refl _)
    (fun _ _ alike => lasts.alike hc alike) fun _ _ h =>
      h.elim (fun alike => good _ _ (lasts.alike hc alike)) fun broken => .inl ⟨broken, lasts.fine hc⟩

theorem driver_rule {f : Driver → Drive α} (h : ∀ d, Triple (Assert fun d' p => d' = d ∧ A d' p) (f d) Q E) :
    Triple (Assert A) (driver >>= f) Q E :=
  fun c hc => h c.base.driver ⟨rfl, hc⟩

theorem set_rule {R : Driver → Physical → Prop} (f : Driver → Driver) (h : ∀ d p, A d p → R (f d) p) :
    Triple (Assert A) (base (set f)) (fun _ => Assert R) E :=
  Triple.zoom fun c hc => Triple.modify fun b hb => by
    subst hb
    exact h _ _ hc

theorem change_rule {R : Driver → Physical → Prop} (f : Physical → Physical) (h : ∀ d p, A d p → R d (f p)) :
    Triple (Assert A) (change f) (fun _ => Assert R) E :=
  Triple.modify fun _ hc => h _ _ hc

theorem contain_rule {x : Drive α} {R : Context → Prop} (h : Triple R x Q fun _ => Assert fun _ p => Fine p) :
    Triple R (contain x) Q (Fail P) :=
  Triple.orElse h fun e => Triple.zoom fun c hc => (fault_broken (P := (· = c.base)) (Q := fun _ _ => False) e).mono
    (fun _ hb => hb) (fun _ _ no => no.elim) fun _ _ broken => .inl ⟨broken, hc⟩

theorem hw_rule (y : Effect Machine Result α) (lasts : Lasts A) : Triple (Assert A) (hw y) (fun _ => Assert A) (Fail P) :=
  base_grave (grave_hw y) lasts

theorem physical_rule {f : Physical → Drive α} (h : ∀ p, Triple (Assert fun d p' => p' = p ∧ A d p') (f p) Q E) :
    Triple (Assert A) (physical >>= f) Q E :=
  fun c hc => h c.physical ⟨rfl, hc⟩

/-- The counters are as they were, and zero where the flag is set. -/
theorem Still.counted {d d' : Driver} {p : Physical} (stays : Stays B) (h : Still B d p) (near : Near d d')
    (counters : d'.guardsClean = true → d'.guardFailures = 0 ∧ d'.scratchWrites = 0) : Still B d' p :=
  ⟨⟨Held.near h.1.1 near counters, stays h.1.2 near⟩, h.2⟩

/-- The scan, made or left out. -/
theorem guards_rule (stays : Stays B) : Triple (Assert (Still B)) (contain guards) (fun _ => Assert (Still B)) (Fail P) := by
  refine contain_rule (driver_rule fun d => physical_rule fun p => Triple.ite (fun clean => ?_) fun dirty => ?_)
  · refine change_rule _ ?_
    rintro d' p' ⟨rfl, rfl, ⟨held, kept⟩, calm⟩
    obtain ⟨failures, scratch⟩ := held.counters clean
    refine ⟨⟨{ held with fine := fun s hs => ?_ }, kept⟩, calm⟩
    rcases List.mem_cons.mp hs with rfl | hs
    · exact ⟨held.scan calm, failures, scratch⟩
    · exact held.fine s hs
  · refine Triple.bind (set_rule (R := fun d p => Still B d p ∧ d.guardsClean = false) _ ?_) fun _ => ?_
    · rintro d' p' ⟨rfl, rfl, still⟩
      exact ⟨still.counted stays ⟨rfl, rfl, rfl, rfl, id⟩ fun clean => absurd clean dirty, Bool.eq_false_iff.mpr dirty⟩
    refine driver_rule fun d' => Triple.bind (Triple.require
      (Q := fun _ => Assert fun d'' p => (d'.guardFailures = 0 ∧ d'.scratchWrites = 0) ∧ d'' = d' ∧ Still B d'' p)
      (fun c hc zero => ⟨zero, hc.1, hc.2.1⟩) fun c hc _ => hc.2.1.1.1.fine) fun _ => set_rule _ ?_
    rintro d'' p' ⟨zero, rfl, still⟩
    exact still.counted stays ⟨rfl, rfl, rfl, rfl, id⟩ fun _ => zero

theorem require_rule {c : Prop} [Decidable c] {e : Status} (good : ∀ d p, A d p → Good P d p) :
    Triple (Assert A) (require c e) (fun _ => Assert fun d p => c ∧ A d p) (Fail P) :=
  Triple.require (fun _ hc yes => ⟨yes, hc⟩) fun _ hc _ => good _ _ hc

theorem assume_rule {q : Prop} {x : Drive α} (h : q → Triple (Assert A) x Q E) : Triple (Assert fun d p => q ∧ A d p) x Q E :=
  fun _ ⟨hq, ha⟩ => h hq ha

/-- A value read from the driver that the rest of the proof does not need. -/
theorem forget_rule {f : Driver → Drive α} (h : ∀ d, Triple (Assert A) (f d) Q E) : Triple (Assert A) (driver >>= f) Q E :=
  fun c hc => h c.base.driver hc

theorem stop_rule {e : Status} (good : ∀ d p, A d p → Good P d p) : Triple (Assert A) (stop e : Drive α) Q (Fail P) :=
  Triple.stop fun _ hc => good _ _ hc

end Rules

/-! ### Jobs -/

section Jobs

variable {P : Platform} {α : Type}

theorem stays_serving : Stays (Serving P) := by
  rintro d d' p ⟨same, session, on, owned⟩ near
  refine ⟨same, ⟨near.space ▸ session.valid, near.buffer ▸ session.table, near.buffer ▸ session.trap, ?_, near.space ▸ session.foreign⟩,
    near.session.trans on, fun none => owned (near.owner none)⟩
  rw [near.buffer, near.space]
  exact session.size

theorem stays_ended : Stays (Ended P) := fun _ _ _ h near => ⟨h.1, near.session.trans h.2.1, near.space ▸ h.2.2⟩

theorem serving_good (d : Driver) (p : Physical) (h : Still (Serving P) d p) : Good P d p := .inr (.inl h)

theorem still_serving : Lasts (Still (Serving P)) := lasts_still stays_serving

theorem busy_serving : Lasts (Busy (Serving P)) := lasts_busy stays_serving

theorem guarded_rule : Triple (Assert (Still (Serving P))) (contain guards) (fun _ => Assert (Still (Serving P))) (Fail P) :=
  guards_rule stays_serving

theorem arm_rule : Triple (Assert (Busy (Serving P))) (base arm) (fun _ => Assert (Busy (Serving P))) (Fail P) :=
  base_rule (fun _ _ h => arm_like h.2.2.2.1) busy_serving

theorem launch_rule {submit : Effect Machine Status Unit}
    (starts : Triple (fun _ => True) submit (fun _ _ => True) fun _ _ => False) :
    Triple (Assert (Busy (Serving P))) (launch submit) (fun _ => Assert (Busy (Serving P))) (Fail P) := by
  refine Triple.bind (base_grave (grave_on starts) busy_serving) fun _ => Triple.get_bind fun c₀ hc => Triple.modify ?_
  rintro c rfl
  obtain ⟨held, serving⟩ := hc
  obtain ⟨held', platform⟩ := held.job serving.2.1 (c.physical.platform.writes c.base.machine.clock)
  exact ⟨held', platform.symm ▸ serving⟩

theorem await_rule {looks : V3d.Drive α} (hub core : BitVec 32) (grave : Grave looks) :
    Triple (Assert (Busy (Serving P))) (await hub core looks) (fun _ => Assert (Busy (Serving P))) (Fail P) :=
  base_grave (grave_attempt.bind fun s => grave.bind fun _ => grave_snapshot.bind fun _ => (grave_settle s).bind fun _ => grave_pure _)
    busy_serving

/-- A write to the trap page does not get past the look at the MMU. -/
theorem mmuFine_rule : Triple (Assert (Busy (Serving P))) (contain mmuFine) (fun _ => Assert (Still (Serving P))) (Fail P) := by
  refine contain_rule (Triple.get_bind fun c hc => ?_)
  have lasts : Lasts fun d p => Busy (Serving P) d p ∧ p = c.physical :=
    ⟨fun h alike => ⟨busy_serving.alike h.1 alike, h.2⟩, fun h => h.1.1.fine⟩
  refine Triple.bind ((base_grave (P := P) (A := fun d p => Busy (Serving P) d p ∧ p = c.physical) (grave_read _ _) lasts).mono
    (fun c' same => ?_) (fun _ _ hc => hc) fun _ _ hc => ?_) fun mmu => ?_
  · rw [same]
    exact ⟨hc, rfl⟩
  · rcases hc with ⟨-, fine⟩ | h | h
    · exact fine
    · exact h.1.1.fine
    · exact h.1.1.fine
  · refine Triple.require (fun c' hc' fine => ⟨hc'.1, ?_⟩) fun c' hc' _ => hc'.1.1.fine
    have same : c'.physical = c.physical := hc'.2
    by_contra trapped
    rw [Bool.not_eq_false, same] at trapped
    rw [if_pos trapped] at fine
    refine c.physical.platform.shown c.base.machine.clock ?_
    have parts : (mmu &&& mmuFaults) ||| (c.physical.platform.fault c.base.machine.clock &&& mmuFaults) = 0 := by
      rw [← fine]
      ext k
      simp only [BitVec.getElem_and, BitVec.getElem_or, Bool.and_or_distrib_right]
    exact (BitVec.or_eq_zero_iff.mp parts).2

/-- A job may start where the guards are intact. -/
theorem start_job {x : Drive α} {Q : α → Context → Prop} {E : Status → Context → Prop} (h : Triple (Assert (Busy (Serving P))) x Q E) :
    Triple (Assert (Still (Serving P))) x Q E :=
  h.mono (fun _ hc => hc.1) (fun _ _ hc => hc) fun _ _ hc => hc

theorem mild_exact (j : Job) : Grave (V3d.contain (V3d.on (exact j))) := (mild_on _).contain

theorem serving_require {c : Prop} [Decidable c] {e : Status} :
    Triple (Assert (Still (Serving P))) (require c e) (fun _ => Assert (Still (Serving P))) (Fail P) :=
  (require_rule serving_good).mono (fun _ hc => hc) (fun _ _ hc => hc.2) fun _ _ hc => hc

theorem count_rule (f : Driver → Driver) (h : ∀ d : Driver, d.Alike (f d)) :
    Triple (Assert (Still (Serving P))) (base (set f)) (fun _ => Assert (Still (Serving P))) (Fail P) :=
  base_grave (grave_set f h) still_serving

theorem objectTfu_rule (width height source destination stride config : BitVec 32) :
    Triple (Assert (Still (Serving P))) (objectTfu width height source destination stride config) (fun _ => Assert (Still (Serving P))) (Fail P) := by
  refine forget_rule fun _ => Triple.bind serving_require fun _ => Triple.bind (hw_rule _ still_serving) fun _ => ?_
  refine Triple.bind guarded_rule fun _ => Triple.bind (hw_rule _ still_serving) fun _ => ?_
  refine Triple.bind (base_grave (grave_write _ _ _) still_serving) fun _ => start_job ?_
  refine Triple.bind arm_rule fun _ => ?_
  refine Triple.bind (base_grave (grave_set _ fun _ => ⟨rfl, rfl, rfl, rfl, rfl, rfl, rfl, id⟩) busy_serving) fun _ => ?_
  refine Triple.bind (launch_rule (submit_transfer _ _ _ _ _ _)) fun _ => Triple.bind (await_rule _ _ (grave_pure ())) fun _ => ?_
  refine Triple.bind (hw_rule _ busy_serving) fun _ => Triple.bind (base_grave (mild_exact _) busy_serving) fun _ => ?_
  refine Triple.bind mmuFine_rule fun _ => Triple.bind guarded_rule fun _ => ?_
  exact count_rule _ fun _ => ⟨rfl, rfl, rfl, rfl, rfl, rfl, rfl, id⟩

theorem found_rule (handle : BitVec 32) (c : Prop) [Decidable c] : Triple (Assert (Still (Serving P))) (base (V3d.found handle c))
    (fun i => Assert fun d p => (d.space.objects i).Live ∧ Still (Serving P) d p) (Fail P) := by
  refine Triple.zoom fun c hc => (found_like handle _ c.base.driver).mono (fun _ hb => congrArg V3d.Context.driver hb)
    (fun i b hb => ?_) fun _ b hb => ?_
  · change (b.driver.space.objects i).Live ∧ Still (Serving P) b.driver c.physical
    rw [hb.1]
    exact ⟨(object_some hb.2).1, hc⟩
  · change Good P b.driver c.physical
    rw [hb]
    exact serving_good _ _ hc

theorem found_any (handle : BitVec 32) (c : Prop) [Decidable c] :
    Triple (Assert (Still (Serving P))) (base (V3d.found handle c)) (fun _ => Assert (Still (Serving P))) (Fail P) :=
  (found_rule handle c).mono (fun _ hc => hc) (fun _ _ hc => hc.2) fun _ _ hc => hc

theorem objectCopy_rule (q : BufferCopy) : Triple (Assert (Still (Serving P))) (objectCopy q) (fun _ => Assert (Still (Serving P))) (Fail P) := by
  refine Triple.bind (found_any _ _) fun i => Triple.bind (found_any _ _) fun j => forget_rule fun d => ?_
  exact Triple.bind serving_require fun _ => Triple.bind serving_require fun _ => objectTfu_rule _ _ _ _ _ _

theorem objectTile_rule (q : BufferTile) : Triple (Assert (Still (Serving P))) (objectTile q) (fun _ => Assert (Still (Serving P))) (Fail P) := by
  refine Triple.bind (found_any _ _) fun i => Triple.bind (found_any _ _) fun j => forget_rule fun d => ?_
  refine Triple.bind serving_require fun _ => ?_
  cases Texture.v3dTextureLayout q.width.toNat q.height.toNat q.sourcePitch.toNat q.layout.toNat q.outputRows.toNat with
  | none => exact stop_rule serving_good
  | some l => exact Triple.bind serving_require fun _ => objectTfu_rule _ _ _ _ _ _

theorem binJob_rule {submit : Effect Machine Status Unit} (starts : Triple (fun _ => True) submit (fun _ _ => True) fun _ _ => False) :
    Triple (Assert (Busy (Serving P))) (binJob submit) (fun _ => Assert (Busy (Serving P))) (Fail P) := by
  refine Triple.bind (base_grave (grave_read _ _) busy_serving) fun before => Triple.bind arm_rule fun _ => ?_
  refine Triple.bind (launch_rule starts) fun _ => Triple.bind (await_rule _ _ ?_) fun after => ?_
  · exact (grave_read _ _).bind fun _ => (grave_read _ _).bind fun _ => (grave_read _ _).bind fun _ => grave_pure _
  · exact Triple.bind (base_grave mild_require.contain busy_serving) fun _ => base_grave (mild_exact _) busy_serving

theorem renderJob_rule {submit : Effect Machine Status Unit} (starts : Triple (fun _ => True) submit (fun _ _ => True) fun _ _ => False) :
    Triple (Assert (Busy (Serving P))) (renderJob submit) (fun _ => Assert (Still (Serving P))) (Fail P) := by
  refine Triple.bind (base_grave (grave_read _ _) busy_serving) fun _ => ?_
  refine Triple.bind (base_grave (grave_read _ _) busy_serving) fun before => Triple.bind arm_rule fun _ => ?_
  refine Triple.bind (launch_rule starts) fun _ => Triple.bind (await_rule _ _ ?_) fun after => ?_
  · iterate 5 refine (grave_read _ _).bind fun _ => ?_
    exact grave_read _ _
  refine Triple.bind (base_grave mild_require.contain busy_serving) fun _ => Triple.bind (hw_rule _ busy_serving) fun _ => ?_
  exact Triple.bind (base_grave (mild_exact _) busy_serving) fun _ => mmuFine_rule

theorem objectSubmit_rule (q : SubmitCl) : Triple (Assert (Still (Serving P))) (objectSubmit q) (fun _ => Assert (Still (Serving P))) (Fail P) := by
  refine forget_rule fun _ => Triple.bind serving_require fun _ => Triple.bind serving_require fun _ => ?_
  refine Triple.bind (hw_rule _ still_serving) fun _ => Triple.bind guarded_rule fun _ => Triple.bind (hw_rule _ still_serving) fun _ => ?_
  refine Triple.bind (base_grave (grave_write _ _ _) still_serving) fun _ => ?_
  refine Triple.bind (count_rule _ fun _ => ⟨rfl, rfl, rfl, rfl, rfl, rfl, rfl, id⟩) fun _ => start_job ?_
  refine Triple.bind (Q := fun _ => Assert (Busy (Serving P))) (Triple.when (fun _ => ?_) fun _ hc _ => hc) fun _ => ?_
  · refine Triple.bind (binJob_rule (submit_bin _ _ _ _ _)) fun _ => Triple.bind (hw_rule _ busy_serving) fun _ => ?_
    exact Triple.bind (hw_rule _ busy_serving) fun _ => base_grave (grave_write _ _ _) busy_serving
  · refine Triple.bind (renderJob_rule (submit_render _ _)) fun _ => Triple.bind guarded_rule fun _ => ?_
    exact count_rule _ fun _ => ⟨rfl, rfl, rfl, rfl, rfl, rfl, rfl, id⟩

end Jobs

/-! ### Buffers -/

section Buffers

variable {P : Platform} {B : Driver → Platform → Prop} {s : Slot} {n : ℕ}

/-- A new buffer is there, and its guards are in memory. -/
def Got (B : Driver → Platform → Prop) (s : Slot) (n : ℕ) (d : Driver) (p : Physical) : Prop :=
  (Held d p ∧ p.trapped = false) ∧ ∃ d₀ b, B d₀ p.platform ∧ b.bytes = n + 2 * page ∧ b.dma % page = 0 ∧
    b.dma + (n + 2 * page) ≤ 2 ^ 36 ∧ d = d₀.setBuffer s (some b)

theorem setBuffer_setBuffer (d : Driver) (s : Slot) (x y : Option Buffer) : (d.setBuffer s x).setBuffer s y = d.setBuffer s y := by
  cases s with
  | fixed b => simp only [Driver.setBuffer, Function.update_idem]
  | object i => simp only [Driver.setBuffer, Function.update_self, Function.update_idem]

theorem Held.fewer {d d' : Driver} {p : Physical} (h : Held d p) (fewer : Fewer d d') : Held d' p :=
  h.less fewer.buffer fun clean => by
    rw [fewer.failures, fewer.scratch]
    exact h.counters (fewer.clean clean)

/-- A driver without one of its buffers. -/
theorem Held.without {d : Driver} {p : Physical} (h : Held d p) (dirty : d.guardsClean = false) (s : Slot) : Held (d.setBuffer s none) p := by
  refine h.less (fun t b hb => ?_) fun clean => ?_
  · rw [Driver.buffer_setBuffer_eq] at hb
    split at hb
    · cases hb
    · exact hb
  · rw [show (d.setBuffer s none).guardsClean = d.guardsClean by cases s <;> rfl, dirty] at clean
    cases clean

theorem allocate_rule (stays : Stays B) (good : ∀ d p, Still B d p → Good P d p) (without : ∀ d q, B d q → B (d.setBuffer s none) q)
    (aligned : n % page = 0) (pos : page ≤ n) (small : n + 2 * page ≤ 2 ^ 36) :
    Triple (Assert (Still B)) (allocate s n) (fun _ => Assert (Got B s n)) (Fail P) := by
  have lasts : Lasts fun d p => Still B d p ∧ d.guardsClean = false :=
    ⟨fun h alike => ⟨(lasts_still stays).alike h.1 alike, alike.clean.trans h.2⟩, fun h => h.1.1.1.fine⟩
  refine Triple.bind (set_rule (R := fun d p => Still B d p ∧ d.guardsClean = false) _ fun d p h => ⟨?_, rfl⟩) fun _ => ?_
  · exact h.counted stays ⟨rfl, rfl, rfl, rfl, id⟩ fun no => by cases no
  refine Triple.bind (base_grave (grave_on fun _ _ => trivial) lasts) fun r => driver_rule fun d => physical_rule fun p => ?_
  generalize offered : r.filter (fun x => unused d p.platform x.1 (n + 2 * page)) = found
  rcases found with _ | ⟨dma, cpu⟩
  · exact Triple.stop fun _ hc => good _ _ hc.2.2.1
  obtain ⟨-, free⟩ := Option.filter_eq_some_iff.mp offered
  refine Triple.bind (set_rule (R := fun d' p' => p' = p ∧ d' = d.setBuffer s (some ⟨dma, n + 2 * page⟩) ∧ Still B d p ∧ d.guardsClean = false) _ ?_)
    fun _ => Triple.ite (fun bad => ?_) fun fine => change_rule _ ?_
  · rintro d' p' ⟨rfl, rfl, still⟩
    exact ⟨rfl, rfl, still⟩
  · refine Triple.bind (Q := fun _ => Assert (Still B)) (Triple.zoom fun c hc => ?_) fun _ => stop_rule good
    obtain ⟨same, eq, still, dirty⟩ := hc
    refine (freeBuffer_like s c.base.driver).mono (fun _ hb => congrArg V3d.Context.driver hb) (fun _ b hb => ?_) fun _ _ no => no.elim
    change Still B b.driver c.physical
    have flag : ({ d.setBuffer s (some ⟨dma, n + 2 * page⟩) with guardsClean := false } : Driver) = d.setBuffer s (some ⟨dma, n + 2 * page⟩) := by
      cases s <;> simp only [Driver.setBuffer, ← dirty]
    rw [hb, eq, flag, setBuffer_setBuffer, same]
    exact ⟨⟨Held.without still.1.1 dirty s, without _ _ still.1.2⟩, still.2⟩
  · rintro d' p' ⟨rfl, rfl, still, dirty⟩
    obtain ⟨start, -, below⟩ : dma % page = 0 ∧ cpu ≠ false ∧ ¬2 ^ 36 - (n + 2 * page) < dma := by
      simpa only [not_or, not_not] using fine
    have pages : (n + 2 * page) % page = 0 := by
      unfold page at *
      omega
    have whole : Buffer.Whole ⟨dma, n + 2 * page⟩ := ⟨start, pages, show 3 * page ≤ n + 2 * page by omega⟩
    exact ⟨⟨still.1.1.allocated whole free dirty, still.2⟩, d, _, still.1.2, rfl, start, by simp only; omega, rfl⟩

/-- A buffer of some size is in its slot. -/
def Has (s : Slot) (n : ℕ) (d : Driver) : Prop := ∃ b, d.buffer s = some b ∧ b.bytes = n + 2 * page

/-- Entries of the table go to the payload of its buffer. -/
theorem storeTable_rule {first count : ℕ} (has : ∀ d p, B d p → Has (.fixed .table) tableBytes d) (inside : first + count ≤ tableBytes / 4) :
    Triple (Assert (Still B)) (storeTable first count) (fun _ => Assert (Still B)) (Fail P) := by
  refine driver_rule fun d => ?_
  cases table : d.fixed .table with
  | none => exact Triple.pure fun _ hc => hc.2
  | some b =>
    refine change_rule _ ?_
    rintro d' p ⟨rfl, ⟨held, kept⟩, calm⟩
    obtain ⟨b', own, bytes⟩ := has d' _ kept
    cases table.symm.trans own
    refine ⟨⟨held.store (s := .fixed .table) table (by simp) (by omega) ?_ _, kept⟩, calm⟩
    unfold Buffer.tail page tableBytes at *
    omega

end Buffers

/-! ### Objects -/

section Objects

variable {P : Platform} {size : ℕ} {place : Fin 256 × ℕ} {i : Fin 256}

/-- There is a place for a new object. -/
def Roomy (P : Platform) (size : ℕ) (place : Fin 256 × ℕ) (d : Driver) (p : Platform) : Prop :=
  Serving P d p ∧ d.space.Room size place.1 place.2

theorem stays_roomy : Stays (Roomy P size place) := fun _ _ _ h near => ⟨stays_serving h.1 near, near.space ▸ h.2⟩

theorem roomy_good (d : Driver) (p : Physical) (h : Still (Roomy P size place) d p) : Good P d p :=
  serving_good d p ⟨⟨h.1.1, h.1.2.1⟩, h.2⟩

theorem objectPlacement_rule :
    Triple (Assert (Still (Serving P))) (objectPlacement size) (fun place => Assert (Still (Roomy P size place))) (Fail P) := by
  unfold objectPlacement
  refine Triple.zoom fun c hc => (placement_like size c.base.driver).mono (fun _ hb => congrArg V3d.Context.driver hb)
    (fun place b hb => ?_) fun _ b hb => ?_
  · change Still (Roomy P size place) b.driver c.physical
    rw [hb.1]
    exact ⟨⟨hc.1.1, hc.1.2, objectPlacement_some hc.1.2.2.1.valid hb.2⟩, hc.2⟩
  · change Good P b.driver c.physical
    rw [hb]
    exact serving_good _ _ hc

theorem buffer_enter (d : Driver) (i : Fin 256) (o : Object) (same : o.buffer = d.buffer (.object i)) : (d.enter i o).buffer = d.buffer := by
  funext s
  cases s with
  | fixed b => rfl
  | object j =>
    change (Function.update d.space.objects i o j).buffer = (d.space.objects j).buffer
    rw [Function.update_apply]
    split
    · next eq => exact eq ▸ same
    · rfl

/-- The object takes its place. -/
theorem Serving.enter {d : Driver} {p : Platform} {o : Object} (h : Serving P d p) (room : d.space.Room o.bytes i o.address) (placed : o.Placed)
    (handle : o.handle = d.space.objectSerial + 1) (size : ∀ b, o.buffer = some b → b.bytes = o.bytes + 2 * page)
    (foreign : ∀ mdl, o.importedMdl = some mdl → ∀ k < o.bytes / page, p.common (mdl.pages k) = false) : Serving P (d.enter i o) p := by
  obtain ⟨same, session, on, owned⟩ := h
  refine ⟨same, ⟨session.valid.insert room placed handle, session.table, session.trap, fun j b hb => ?_, fun j mdl hj => ?_⟩, on, owned⟩
  · change (Function.update d.space.objects i o j).buffer = some b at hb
    change b.bytes = (Function.update d.space.objects i o j).bytes + 2 * page
    rw [Function.update_apply] at hb ⊢
    split at hb
    · rw [if_pos ‹_›]
      exact size b hb
    · rw [if_neg ‹_›]
      exact session.size j b hb
  · change (Function.update d.space.objects i o j).importedMdl = some mdl at hj
    change ∀ k < (Function.update d.space.objects i o j).bytes / page, _
    rw [Function.update_apply] at hj ⊢
    split at hj
    · rw [if_pos ‹_›]
      exact foreign mdl hj
    · rw [if_neg ‹_›]
      exact session.foreign j mdl hj

/-- Entries of an object are entries of the table. -/
theorem entries_fit {a : AddressSpace} {address : ℕ} (room : a.Room size i address) (aligned : size % page = 0) :
    address / page + size / page ≤ tableBytes / 4 := by
  have fits := room.fits.1
  have := room.aligned
  unfold addressLimit tableBytes page at *
  omega

/-- The table in memory is brought up to date, and the MMU told. -/
theorem publish_rule {first count : ℕ} (inside : first + count ≤ tableBytes / 4) :
    Triple (Assert (Still (Serving P))) (do storeTable first count; hw v3dMmuFlush) (fun _ => Assert (Still (Serving P))) (Fail P) := by
  exact Triple.bind (storeTable_rule (fun _ _ h => h.2.1.table) inside) fun _ => hw_rule _ still_serving

theorem objectCreate_rule (q : BufferRequest) : Triple (Assert (Still (Serving P))) (objectCreate q) (fun _ => Assert (Still (Serving P))) (Fail P) := by
  refine Triple.bind (require_rule serving_good) fun _ => assume_rule fun creates => forget_rule fun d => ?_
  refine Triple.bind serving_require fun _ => Triple.bind objectPlacement_rule fun place => ?_
  refine Triple.bind (hw_rule _ (lasts_still stays_roomy)) fun _ => Triple.bind (guards_rule stays_roomy) fun _ => ?_
  obtain ⟨nonzero, most, mask, permission, -⟩ := creates
  have aligned := aligned_of_and mask
  have pos : 0 < q.bytes.toNat := Nat.pos_of_ne_zero fun zero => nonzero (BitVec.eq_of_toNat_eq zero)
  refine Triple.bind (allocate_rule (s := .object place.1) stays_roomy roomy_good (fun d p h => ?_) aligned ?_ ?_) fun _ => ?_
  · have vacant : d.buffer (.object place.1) = none := by
      change (d.space.objects place.1).buffer = none
      rw [h.1.2.1.valid.empty place.1 h.2.dead]
      rfl
    rwa [← vacant, Driver.setBuffer_self]
  · unfold page at *
    omega
  · unfold bufferMaxBytes page at *
    omega
  refine fun c hc => ?_
  obtain ⟨⟨held, calm⟩, d₀, b, ⟨serving, room⟩, bytes, start, top, eq⟩ := hc
  have fits := entries_fit room aligned
  refine Triple.bind (set_rule (A := fun d p => d = c.base.driver ∧ p = c.physical) (R := Still (Serving P)) _ ?_)
    (fun _ => publish_rule fits) (s := c) ⟨rfl, rfl⟩
  rintro d p ⟨rfl, rfl⟩
  have own : c.base.driver.buffer (.object place.1) = some b := by rw [eq, Driver.buffer_setBuffer_eq, if_pos rfl]
  have entered : c.base.driver.enter place.1 ⟨c.base.driver.buffer (.object place.1), none, c.base.driver.space.objectSerial + 1, place.2,
      q.bytes.toNat, q.flags⟩ = d₀.enter place.1 ⟨some b, none, d₀.space.objectSerial + 1, place.2, q.bytes.toNat, q.flags⟩ := by
    rw [own, eq]
    simp only [Driver.enter, Driver.setBuffer, AddressSpace.insert, Function.update_idem]
  refine ⟨⟨?_, ?_⟩, calm⟩
  · refine held.less (fun s b hb => ?_) held.counters
    exact (congrFun (buffer_enter c.base.driver place.1 _ (by rfl)) s).symm.trans hb
  · rw [entered]
    refine serving.enter room (placed_of_sound ⟨start, top⟩ room pos aligned permission) rfl (fun b' hb' => ?_) fun mdl no => ?_
    · cases hb'
      exact bytes
    · cases no

theorem objectImport_rule (q : BufferImport) (foreign : (Ask.bufferImport q).Foreign P) :
    Triple (Assert (Still (Serving P))) (objectImport q) (fun _ => Assert (Still (Serving P))) (Fail P) := by
  unfold objectImport
  cases listed : q.mdl with
  | none => exact stop_rule serving_good
  | some mdl =>
  refine Triple.bind (require_rule serving_good) fun _ => assume_rule fun imports => forget_rule fun d => ?_
  refine Triple.bind serving_require fun _ => Triple.bind (require_rule serving_good) fun _ => assume_rule fun reach => ?_
  refine Triple.bind objectPlacement_rule fun place => Triple.bind (hw_rule _ (lasts_still stays_roomy)) fun _ => ?_
  refine Triple.bind (guards_rule stays_roomy) fun _ => fun c hc => ?_
  obtain ⟨⟨held, serving, room⟩, calm⟩ := hc
  obtain ⟨permission, -, -, -, -, -, -, -, nonzero, aligned, -⟩ := imports
  refine Triple.bind (set_rule (A := fun d p => d = c.base.driver ∧ p = c.physical) (R := Still (Serving P)) _ ?_)
    (fun _ => publish_rule (entries_fit room aligned)) (s := c) ⟨rfl, rfl⟩
  rintro d p ⟨rfl, rfl⟩
  have vacant : c.base.driver.space.objects place.1 = Object.empty := serving.2.1.valid.empty place.1 room.dead
  have none : c.base.driver.buffer (.object place.1) = none := by
    change (c.base.driver.space.objects place.1).buffer = none
    rw [vacant]
    rfl
  refine ⟨⟨held.less (fun s b hb => ?_) held.counters, serving.enter room ?_ rfl (fun b hb => ?_) fun mdl' same => ?_⟩, calm⟩
  · exact (congrFun (buffer_enter c.base.driver place.1 _ (by rfl)) s).symm.trans hb
  · exact {
      first := room.first
      aligned := ⟨room.aligned, aligned⟩
      size := Nat.pos_of_ne_zero nonzero
      bound := room.fits.1
      frames := fun k hk => by
        have := reach k hk
        simp only [Object.frame]
        unfold page
        omega
      backing := by simp [none]
      permission := permission }
  · rw [none] at hb
    cases hb
  · cases same
    intro k hk
    rw [serving.1]
    exact foreign mdl listed k hk

/-! ### Destruction and transfers -/

/-- The object is on its way: the driver is as it was, but for the entries of the object. -/
def Leaving (P : Platform) (i : Fin 256) (d₀ d : Driver) (p : Platform) : Prop :=
  (Serving P d₀ p ∧ (d₀.space.objects i).Live) ∧ Near (d₀.unmap (d₀.space.objects i)) d

theorem Near.trans {d₁ d₂ d₃ : Driver} (h : Near d₁ d₂) (h' : Near d₂ d₃) : Near d₁ d₃ where
  boot := h'.boot.trans h.boot
  session := h'.session.trans h.session
  fixed := h'.fixed.trans h.fixed
  space := h'.space.trans h.space
  owner := fun none => h.owner (h'.owner none)

theorem stays_leaving (d₀ : Driver) : Stays (Leaving P i d₀) := fun _ _ _ h near => ⟨h.1, h.2.trans near⟩

/-- An object that is gone. -/
theorem Serving.leave {d : Driver} {p : Platform} (h : Serving P d p) (live : (d.space.objects i).Live) {d' : Driver}
    (space : d'.space = d.space.remove i) (fixed : d'.fixed = d.fixed) (on : d'.memorySession = d.memorySession)
    (owner : d'.owner = none → d.owner = none) :
    Serving P d' p := by
  obtain ⟨same, session, started, owned⟩ := h
  have objects (j : Fin 256) : d'.space.objects j = if j = i then Object.empty else d.space.objects j := by
    rw [space]
    exact Function.update_apply _ _ _ _
  refine ⟨same, ⟨space ▸ session.valid.remove live, ?_, ?_, fun j b hb => ?_, fun j mdl hj => ?_⟩, on.trans started, fun none => owned (owner none)⟩
  · rw [show d'.buffer (.fixed .table) = d.buffer (.fixed .table) from congrFun fixed .table]
    exact session.table
  · rw [show d'.buffer (.fixed .trap) = d.buffer (.fixed .trap) from congrFun fixed .trap]
    exact session.trap
  · change (d'.space.objects j).buffer = some b at hb
    rw [objects] at hb ⊢
    split at hb
    · cases hb
    · rw [if_neg ‹_›]
      exact session.size j b hb
  · rw [objects] at hj ⊢
    split at hj
    · cases hj
    · rw [if_neg ‹_›]
      exact session.foreign j mdl hj

theorem objectDestroyAt_rule (i : Fin 256) :
    Triple (Assert fun d p => (d.space.objects i).Live ∧ Still (Serving P) d p) (objectDestroyAt i)
      (fun _ => Assert (Still (Serving P))) (Fail P) := by
  have stays : Stays fun d p => Serving P d p ∧ (d.space.objects i).Live :=
    fun _ _ _ h near => ⟨stays_serving h.1 near, near.space ▸ h.2⟩
  refine Triple.mono (P := Assert (Still fun d p => Serving P d p ∧ (d.space.objects i).Live)) (Q := fun _ => Assert (Still (Serving P)))
    (E := Fail P) ?_ (fun _ hc => ⟨⟨hc.2.1.1, hc.2.1.2, hc.1⟩, hc.2.2⟩) (fun _ _ hc => hc) fun _ _ hc => hc
  refine Triple.bind (hw_rule _ (lasts_still stays)) fun _ => Triple.bind (guards_rule stays) fun _ => driver_rule fun d₀ => ?_
  have still : Lasts (Still (Leaving P i d₀)) := lasts_still (stays_leaving d₀)
  refine Triple.bind (set_rule (R := Still (Leaving P i d₀)) _ ?_) fun _ => ?_
  · rintro d p ⟨rfl, ⟨held, serving, live⟩, calm⟩
    exact ⟨⟨held.less (fun _ _ hb => hb) held.counters, ⟨serving, live⟩, ⟨rfl, rfl, rfl, rfl, id⟩⟩, calm⟩
  refine fun c hc => Triple.bind (storeTable_rule (fun d p h => ?_) ?_) (fun _ => ?_) (s := c) hc
  · obtain ⟨b, hb, bytes⟩ := h.1.1.2.1.table
    exact ⟨b, by rwa [h.2.buffer], bytes⟩
  · obtain ⟨⟨-, session, -⟩, live⟩ := hc.1.2.1
    have placed := session.valid.placed i live
    have := placed.bound
    have := placed.aligned
    unfold addressLimit tableBytes page at *
    omega
  refine Triple.bind (hw_rule _ still) fun _ => Triple.bind (hw_rule _ still) fun _ => fun c hc => ?_
  obtain ⟨⟨held, ⟨serving, live⟩, near⟩, calm⟩ := hc
  refine Triple.bind (set_rule (A := fun d p => d = c.base.driver ∧ p = c.physical)
    (R := fun d p => d = c.base.driver.discount (d₀.space.objects i) ∧ p = c.physical) _ ?_) (fun _ => ?_) (s := c) ⟨rfl, rfl⟩
  · rintro d p ⟨rfl, rfl⟩
    exact ⟨rfl, rfl⟩
  refine Triple.bind (Q := fun _ => Assert fun d p => d = Driver.setBuffer { c.base.driver.discount (d₀.space.objects i) with guardsClean := false }
    (.object i) none ∧ p = c.physical) (Triple.zoom fun c' hc' => ?_) fun _ => set_rule _ ?_
  · exact (freeBuffer_like (.object i) _).mono (fun _ hb => (congrArg V3d.Context.driver hb).trans hc'.1) (fun _ _ hb => ⟨hb, hc'.2⟩)
      fun _ _ no => no.elim
  rintro d p ⟨rfl, rfl⟩
  have fewer := fewer_emptied (fewer_setBuffer (d := c.base.driver)
    (e := { c.base.driver.discount (d₀.space.objects i) with guardsClean := false })
    ⟨rfl, rfl, Bool.noConfusion, rfl, rfl, fun _ _ hb => hb⟩ (.object i)) i
  refine ⟨⟨Held.fewer held fewer, serving.leave live ?_ near.fixed near.session near.owner⟩, calm⟩
  · simp only [Driver.emptied, Driver.setBuffer, Driver.discount, near.space, Driver.unmap, AddressSpace.remove, ownBytes, foreignBytes,
      live, true_and, Function.update_idem]
    cases (d₀.space.objects i).importedMdl <;> simp

theorem objectDestroy_rule (q : BufferRequest) : Triple (Assert (Still (Serving P))) (objectDestroy q) (fun _ => Assert (Still (Serving P))) (Fail P) :=
  Triple.bind (found_rule _ _) objectDestroyAt_rule

theorem objectTransfer_rule (q : Transfer) (words : ℕ → BitVec 32) (toObject : Bool) :
    Triple (Assert (Still (Serving P))) (objectTransfer q words toObject) (fun _ => Assert (Still (Serving P))) (Fail P) := by
  refine Triple.bind (found_any _ _) fun i => driver_rule fun d => ?_
  have stays : Stays fun d' p => Serving P d' p ∧ d'.space = d.space := fun _ _ _ h near => ⟨stays_serving h.1 near, near.space.trans h.2⟩
  refine Triple.bind (require_rule fun _ _ h => serving_good _ _ h.2) fun _ => assume_rule fun fits => ?_
  obtain ⟨-, low, inside⟩ := fits
  refine Triple.mono (P := Assert (Still fun d' p => Serving P d' p ∧ d'.space = d.space)) (Q := fun _ => Assert (Still (Serving P)))
    (E := Fail P) ?_ ?_ (fun _ _ hc => hc) fun _ _ hc => hc
  · refine Triple.bind (hw_rule _ (lasts_still stays)) fun _ => Triple.bind (guards_rule stays) fun _ => ?_
    cases backing : (d.space.objects i).buffer with
    | none => exact Triple.pure fun _ hc => ⟨⟨hc.1.1, hc.1.2.1⟩, hc.2⟩
    | some b =>
      refine Triple.when (fun _ => change_rule _ ?_) fun _ hc _ => ⟨⟨hc.1.1, hc.1.2.1⟩, hc.2⟩
      rintro d' p ⟨⟨held, serving, same⟩, calm⟩
      have own : d'.buffer (.object i) = some b := by
        change (d'.space.objects i).buffer = some b
        rw [same, backing]
      have size := serving.2.1.size i b own
      rw [same] at size
      refine ⟨⟨held.store own (by simp) (by omega) ?_ words, serving⟩, calm⟩
      unfold Buffer.tail page at *
      omega
  · rintro c ⟨same, still⟩
    exact ⟨⟨still.1.1, still.1.2, congrArg Driver.space same⟩, still.2⟩

end Objects

/-! ### Sessions -/

section Sessions

variable {P : Platform}

theorem reset_rule {B : Driver → Platform → Prop} (stays : Stays B) :
    Triple (Assert (Still B)) reset (fun _ => Assert (Still B)) (Fail P) := by
  refine Triple.bind (Q := fun _ => Assert (Still B)) (Triple.zoom fun c hc => ?_) fun _ => change_rule _ fun d p h =>
    ⟨⟨h.1.1.write rfl rfl (fun _ _ => rfl) fun _ => ⟨h.2, fun _ _ => rfl⟩, h.1.2⟩, rfl⟩
  refine (reset_like c.base.driver).mono (fun _ hb => hb ▸ .refl _) (fun _ b alike => ?_) fun _ _ broken => .inl ⟨broken, hc.1.1.fine⟩
  have dirty : Still B { c.base.driver with guardsClean := false } c.physical :=
    Still.counted stays hc ⟨rfl, rfl, rfl, rfl, id⟩ fun no => absurd no Bool.false_ne_true
  exact (lasts_still stays).alike dirty alike

theorem interruptCheck_rule : Triple (Assert (Still (Serving P))) interruptCheck (fun _ => Assert (Still (Serving P))) (Fail P) := by
  refine base_rule (fun d p h => ?_) still_serving
  refine Triple.bind (arm_like h.1.2.2.2.1) fun _ => ?_
  exact ((grave_write _ _ _).bind fun _ => (grave_write _ _ _).bind fun _ => (mild_on _).contain) d

/-- All that is known of a driver that comes to its end. -/
abbrev Ending (P : Platform) : Driver → Physical → Prop := Still fun _ p => p = P

theorem retire_rule : Triple (Assert (Ending P)) retire (fun _ => Assert (Ending P)) (Fail P) := by
  have stays : Stays fun _ p => p = P := fun _ _ _ h _ => h
  have lasts := lasts_still stays
  refine Triple.bind (base_grave ?_ lasts) fun _ => Triple.bind (guards_rule stays) fun _ =>
    base_grave (grave_set _ fun _ => ⟨rfl, rfl, rfl, rfl, rfl, rfl, rfl, id⟩) lasts
  exact grave_quiesce.bind fun _ => (mild_atRest.bind fun _ => mild_unmapped).contain.bind fun _ => grave_mask _

theorem finish_rule : Triple (Assert (Ending P)) finish (fun _ => Assert (Still (Ended P))) (Fail P) := by
  have stays : Stays fun _ p => p = P := fun _ _ _ h _ => h
  have lasts : Lasts (Ending P) := lasts_still stays
  refine Triple.bind (set_rule (R := Ending P) _ fun d p h => h.counted stays ⟨rfl, rfl, rfl, rfl, id⟩ fun no => by cases no) fun _ => ?_
  refine driver_rule fun d => Triple.bind (Triple.require (Q := fun _ => Assert (Ending P)) (fun _ hc _ => hc.2) fun c hc broken => ?_) fun _ => ?_
  · exact .inl ⟨hc.1 ▸ Bool.eq_true_of_not_eq_false broken, hc.2.1.1.fine⟩
  refine Triple.bind (Triple.when (fun _ => retire_rule) fun _ hc _ => hc) fun _ => Triple.bind (base_grave grave_snapshot lasts) fun _ => ?_
  refine forget_rule fun d => Triple.bind (base_grave grave_sleep.when lasts) fun _ => Triple.bind (base_grave grave_snapshot lasts) fun _ => ?_
  refine Triple.bind (base_grave (grave_set _ fun _ => ⟨rfl, rfl, rfl, rfl, rfl, rfl, rfl, id⟩) lasts) fun _ => ?_
  refine Triple.bind (Q := fun _ => Assert (Still fun d p => p = P ∧ ∀ i, d.space.objects i = Object.empty)) (Triple.zoom fun c hc => ?_) fun _ => ?_
  · exact (dropAll_fewer c.base.driver).mono (fun _ hb => congrArg V3d.Context.driver hb)
      (fun _ _ hb => ⟨⟨Held.fewer hc.1.1 hb.1, hc.1.2, hb.2⟩, hc.2⟩) fun _ _ no => no.elim
  refine Triple.bind (set_rule (R := Still (Ended P)) _ fun d p h => ⟨⟨h.1.1.less (fun _ _ hb => hb) h.1.1.counters, h.1.2.1, rfl, h.1.2.2, rfl, rfl⟩, h.2⟩) fun _ => ?_
  refine Triple.bind (Q := fun _ => Assert (Still (Ended P))) (Triple.zoom fun c hc => ?_) fun _ => Triple.zoom fun c hc => ?_
  · exact (freeAll_fewer c.base.driver lastBuffers).mono (fun _ hb => congrArg V3d.Context.driver hb)
      (fun _ _ hb => ⟨⟨Held.fewer hc.1.1 hb.1, hc.1.2.1, hb.1.session.trans hc.1.2.2.1, hb.2 ▸ hc.1.2.2.2⟩, hc.2⟩) fun _ _ no => no.elim
  · refine (dropProviders_like c.base.driver).mono (fun _ hb => hb ▸ .refl _) (fun _ b hb => ?_) fun _ _ broken => .inl ⟨broken, hc.1.1.fine⟩
    obtain ⟨d', alike, eq⟩ := hb
    have still := (lasts_still stays_ended).alike hc alike
    change Still (Ended P) b.driver c.physical
    rw [eq]
    exact ⟨⟨still.1.1.less (fun _ _ hb => hb) still.1.1.counters, still.1.2⟩, still.2⟩

/-- What holds whatever is in a slot. -/
def Indep (B : Driver → Platform → Prop) (s : Slot) : Prop := ∀ d p x, B d p → B (d.setBuffer s x) p

theorem allocateFixed_rule {B : Driver → Platform → Prop} (stays : Stays B) (good : ∀ d p, Still B d p → Good P d p) {s : Slot} (indep : Indep B s)
    {n : ℕ} (aligned : n % page = 0) (pos : page ≤ n) (small : n + 2 * page ≤ 2 ^ 36) :
    Triple (Assert (Still B)) (allocate s n) (fun _ => Assert (Still fun d p => B d p ∧ Has s n d)) (Fail P) :=
  (allocate_rule stays good (fun d p => indep d p none) aligned pos small).mono (fun _ hc => hc) (fun _ c hc => by
    obtain ⟨⟨held, calm⟩, d₀, b, kept, bytes, -, -, eq⟩ := hc
    refine ⟨⟨held, ?_, b, ?_, bytes⟩, calm⟩
    · rw [eq]
      exact indep _ _ _ kept
    · rw [eq, Driver.buffer_setBuffer_eq, if_pos rfl]) fun _ _ hc => hc

/-- A session that has an owner, and no buffers yet. -/
def Owned (P : Platform) (d : Driver) (p : Platform) : Prop := Ended P d p ∧ d.owner ≠ none

/-- A session with a table and a trap page. -/
def Begun (P : Platform) (d : Driver) (p : Platform) : Prop := (Owned P d p ∧ Has (.fixed .table) tableBytes d) ∧ Has (.fixed .trap) page d

theorem stays_owned : Stays (Owned P) := fun _ _ _ h near => ⟨stays_ended h.1 near, fun none => h.2 (near.owner none)⟩

theorem stays_has {B : Driver → Platform → Prop} (stays : Stays B) (s : Slot) (n : ℕ) : Stays fun d p => B d p ∧ Has s n d :=
  fun _ _ _ h near => by
    obtain ⟨b, hb, bytes⟩ := h.2
    exact ⟨stays h.1 near, b, by rwa [near.buffer], bytes⟩

theorem stays_begun : Stays (Begun P) := stays_has (stays_has stays_owned _ _) _ _

theorem indep_owned (b : Fixed) : Indep (Owned P) (.fixed b) := fun _ _ _ h => h

theorem indep_has {B : Driver → Platform → Prop} {s t : Slot} (indep : Indep B s) (ne : t ≠ s) (n : ℕ) : Indep (fun d p => B d p ∧ Has t n d) s :=
  fun d p x h => ⟨indep d p x h.1, by
    obtain ⟨b, hb, bytes⟩ := h.2
    exact ⟨b, by rwa [Driver.buffer_setBuffer_eq, if_neg ne], bytes⟩⟩

theorem owned_good (d : Driver) (p : Physical) (h : Still (Owned P) d p) : Good P d p := .inr (.inr ⟨⟨h.1.1, h.1.2.1⟩, h.2⟩)

theorem begun_good (d : Driver) (p : Physical) (h : Still (Begun P) d p) : Good P d p := owned_good d p ⟨⟨h.1.1, h.1.2.1.1⟩, h.2⟩

/-- There is no object in the table. -/
def Blank (P : Platform) (d : Driver) (p : Platform) : Prop := Begun P d p ∧ ∀ k, d.space.table k = 0

theorem stays_blank : Stays (Blank P) := fun _ _ _ h near => ⟨stays_begun h.1 near, near.space ▸ h.2⟩

theorem begun_has (d : Driver) (p : Platform) (h : Begun P d p) : Has (.fixed .table) tableBytes d := h.1.2

/-- The fixed buffers that come after the table and the trap page. -/
theorem plain_buffers : ∀ x ∈ firstBuffers.drop 2, x.1 ≠ .table ∧ x.1 ≠ .trap ∧ x.2 % page = 0 ∧ page ≤ x.2 ∧ x.2 + 2 * page ≤ 2 ^ 36 := by
  decide

/-- The entries of the table do not matter to a session without objects. -/
theorem begun_entries {d : Driver} {p : Physical} {t u : ℕ → BitVec 32}
    (h : Still (Begun P) { d with space := { d.space with table := t } } p) :
    Still (Begun P) { d with space := { d.space with table := u } } p := by
  obtain ⟨⟨held, ⟨⟨⟨same, ended, clear⟩, owned⟩, table⟩, trap⟩, calm⟩ := h
  exact ⟨⟨held.less (fun _ _ hb => hb) held.counters,
    ⟨⟨⟨same, ended, clear.empty, clear.objectBytes, clear.importedBytes⟩, owned⟩, table⟩, trap⟩, calm⟩

theorem clearTable_rule : Triple (Assert (Still (Begun P))) (base clearTable) (fun _ => Assert (Still (Blank P))) (Fail P) :=
  set_rule _ fun d p h => by
    have begun : Still (Begun P) { d with space := { d.space with table := fun _ => 0 } } p := begun_entries (t := d.space.table) h
    exact ⟨⟨begun.1.1, begun.1.2, fun _ => rfl⟩, begun.2⟩

theorem mapAll_rule : Triple (Assert (Still (Begun P))) (base mapAll) (fun _ => Assert (Still (Begun P))) (Fail P) := by
  refine Triple.zoom fun c hc => (mapAll_like c.base.driver).mono (fun b hb => ?_) (fun _ b hb => ?_) fun _ _ no => no.elim
  · rw [hb]
    rfl
  · have begun : Still (Begun P) { b.driver with space := { b.driver.space with table := c.base.driver.space.table } } c.physical := by
      rw [show _ = c.base.driver from hb]
      exact hc
    exact begun_entries (u := b.driver.space.table) begun

theorem establish_rule : Triple (Assert (Still (Owned P))) establish (fun _ => Assert (Still (Begun P))) (Fail P) := by
  refine Triple.bind (base_grave (grave_set _ fun _ => ⟨rfl, rfl, rfl, rfl, rfl, rfl, rfl, id⟩) (lasts_still stays_owned)) fun _ => ?_
  refine Triple.bind (Q := fun _ => Assert (Still (Begun P))) ?_ fun _ => ?_
  · refine Triple.bind (allocateFixed_rule stays_owned owned_good (indep_owned _) (by decide) (by decide) (by decide)) fun _ => ?_
    refine Triple.bind (allocateFixed_rule (stays_has stays_owned _ _) (fun d p h => owned_good d p ⟨⟨h.1.1, h.1.2.1⟩, h.2⟩)
      (indep_has (indep_owned _) (by decide) _) (by decide) (by decide) (by decide)) fun _ => Triple.each fun x hx => ?_
    obtain ⟨table, trap, aligned, pos, small⟩ := plain_buffers x hx
    refine (allocateFixed_rule stays_begun begun_good (indep_has (indep_has (indep_owned _) ?_ _) ?_ _) aligned pos small).mono
      (fun _ hc => hc) (fun _ _ hc => ⟨⟨hc.1.1, hc.1.2.1⟩, hc.2⟩) fun _ _ hc => hc
    · simpa using table.symm
    · simpa using trap.symm
  refine Triple.bind clearTable_rule fun _ => ?_
  refine Triple.mono (P := Assert (Still (Begun P))) ?_ (fun _ hc => ⟨⟨hc.1.1, hc.1.2.1⟩, hc.2⟩) (fun _ _ hc => hc) fun _ _ hc => hc
  refine Triple.bind (base_grave (grave_set _ fun _ => ⟨rfl, rfl, rfl, rfl, rfl, rfl, rfl, id⟩) (lasts_still stays_begun)) fun _ => ?_
  refine Triple.bind mapAll_rule fun _ => Triple.bind (storeTable_rule begun_has (by decide)) fun _ => ?_
  exact Triple.bind (reset_rule stays_begun) fun _ => base_grave grave_snapshot (lasts_still stays_begun)

theorem acquire_rule (file : ℕ) : Triple (Assert (Still (Ended P))) (base (acquire file)) (fun _ => Assert (Still (Owned P))) (Fail P) := by
  refine Triple.zoom fun c hc => (acquire_like file c.base.driver).mono (fun _ hb => hb ▸ .refl _) (fun _ b hb => ?_) fun _ b hb => ?_
  · obtain ⟨⟨held, ended⟩, calm⟩ := (lasts_still stays_ended).alike hc hb.1
    exact ⟨⟨held, ended, hb.2⟩, calm⟩
  · rcases hb with alike | broken
    · exact .inr (.inr ((lasts_still stays_ended).alike hc alike))
    · exact .inl ⟨broken, hc.1.1.fine⟩

theorem lasts_good : Lasts (Good P) where
  alike h alike := by
    rcases h with ⟨broken, fine⟩ | serving | ended
    · exact .inl ⟨alike.boot.trans broken, fine⟩
    · exact .inr (.inl (still_serving.alike serving alike))
    · exact .inr (.inr ((lasts_still stays_ended).alike ended alike))
  fine h := by
    rcases h with ⟨-, fine⟩ | serving | ended
    · exact fine
    · exact serving.1.1.fine
    · exact ended.1.1.fine

/-- Without a fault the guards are intact. -/
theorem good_ending {d : Driver} {p : Physical} (h : Good P d p) (boot : d.bootFault = false) : Ending P d p := by
  rcases h with ⟨broken, -⟩ | serving | ended
  · cases boot.symm.trans broken
  · exact ⟨⟨serving.1.1, serving.1.2.1⟩, serving.2⟩
  · exact ⟨⟨ended.1.1, ended.1.2.1⟩, ended.2⟩

theorem good_ended {d : Driver} {p : Physical} (h : Good P d p) (boot : d.bootFault = false) (free : d.owner = none) :
    Still (Ended P) d p := by
  rcases h with ⟨broken, -⟩ | serving | ended
  · cases boot.symm.trans broken
  · exact absurd free serving.1.2.2.2.2
  · exact ended

theorem good_serving {d : Driver} {p : Physical} (h : Good P d p) (boot : d.bootFault = false) (session : d.memorySession = true) :
    Still (Serving P) d p := by
  rcases h with ⟨broken, -⟩ | serving | ended
  · cases boot.symm.trans broken
  · exact serving
  · cases session.symm.trans ended.1.2.2.1

/-- What was acquired is given back, unless a fault was recorded. -/
theorem giveBack_rule (s : Status) : Triple (Assert (Good P)) (do
      base (set fun d => { d with lastStatus := some s })
      let d ← driver
      when (d.bootFault = false) finish
      stop s : Drive Unit) (fun _ => Assert (Still (Begun P))) (Fail P) := by
  refine Triple.bind (base_grave (grave_set _ fun _ => ⟨rfl, rfl, rfl, rfl, rfl, rfl, rfl, id⟩) lasts_good) fun _ => driver_rule fun d => ?_
  refine Triple.bind (Q := fun _ => Assert (Good P)) (Triple.when (fun boot => ?_) fun _ hc _ => hc.2) fun _ => stop_rule fun _ _ h => h
  refine finish_rule.mono (fun c hc => good_ending hc.2 ?_) (fun _ _ hc => .inr (.inr hc)) fun _ _ hc => hc
  rw [show c.base.driver = d from hc.1]
  exact boot

theorem begin_rule (file : ℕ) : Triple (Assert (Good P)) (begin file) (fun _ => Assert (Still (Begun P))) (Fail P) := by
  refine driver_rule fun d => Triple.bind (require_rule fun _ _ h => h.2) fun _ => Triple.bind (require_rule fun _ _ h => h.2.2) fun _ => ?_
  refine Triple.orElse (E := Fail P) ?_ giveBack_rule
  refine Triple.mono (P := Assert (Still (Ended P))) (Triple.bind (acquire_rule file) fun _ => establish_rule) ?_ (fun _ _ hc => hc)
    fun _ _ hc => hc
  rintro c ⟨free, boot, same, good⟩
  exact good_ended good (same ▸ boot) (same ▸ free)

theorem memoryBegin_rule (file : ℕ) : Triple (Assert (Good P)) (memoryBegin file) (fun _ => Assert (Good P)) (Fail P) := by
  refine Triple.bind (begin_rule file) fun _ => Triple.bind (hw_rule _ (lasts_still stays_begun)) fun _ => ?_
  refine Triple.bind clearTable_rule fun _ => Triple.bind (storeTable_rule (fun d p h => begun_has d p h.1) (by decide)) fun _ => ?_
  refine Triple.bind (hw_rule _ (lasts_still stays_blank)) fun _ => set_rule _ ?_
  rintro d p ⟨⟨held, ⟨⟨⟨⟨same, ended, clear⟩, owned⟩, table⟩, trap⟩, blank⟩, calm⟩
  have none (i : Fin 256) : (d.space.objects i).buffer = none := by
    rw [clear.empty i]
    rfl
  refine .inr (.inl ⟨⟨held.less (fun _ _ hb => hb) held.counters, same, ⟨clear.valid blank, table, trap, fun i b hb => ?_, fun i mdl hi => ?_⟩, rfl, owned⟩, calm⟩)
  · cases (none i).symm.trans hb
  · change (d.space.objects i).importedMdl = some mdl at hi
    rw [clear.empty i] at hi
    cases hi

/-- What a scan that is asked for finds is recorded. -/
theorem query_rule : Triple (Assert (Good P)) query (fun _ => Assert (Good P)) (Fail P) := by
  refine driver_rule fun d => Triple.bind (Q := fun _ => Assert (Good P)) (Triple.when (fun asked => ?_) fun _ hc _ => hc.2) fun _ =>
    base_grave grave_snapshot lasts_good
  have dirty {B : Driver → Platform → Prop} (stays : Stays B) (good : ∀ d p, Still B d p → Good P d p) :
      Triple (Assert (Still B)) (do
        base (set fun d => { d with guardsClean := false })
        let _ ← attempt (contain guards)
        pure ()) (fun _ => Assert (Good P)) (Fail P) := by
    refine Triple.bind (set_rule (R := Still B) _ fun d p h => h.counted stays ⟨rfl, rfl, rfl, rfl, id⟩ Bool.noConfusion) fun _ => ?_
    refine Triple.bind (Triple.attempt (R := fun _ => Assert (Good P)) ((guards_rule stays).mono (fun _ hc => hc)
      (fun _ _ hc => good _ _ hc) fun _ _ hc => hc)) fun _ => Triple.pure fun _ hc => hc
  rintro c ⟨same, good⟩
  have boot : c.base.driver.bootFault = false := same ▸ asked.2
  rcases good with ⟨broken, -⟩ | serving | ended
  · cases boot.symm.trans broken
  · exact dirty stays_serving serving_good serving
  · exact dirty stays_ended (fun _ _ h => .inr (.inr h)) ended

/-! ### Requests -/

theorem session_rule {x : Drive Unit} (h : Triple (Assert (Still (Serving P))) x (fun _ => Assert (Good P)) (Fail P)) :
    Triple (Assert (Good P)) (session x) (fun _ => Assert (Good P)) (Fail P) := by
  refine driver_rule fun d => Triple.bind (require_rule fun _ _ h => h.2) fun _ => Triple.bind (require_rule fun _ _ h => h.2.2) fun _ => ?_
  refine h.mono ?_ (fun _ _ hc => hc) fun _ _ hc => hc
  rintro c ⟨open', boot, same, good⟩
  exact good_serving good (same ▸ boot) (same ▸ open')

theorem serving_rule {x : Drive Unit} (h : Triple (Assert (Still (Serving P))) x (fun _ => Assert (Still (Serving P))) (Fail P)) :
    Triple (Assert (Good P)) (session x) (fun _ => Assert (Good P)) (Fail P) :=
  session_rule (h.mono (fun _ hc => hc) (fun _ _ hc => serving_good _ _ hc) fun _ _ hc => hc)

theorem serve_rule (a : Ask) (foreign : a.Foreign P) : Triple (Assert (Good P)) (serve a) (fun _ => Assert (Good P)) (Fail P) := by
  cases a with
  | memoryBegin file => exact memoryBegin_rule file
  | bufferCreate q => exact serving_rule (objectCreate_rule q)
  | bufferImport q => exact serving_rule (objectImport_rule q foreign)
  | bufferDestroy q => exact serving_rule (objectDestroy_rule q)
  | transfer q words toObject => exact serving_rule (objectTransfer_rule q words toObject)
  | bufferCopy q => exact serving_rule (objectCopy_rule q)
  | bufferTile q => exact serving_rule (objectTile_rule q)
  | submitCl q => exact serving_rule (objectSubmit_rule q)
  | reset => exact serving_rule (reset_rule stays_serving)
  | interruptCheck => exact serving_rule interruptCheck_rule
  | query => exact query_rule
  | finish =>
    exact session_rule (finish_rule.mono (fun _ hc => ⟨⟨hc.1.1, hc.1.2.1⟩, hc.2⟩) (fun _ _ hc => .inr (.inr hc)) fun _ _ hc => hc)

theorem step_good {c : Context} {a : Ask} (foreign : a.Foreign P) (h : Assert (Good P) c) : Assert (Good P) (step c a) := by
  have ended := serve_rule a foreign (s := c) h
  unfold step
  generalize (serve a).run c = r at ended ⊢
  rcases r with ⟨e | u, c'⟩
  · exact ended
  · exact ended

theorem start_good (world : World) (platform : Platform) (memory : Words) : Assert (Good platform) (start world platform memory) := by
  have none (s : Slot) : (V3d.start world).driver.buffer s = none := by cases s <;> rfl
  have gone {s : Slot} {b : Buffer} {q : Prop} (hb : (V3d.start world).driver.buffer s = some b) : q := by cases (none s).symm.trans hb
  refine .inr (.inr ⟨⟨{
    whole := fun _ _ hb => gone hb
    common := fun _ _ hb => gone hb
    apart := fun _ _ _ _ _ hb => gone hb
    guarded := fun _ ⟨_, _, hb, _⟩ => gone hb
    trap := fun _ _ ⟨_, hb, _⟩ => gone hb
    counters := fun no => Bool.noConfusion no
    fine := fun _ no => absurd no List.not_mem_nil }, rfl, rfl, fun _ => rfl, rfl, rfl⟩, rfl⟩)

theorem run_good (world : World) (platform : Platform) (memory : Words) (asks : List Ask) (h : ∀ a ∈ asks, a.Foreign platform) :
    Assert (Good platform) (run world platform memory asks) :=
  List.foldlRecOn asks step (start_good world platform memory) fun _ hc a ha => step_good (h a ha) hc

end Sessions

end Pi5Drivers.V3d.Paged
