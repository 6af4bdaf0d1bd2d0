import Pi5Drivers.Iommu.Lifetime

/-! The register sequences in any order, over registers that read as they like: what is written where, when
the unit may translate, and what is left of it in the end. -/

namespace Pi5Drivers.Iommu

open Effect Recorded

/-! ### Traces -/

section Traces

variable {unit off : ℕ} {v : BitVec 32} {e : Event} {s t : List Event}

/-- What a register was given last. -/
def lastWrite (unit off : ℕ) : List Event → Option (BitVec 32)
  | [] => none
  | .write u o v :: older => if u = unit ∧ o = off then some v else lastWrite unit off older
  | _ :: older => lastWrite unit off older

/-- What was read from a register first. -/
def firstRead (unit off : ℕ) : List Event → Option (BitVec 32)
  | [] => none
  | .read u o v :: older => (firstRead unit off older).or (if u = unit ∧ o = off then some v else none)
  | _ :: older => firstRead unit off older

/-- The unit was told to translate. -/
def Enabled (s : List Event) : Prop := ∃ v, lastWrite 1 0 s = some v ∧ v &&& 1 ≠ 0

/-- The registers the driver owns: the control and table registers of the unit, and the cache. -/
def Own (unit off : ℕ) : Prop := (unit = 1 ∧ ∃ j : Fin 9, j ≤ 6 ∧ off = offsets j) ∨ (unit = 3 ∧ off = 0)

/-- Nothing else is written. -/
def WritesOwn (s : List Event) : Prop := ∀ u o v, Event.write u o v ∈ s → Own u o

/-- Nothing is written. -/
def Silent (s : List Event) : Prop := ∀ u o v, Event.write u o v ∉ s

/-- What an invalidation does: it reads, and writes the cache and a control register that is off. -/
def Event.Handles : Event → Prop
  | .read .. | .flushed => True
  | .write u o v => u = 3 ∧ o = 0 ∨ u = 1 ∧ o = 0 ∧ v &&& 1 = 0
  | _ => False

theorem firstRead_cons (h : firstRead unit off s = some v) (e : Event) : firstRead unit off (e :: s) = some v := by
  cases e <;> simp only [firstRead, h, Option.some_or]

theorem lastWrite_handles (h : e.Handles) (own : unit = 1 ∧ off ≠ 0) : lastWrite unit off (e :: s) = lastWrite unit off s := by
  cases e with
  | write u o v =>
    refine if_neg fun same => ?_
    rcases h with ⟨cache, -⟩ | ⟨-, control, -⟩
    · omega
    · omega
  | read | flushed => rfl
  | store | allocated | freed | owner | fault => exact h.elim

end Traces

/-- What every sequence keeps, whatever it meets. -/
structure Base (d : Driver) (s : List Event) : Prop where
  own : WritesOwn s
  enabled : Enabled s → d.hw.active = true

/-- Who remembers everything. -/
def tape : Observer Event (List Event) := ⟨[], fun s e => e :: s, fun _ _ => True⟩

abbrev Tells (A : Driver → List Event → Prop) (c : Context) : Prop := Assert tape A c

theorem watch_tape (s : List Event) : tape.watch s = s := by
  induction s with
  | nil => rfl
  | cons e s ih => exact congrArg (e :: ·) ih

theorem inOrder_tape (s : List Event) : tape.InOrder s := by
  induction s with
  | nil => trivial
  | cons e s ih => exact ⟨trivial, ih⟩

theorem tells_iff {A : Driver → List Event → Prop} {c : Context} : Tells A c ↔ A c.state c.trace := by
  rw [Tells, Assert, watch_tape]
  exact and_iff_right (inOrder_tape c.trace)

/-- The fault is latched. -/
abbrev Failed (_ : Result) (c : Context) : Prop := Tells (fun d s => Base d s ∧ d.hw.fault = true) c

/-- A relation that reads keep. -/
def Gentle (A : Driver → List Event → Prop) : Prop := ∀ ⦃d s⦄ u o v, A d s → A d (.read u o v :: s)

/-- A relation that invalidations keep. -/
def Sturdy (A : Driver → List Event → Prop) : Prop := ∀ ⦃d s⦄ e, e.Handles → A d s → A d (e :: s)

section Relations

variable {A B : Driver → List Event → Prop}

theorem Sturdy.gentle (h : Sturdy A) : Gentle A := fun _ _ _ _ _ ha => h _ trivial ha

theorem Sturdy.and (ha : Sturdy A) (hb : Sturdy B) : Sturdy fun d s => A d s ∧ B d s :=
  fun _ _ _ handles h => ⟨ha _ handles h.1, hb _ handles h.2⟩

theorem sturdy_driver (p : Driver → Prop) : Sturdy fun d _ => p d := fun _ _ _ _ h => h

theorem sturdy_base : Sturdy Base := by
  intro d s e handles h
  refine ⟨fun u o v mem => ?_, fun enabled => h.enabled ?_⟩
  · rcases List.mem_cons.mp mem with rfl | mem
    · exact handles.elim (fun cache => .inr cache) fun control => .inl ⟨control.1, 0, by decide, control.2.1⟩
    · exact h.own u o v mem
  · obtain ⟨v, last, on⟩ := enabled
    cases e with
    | write u o w =>
      rcases handles with ⟨rfl, rfl⟩ | ⟨rfl, rfl, off⟩
      · exact ⟨v, last, on⟩
      · cases last
        exact absurd off on
    | read | flushed => exact ⟨v, last, on⟩
    | store | allocated | freed | owner | fault => exact handles.elim

/-- What the registers of the unit were given, other than its control register. -/
theorem sturdy_last {off : ℕ} (h : off ≠ 0) (value : Driver → Option (BitVec 32)) : Sturdy fun d s => lastWrite 1 off s = value d :=
  fun _ _ _ handles same => (lastWrite_handles handles ⟨rfl, h⟩).trans same

end Relations

/-! ### Steps -/

section Steps

variable {A B : Driver → List Event → Prop} {α ε : Type} {E : ε → Context → Prop} {Q : α → Context → Prop} {unit off : ℕ} {v : BitVec 32}

theorem read_tells {B : BitVec 32 → Driver → List Event → Prop} (h : ∀ v d s, A d s → B v d (.read unit off v :: s)) :
    Triple (Tells A) (read unit off) (fun v => Tells (B v)) E :=
  Triple.bind (ask_rule _) fun v => Triple.bind (record_rule (B := B v) _ (fun _ _ _ => trivial) (h v)) fun _ => Triple.pure fun _ hc => hc

theorem read_gentle (gentle : Gentle A) (unit off : ℕ) : Triple (Tells A) (read unit off) (fun _ => Tells A) E :=
  read_tells fun v _ _ ha => gentle unit off v ha

theorem write_tells (h : ∀ d s, A d s → B d (.write unit off v :: s)) : Triple (Tells A) (write unit off v) (fun _ => Tells B) E :=
  record_rule _ (fun _ _ _ => trivial) h

/-- A write as an invalidation does it, and what the register holds then. -/
theorem handle_tells (sturdy : Sturdy A) (handles : (Event.write unit off v).Handles) :
    Triple (Tells A) (write unit off v) (fun _ => Tells fun d s => A d s ∧ lastWrite unit off s = some v) E :=
  write_tells fun _ _ h => ⟨sturdy _ handles h, if_pos ⟨rfl, rfl⟩⟩

theorem setHw_tells (f : Hw → Hw) (h : ∀ d s, A d s → B { d with hw := f d.hw } s) : Triple (Tells A) (setHw f) (fun _ => Tells B) E :=
  change_rule _ h

theorem fault_tells (r : Result) (base : ∀ d s, A d s → Base d s) : Triple (Tells A) (fault r : Mmu α) Q Failed :=
  Triple.bind (setHw_tells (B := fun d s => Base d s ∧ d.hw.fault = true) _ fun d s ha => ⟨⟨(base d s ha).own, (base d s ha).enabled⟩, rfl⟩)
    fun _ => Triple.stop fun _ hc => hc

theorem demand_tells {c : Prop} [Decidable c] (r : Result) (base : ∀ d s, A d s → Base d s) :
    Triple (Tells A) (demand c r) (fun _ => Tells fun d s => c ∧ A d s) Failed :=
  Triple.ite (fun yes => Triple.pure fun _ hc => hc.mono fun _ _ h => ⟨yes, h⟩) fun _ => fault_tells r base

/-- The condition is of no use to the rest of the sequence. -/
theorem demand_base {c : Prop} [Decidable c] (r : Result) (base : ∀ d s, A d s → Base d s) :
    Triple (Tells A) (demand c r) (fun _ => Tells A) Failed :=
  (demand_tells r base).mono (fun _ hc => hc) (fun _ _ hc => hc.mono fun _ _ h => h.2) fun _ _ hc => hc

theorem agree_tells (gentle : Gentle A) (base : ∀ d s, A d s → Base d s) (i : Fin 3) (j : Fin 9) (v : BitVec 32) :
    Triple (Tells A) (agree i j v) (fun _ => Tells A) Failed :=
  Triple.bind (read_gentle gentle _ _) fun _ => demand_base _ base

theorem pollFor_tells (gentle : Gentle A) (base : ∀ d s, A d s → Base d s) (unit : ℕ) (mask : BitVec 32) (n : ℕ) :
    Triple (Tells A) (pollFor unit mask n) (fun _ => Tells A) Failed := by
  induction n with
  | zero => exact fault_tells _ base
  | succ n ih => exact Triple.bind (read_gentle gentle _ _) fun v => Triple.ite (fun _ => pure_rule) fun _ => ih

/-- A condition that the assertion implies. -/
theorem require_tells {c : Prop} [Decidable c] {e : ε} (h : ∀ d s, A d s → c) :
    Triple (Tells A) (require c e : Program ε Unit) (fun _ => Tells A) E :=
  Triple.require (fun _ hc _ => hc) fun _ hc no => absurd (h _ _ hc.2) no

theorem mmuCheck_tells (gentle : Gentle A) (base : ∀ d s, A d s → Base d s) :
    Triple (Tells fun d s => Ready d ∧ A d s) mmuCheck (fun _ => Tells fun d s => Ready d ∧ A d s) Failed := by
  have still : Gentle fun d s => Ready d ∧ A d s := fun _ _ u o v h => ⟨h.1, gentle u o v h.2⟩
  refine look_rule fun d => ?_
  refine Triple.bind (require_tells fun _ _ h => h.1 ▸ h.2.1.1) fun _ => ?_
  refine Triple.bind (require_tells fun _ _ h => h.1 ▸ h.2.1.2.1) fun _ => ?_
  refine Triple.bind ((require_tells fun _ _ h => h.1 ▸ h.2.1.2.2).mono (fun _ hc => hc) (fun _ _ hc => hc.mono fun _ _ h => h.2)
    fun _ _ hc => hc) fun _ => ?_
  have based : ∀ d s, Ready d ∧ A d s → Base d s := fun d s h => base d s h.2
  refine Triple.bind (Triple.each fun i _ => Triple.each fun j _ => agree_tells still based i j _) fun _ => ?_
  exact Triple.bind (read_gentle still _ _) fun _ => demand_base _ based

/-- What a sequence that flushed leaves the two control registers with. -/
def Flushed (d : Driver) (s : List Event) : Prop := lastWrite 1 0 s = some 0 ∧ lastWrite 3 0 s = some d.hw.cache

theorem handles_cache (v : BitVec 32) : (Event.write 3 0 v).Handles := .inl ⟨rfl, rfl⟩

theorem handles_control (off : v &&& 1 = 0) : (Event.write 1 0 v).Handles := .inr ⟨rfl, rfl, off⟩

theorem mmuInvalidate_tells (sturdy : Sturdy A) (base : ∀ d s, A d s → Base d s) :
    Triple (Tells fun d s => Ready d ∧ A d s) mmuInvalidate (fun _ => Tells fun d s => Ready d ∧ A d s ∧ Flushed d s) Failed := by
  refine look_rule fun d => ?_
  let B (d' : Driver) (s : List Event) : Prop := Ready d' ∧ A d' s ∧ d' = d
  have keeps : Sturdy B := (sturdy_driver _).and (sturdy.and (sturdy_driver _))
  have based : ∀ d s, B d s → Base d s := fun d s h => base d s h.2.1
  have cached : Gentle fun d' s => B d' s ∧ lastWrite 3 0 s = some d.hw.cache :=
    fun _ _ u o v h => ⟨keeps.gentle u o v h.1, h.2⟩
  have flushed : Gentle fun d' s => B d' s ∧ Flushed d s := fun _ _ u o v h => ⟨keeps.gentle u o v h.1, h.2⟩
  refine Triple.bind ((mmuCheck_tells keeps.gentle based).mono (fun _ hc => hc.mono fun _ _ h => ⟨h.2.1, h.2.1, h.2.2, h.1⟩)
    (fun _ _ hc => hc.mono fun _ _ h => h.2) fun _ _ hc => hc) fun _ => ?_
  refine Triple.bind ((handle_tells keeps (handles_cache _)).mono (fun _ hc => hc) (fun _ _ hc => hc.mono fun _ _ h => h.1)
    fun _ _ hc => hc) fun _ => ?_
  refine Triple.bind (pollFor_tells keeps.gentle based _ _ _) fun _ => ?_
  refine Triple.bind (handle_tells keeps (handles_cache _)) fun _ => ?_
  refine Triple.bind (write_tells (B := fun d' s => B d' s ∧ lastWrite 3 0 s = some d.hw.cache)
    fun _ _ h => ⟨keeps _ (handles_control (by decide)) h.1, h.2⟩) fun _ => ?_
  refine Triple.bind (pollFor_tells cached (fun d s h => based d s h.1) _ _ _) fun _ => ?_
  refine Triple.bind (write_tells (B := fun d' s => Ready d' ∧ B d' s ∧ Flushed d s)
    fun _ _ h => ⟨h.1.1, keeps _ (handles_control (by decide)) h.1, rfl, h.2⟩) fun _ => ?_
  refine Triple.bind (mmuCheck_tells flushed fun d s h => based d s h.1) fun _ => ?_
  refine record_rule _ (fun _ _ _ => trivial) ?_
  rintro d' s ⟨ready, ⟨-, ha, rfl⟩, done⟩
  exact ⟨ready, sturdy _ trivial ha, done⟩

end Steps

/-! ### Staging -/

section Staging

variable {d : Driver} {s older : List Event}

/-- The relation holds of what happened since. -/
def Since (older : List Event) (A : Driver → List Event → Prop) (d : Driver) (s : List Event) : Prop :=
  ∃ new, s = new ++ older ∧ A d new

theorem Sturdy.since {A : Driver → List Event → Prop} (h : Sturdy A) : Sturdy (Since older A) := by
  rintro d _ e handles ⟨new, rfl, ha⟩
  exact ⟨e :: new, rfl, h e handles ha⟩

/-- The registers that were read are saved, and the others were not read. -/
def Saved (pending : Fin 3 → Fin 9 → Prop) (d : Driver) (s : List Event) : Prop :=
  ∀ i j, (pending i j → firstRead i (offsets j) s = none) ∧ (¬pending i j → firstRead i (offsets j) s = some (d.hw.baseline i j))

def Hw.save (h : Hw) (i : Fin 3) (j : Fin 9) (v : BitVec 32) : Hw :=
  { h with baseline := Function.update h.baseline i (Function.update (h.baseline i) j v) }

theorem save_baseline_other {h : Hw} {i i' : Fin 3} {j j' : Fin 9} (ne : ¬(i' = i ∧ j' = j)) (v : BitVec 32) :
    (h.save i j v).baseline i' j' = h.baseline i' j' := by
  by_cases same : i' = i
  · subst same
    have : j' ≠ j := fun eq => ne ⟨rfl, eq⟩
    simp [Hw.save, this]
  · simp [Hw.save, same]

theorem save_baseline_self {h : Hw} {i : Fin 3} {j : Fin 9} (v : BitVec 32) : (h.save i j v).baseline i j = v := by
  simp [Hw.save]

theorem firstRead_other {unit off u o : ℕ} {v : BitVec 32} (h : ¬(u = unit ∧ o = off)) :
    firstRead unit off (.read u o v :: s) = firstRead unit off s := by
  simp only [firstRead, if_neg h, Option.or_none]

theorem firstRead_self {unit off : ℕ} {v : BitVec 32} (h : firstRead unit off s = none) :
    firstRead unit off (.read unit off v :: s) = some v := by
  simp [firstRead, h]

theorem Saved.read {pending : Fin 3 → Fin 9 → Prop} {i : Fin 3} {j : Fin 9} (h : Saved pending d s) (now : pending i j) (v : BitVec 32) :
    Saved (fun i' j' => pending i' j' ∧ ¬(i' = i ∧ j' = j)) { d with hw := d.hw.save i j v } (.read i (offsets j) v :: s) := by
  intro i' j'
  by_cases same : i' = i ∧ j' = j
  · obtain ⟨rfl, rfl⟩ := same
    refine ⟨fun still => absurd ⟨rfl, rfl⟩ still.2, fun _ => ?_⟩
    rw [firstRead_self ((h i' j').1 now), save_baseline_self]
  · have apart : ¬((i : ℕ) = i' ∧ offsets j = offsets j') :=
      fun eq => same ⟨(Fin.ext eq.1).symm, (offsets_injective eq.2).symm⟩
    rw [firstRead_other apart, save_baseline_other same]
    exact ⟨fun still => (h i' j').1 still.1, fun gone => (h i' j').2 fun still => gone ⟨still, same⟩⟩

/-- What a staging that succeeded has read. -/
def Begun (s : List Event) (d : Driver) : Prop :=
  (∀ (i : Fin 3) (j : Fin 9), firstRead i (offsets j) s = some (d.hw.baseline i j)) ∧ firstRead 3 0 s = some d.hw.cache ∧ ∀ i, d.hw.baseline i 0 = 0

theorem sturdy_begun : Sturdy fun d s => Begun s d :=
  fun _ _ e _ h => ⟨fun i j => firstRead_cons (h.1 i j) e, firstRead_cons h.2.1 e, h.2.2⟩

/-- The units that are still to be saved were not read, and the others were off. -/
def SavedTo (l : List (Fin 3)) (d : Driver) (s : List Event) : Prop :=
  Saved (fun i _ => i ∈ l) d s ∧ firstRead 3 0 s = none ∧ ∀ i, i ∉ l → d.hw.baseline i 0 = 0

/-- While a unit is saved. -/
def Saving (i : Fin 3) (l : List (Fin 3)) (m : List (Fin 9)) (d : Driver) (s : List Event) : Prop :=
  Saved (fun i' j => i' ∈ l ∨ i' = i ∧ j ∈ m) d s ∧ firstRead 3 0 s = none ∧ ∀ i', i' ∉ i :: l → d.hw.baseline i' 0 = 0

theorem Saved.congr {p q : Fin 3 → Fin 9 → Prop} (h : Saved p d s) (same : ∀ i j, q i j ↔ p i j) : Saved q d s :=
  fun i j => ⟨fun yes => (h i j).1 ((same i j).mp yes), fun no => (h i j).2 fun yes => no ((same i j).mpr yes)⟩

theorem Saving.read {i : Fin 3} {l : List (Fin 3)} {j : Fin 9} {m : List (Fin 9)} (h : Saving i l (j :: m) d s) (later : i ∉ l)
    (once : j ∉ m) (v : BitVec 32) : Saving i l m { d with hw := d.hw.save i j v } (.read i (offsets j) v :: s) := by
  have unit : ¬((i : ℕ) = 3 ∧ offsets j = 0) := fun eq => absurd i.isLt (by omega)
  refine ⟨(h.1.read (.inr ⟨rfl, List.mem_cons_self⟩) v).congr fun i' j' => ?_, (firstRead_other unit).trans h.2.1, fun i' other => ?_⟩
  · by_cases same : i' = i
    · subst same
      simp only [later, List.mem_cons, true_and, false_or]
      refine ⟨fun mem => ⟨.inr mem, fun eq => once (eq ▸ mem)⟩, fun still => still.1.resolve_left still.2⟩
    · simp [same]
  · have : i' ≠ i := fun eq => other (eq ▸ List.mem_cons_self)
    exact (save_baseline_other (fun eq => this eq.1) v).trans (h.2.2 i' other)

/-- What is so before a session is staged. -/
def Before (older : List Event) (A : Driver → List Event → Prop) (d : Driver) (s : List Event) : Prop :=
  Base d s ∧ Unstaged d ∧ Since older A d s

/-- A staging that stops without a fault. -/
def Declined (d : Driver) (s : List Event) : Prop := Base d s ∧ Unstaged d

theorem saveRegister_tells {i : Fin 3} {l : List (Fin 3)} (later : i ∉ l) {ε : Type} {E : ε → Context → Prop} (j : Fin 9) (m : List (Fin 9)) :
    Triple (Tells fun d s => (j :: m).Nodup ∧ Before older (Saving i l (j :: m)) d s)
      (do
        let v ← Iommu.read i (offsets j)
        setHw fun h => h.save i j v : Program ε Unit)
      (fun _ => Tells fun d s => m.Nodup ∧ Before older (Saving i l m) d s) E := by
  refine Triple.bind (read_tells (B := fun v d s => m.Nodup ∧ Before older (Saving i l m) { d with hw := d.hw.save i j v } s) ?_)
    fun v => setHw_tells _ fun _ _ h => h
  rintro v d _ ⟨nodup, base, idle, new, rfl, saving⟩
  have still := sturdy_base (.read i (offsets j) v) trivial base
  exact ⟨nodup.of_cons, ⟨still.own, still.enabled⟩, idle, _, rfl, saving.read later (List.nodup_cons.mp nodup).1 v⟩

theorem saveUnit_tells {i : Fin 3} {l : List (Fin 3)} (later : i ∉ l) :
    Triple (Tells (Before older (SavedTo (i :: l)))) (saveUnit i) (fun _ => Tells (Before older (SavedTo l))) fun _ => Tells Declined := by
  refine Triple.bind (Q := fun _ => Tells (Before older (Saving i l []))) ?_ fun _ => look_rule fun d => ?_
  · refine (Triple.each_rest (I := fun m => Tells fun d s => m.Nodup ∧ Before older (Saving i l m) d s)
      (saveRegister_tells later) (List.finRange 9)).mono (fun _ hc => hc.mono ?_) (fun _ _ hc => hc.mono fun _ _ h => h.2)
      fun _ _ hc => hc
    rintro d _ ⟨base, idle, new, rfl, saved, cache, off⟩
    refine ⟨List.nodup_finRange 9, base, idle, new, rfl, saved.congr fun i' j => ?_, cache, off⟩
    simp [or_comm]
  · refine Triple.require (fun c hc off => hc.mono ?_) fun c hc _ => hc.mono fun _ _ h => ⟨h.2.1, h.2.2.1⟩
    rintro _ _ ⟨rfl, base, idle, new, rfl, saved, cache, rest⟩
    refine ⟨base, idle, new, rfl, saved.congr (by simp), cache, fun i' other => ?_⟩
    by_cases same : i' = i
    · exact same ▸ off
    · exact rest i' (by simp [same, other])

/-- A table register is written. -/
theorem Base.install {j : Fin 9} (h : Base d s) (table : j ∈ tableRegisters) (v : BitVec 32) : Base d (.write 1 (offsets j) v :: s) := by
  have own : j ≤ 6 ∧ offsets j ≠ 0 := by
    revert j
    decide
  refine ⟨fun u o w mem => ?_, fun ⟨w, last, on⟩ => h.enabled ⟨w, ?_, on⟩⟩
  · rcases List.mem_cons.mp mem with eq | mem
    · cases eq
      exact .inl ⟨rfl, j, own.1, rfl⟩
    · exact h.own u o w mem
  · rwa [lastWrite, if_neg fun eq => own.2 eq.2] at last

/-- A session that is staged on what was found. -/
def Staged (older : List Event) (d : Driver) (s : List Event) : Prop :=
  Base d s ∧ Since older (fun d s => Begun s d) d s

theorem sturdy_staged : Sturdy (Staged older) := sturdy_base.and sturdy_begun.since

/-- Where a staging may stop. -/
abbrev Unbegun (_ : Result) (c : Context) : Prop := Tells (fun d s => Base d s ∧ (d.hw.fault = true ∨ Unstaged d)) c

theorem install_tells {j : Fin 9} (table : j ∈ tableRegisters) {E : Result → Context → Prop} :
    Triple (Tells fun d s => Ready d ∧ Staged older d s) (install j) (fun _ => Tells fun d s => Ready d ∧ Staged older d s) E := by
  refine glance_rule fun _ => write_tells ?_
  rintro d _ ⟨ready, base, new, rfl, begun⟩
  exact ⟨ready, base.install table _, _, rfl, fun i j => firstRead_cons (begun.1 i j) _, firstRead_cons begun.2.1 _, begun.2.2⟩

/-- A refusal before the unit is staged. -/
theorem refuse_tells {A : Driver → List Event → Prop} {c : Prop} [Decidable c] {r : Result} (idle : ∀ d s, A d s → Declined d s) :
    Triple (Tells A) (require c r) (fun _ => Tells A) Unbegun :=
  Triple.require (fun _ hc _ => hc) fun _ hc _ => hc.mono fun _ _ h => ⟨(idle _ _ h).1, .inr (idle _ _ h).2⟩

theorem mem_units (i : Fin 3) : i ∈ [0, 1, 2] := by
  revert i
  decide

theorem mmuBegin_tells (table trap : ℕ) :
    Triple (Tells fun d s => Base d s ∧ Unstaged d ∧ s = older) (mmuBegin table trap)
      (fun _ => Tells fun d s => Ready d ∧ Staged older d s) Unbegun := by
  have refused : ∀ e (c : Context), Tells Declined c → Unbegun e c := fun _ _ hc => hc.mono fun _ _ h => ⟨h.1, .inr h.2⟩
  have failed : ∀ e (c : Context), Failed e c → Unbegun e c := fun _ _ hc => hc.mono fun _ _ h => ⟨h.1, .inl h.2⟩
  refine look_rule fun d => ?_
  refine Triple.bind (require_tells fun _ _ h => h.1 ▸ ⟨h.2.2.1.2.1, h.2.2.1.1⟩) fun _ => ?_
  refine Triple.bind (Q := fun _ => Tells (Before older (SavedTo [0, 1, 2]))) ((refuse_tells fun _ _ h => ⟨h.2.1, h.2.2.1⟩).mono
    (fun _ hc => hc) (fun _ _ hc => hc.mono ?_) fun _ _ hc => hc) fun _ => ?_
  · rintro _ _ ⟨-, base, idle, rfl⟩
    exact ⟨base, idle, [], rfl, fun i _ => ⟨fun _ => rfl, fun no => absurd (mem_units i) no⟩, rfl, fun i no => absurd (mem_units i) no⟩
  refine Triple.bind (Q := fun _ => Tells (Before older (SavedTo []))) ?_ fun _ => glance_rule fun d => ?_
  · refine (Triple.bind (saveUnit_tells (by decide)) fun _ => Triple.bind (saveUnit_tells (by decide)) fun _ =>
      Triple.bind (saveUnit_tells (by decide)) fun _ => pure_rule).mono (fun _ hc => hc) (fun _ _ hc => hc) refused
  refine Triple.bind (refuse_tells fun _ _ h => ⟨h.1, h.2.1⟩) fun _ => ?_
  refine Triple.bind (read_tells (B := fun v d s => Base d s ∧ Unstaged d ∧
    Since older (fun d s => Begun s { d with hw := { d.hw with cache := v } }) d s) ?_) fun v => ?_
  · rintro v d _ ⟨base, idle, new, rfl, saved, unread, off⟩
    refine ⟨sturdy_base (.read 3 0 v) trivial base, idle, _, rfl, fun i j => ?_, firstRead_self unread, fun i => off i List.not_mem_nil⟩
    exact firstRead_cons ((saved i j).2 List.not_mem_nil) _
  refine Triple.bind (setHw_tells (B := fun d s => Base d s ∧ Unstaged d ∧ Since older (fun d s => Begun s d) d s) _
    fun d s h => ⟨⟨h.1.own, h.1.enabled⟩, h.2⟩) fun _ => ?_
  refine Triple.bind (refuse_tells fun _ _ h => ⟨h.1, h.2.1⟩) fun _ => ?_
  refine Triple.bind (setHw_tells (B := fun d s => Ready d ∧ Staged older d s) _
    fun d s h => ⟨⟨h.2.1.1, rfl, h.2.1.2.2⟩, ⟨h.1.own, h.1.enabled⟩, h.2.2⟩) fun _ => ?_
  refine Triple.bind (Triple.mapError ((mmuCheck_tells sturdy_staged.gentle fun _ _ h => h.1).mono (fun _ hc => hc)
    (fun _ _ hc => hc) fun _ => failed .drift)) fun _ => ?_
  refine Triple.bind (setHw_tells (B := fun d s => Ready d ∧ Staged older d s) _
    fun d s h => ⟨h.1, ⟨h.2.1.own, h.2.1.enabled⟩, h.2.2⟩) fun _ => ?_
  refine Triple.bind (Triple.each fun j table => install_tells table) fun _ => ?_
  exact (mmuInvalidate_tells sturdy_staged fun _ _ h => h.1).mono (fun _ hc => hc)
    (fun _ _ hc => hc.mono fun _ _ h => ⟨h.1, h.2.1⟩) failed

end Staging

/-! ### A staged session -/

section Session

variable {d : Driver} {s begun : List Event}

/-- What was found when the session was staged is still known. -/
def Session (begun : List Event) (d : Driver) (s : List Event) : Prop := Base d s ∧ Begun begun d

theorem sturdy_session : Sturdy (Session begun) := sturdy_base.and (sturdy_driver _)

/-- The unit may translate. -/
def On (d : Driver) : Prop := d.hw.fault = false ∧ d.hw.staged = true ∧ d.hw.active = true

theorem Base.control (h : Base d s) (on : d.hw.active = true) (v : BitVec 32) : Base d (.write 1 0 v :: s) := by
  refine ⟨fun u o w mem => ?_, fun _ => on⟩
  rcases List.mem_cons.mp mem with eq | mem
  · cases eq
    exact .inl ⟨rfl, 0, by decide, rfl⟩
  · exact h.own u o w mem

theorem Base.off (base : Base d s) (h : lastWrite 1 0 s = some 0) (d' : Driver) : Base d' s := by
  refine ⟨base.own, fun ⟨v, last, on⟩ => ?_⟩
  cases h.symm.trans last
  exact absurd rfl on

theorem mmuActivate_tells : Triple (Tells fun d s => Ready d ∧ Session begun d s) mmuActivate
    (fun _ => Tells fun d s => On d ∧ Session begun d s) Failed := by
  have on : Sturdy fun d s => On d ∧ Session begun d s := (sturdy_driver _).and sturdy_session
  have base : ∀ d s, On d ∧ Session begun d s → Base d s := fun _ _ h => h.2.1
  refine Triple.bind ((mmuInvalidate_tells sturdy_session fun _ _ h => h.1).mono (fun _ hc => hc)
    (fun _ _ hc => hc.mono (B := fun d s => Ready d ∧ Session begun d s) fun _ _ h => ⟨h.1, h.2.1⟩) fun _ _ hc => hc) fun _ => ?_
  refine glance_rule fun d => ?_
  refine Triple.bind (write_tells (B := fun d s => Ready d ∧ Session begun d s)
    fun _ _ h => ⟨h.1, sturdy_session _ (handles_cache _) h.2⟩) fun _ => ?_
  refine Triple.bind (setHw_tells (B := fun d s => On d ∧ Session begun d s) _
    fun _ _ h => ⟨⟨h.1.1, h.1.2.1, rfl⟩, ⟨h.2.1.own, fun _ => rfl⟩, h.2.2⟩) fun _ => ?_
  refine Triple.bind (write_tells (B := fun d s => On d ∧ Session begun d s)
    fun _ _ h => ⟨h.1, h.2.1.control h.1.2.2 _, h.2.2⟩) fun _ => ?_
  refine Triple.bind (read_gentle on.gentle _ _) fun _ => Triple.bind (demand_base _ base) fun _ => ?_
  exact Triple.bind (read_gentle on.gentle _ _) fun _ => demand_base _ base

theorem snapFaults_tells {A : Driver → List Event → Prop} {B : Driver → List Event → Prop} {E : Result → Context → Prop} (gentle : Gentle A)
    (h : ∀ d s flags violation hits misses stalls, A d s → B { d with hw := { d.hw with
      faultFlags := flags, violationAddress := violation, hits := hits, misses := misses, stalls := stalls } } s) :
    Triple (Tells A) snapFaults (fun _ => Tells B) E := by
  refine Triple.bind (read_gentle gentle _ _) fun _ => Triple.bind (read_gentle gentle _ _) fun _ => ?_
  refine Triple.bind (read_gentle gentle _ _) fun _ => Triple.bind (read_gentle gentle _ _) fun _ => ?_
  exact Triple.bind (read_gentle gentle _ _) fun _ => setHw_tells _ fun d s ha => h d s _ _ _ _ _ ha

theorem mmuDeactivate_tells (quiesced : Bool) : Triple (Tells fun d s => On d ∧ Session begun d s) (mmuDeactivate quiesced)
    (fun _ => Tells fun d s => Ready d ∧ Session begun d s) Failed := by
  have on : Sturdy fun d s => On d ∧ Session begun d s := (sturdy_driver _).and sturdy_session
  have ready : Sturdy fun d s => Ready d ∧ Session begun d s := (sturdy_driver _).and sturdy_session
  have off : Gentle fun d s => (On d ∧ Session begun d s) ∧ lastWrite 1 0 s = some 0 :=
    fun _ _ u o v h => ⟨on.gentle u o v h.1, h.2⟩
  have base : ∀ d s, On d ∧ Session begun d s → Base d s := fun _ _ h => h.2.1
  refine look_rule fun d => ?_
  refine Triple.bind ((require_tells fun _ _ h => h.1 ▸ h.2.1.2.2).mono (fun _ hc => hc)
    (fun _ _ hc => hc.mono fun _ _ h => h.2) fun _ _ hc => hc) fun _ => ?_
  refine Triple.bind (snapFaults_tells (B := fun d s => On d ∧ Session begun d s) on.gentle
    fun _ _ _ _ _ _ _ h => ⟨h.1, ⟨h.2.1.own, h.2.1.enabled⟩, h.2.2⟩) fun _ => ?_
  refine Triple.bind (demand_base _ base) fun _ => look_rule fun d => ?_
  refine Triple.bind ((require_tells fun _ _ h => h.1 ▸ h.2.1.1).mono (fun _ hc => hc) (fun _ _ hc => hc.mono fun _ _ h => h.2)
    fun _ _ hc => hc) fun _ => ?_
  refine Triple.bind (read_gentle on.gentle _ _) fun _ => Triple.bind (demand_base _ base) fun _ => ?_
  refine Triple.bind (read_gentle on.gentle _ _) fun _ => Triple.bind (demand_base _ base) fun _ => ?_
  refine Triple.bind (Triple.each fun i _ => Triple.each fun j _ => Triple.when (fun _ => agree_tells on.gentle base i j _)
    fun _ hc _ => hc) fun _ => ?_
  refine Triple.bind (handle_tells on (handles_control (by decide))) fun _ => ?_
  refine Triple.bind (read_gentle off _ _) fun _ => Triple.bind (demand_base _ fun _ _ h => base _ _ h.1) fun _ => ?_
  refine Triple.bind (setHw_tells (B := fun d s => Ready d ∧ Session begun d s) _
    fun d s h => ⟨⟨h.1.1.1, h.1.1.2.1, rfl⟩, h.1.2.1.off h.2 _, h.1.2.2⟩) fun _ => ?_
  refine Triple.bind (write_tells (B := fun d s => Ready d ∧ Session begun d s)
    fun _ _ h => ⟨h.1, sturdy_session _ (handles_cache _) h.2⟩) fun _ => ?_
  refine Triple.bind (read_gentle ready.gentle _ _) fun _ => Triple.bind (demand_base _ fun _ _ h => h.2.1) fun _ => ?_
  refine Triple.bind (demand_base _ fun _ _ h => h.2.1) fun _ => ?_
  exact (mmuInvalidate_tells sturdy_session fun _ _ h => h.1).mono (fun _ hc => hc)
    (fun _ _ hc => hc.mono fun _ _ h => ⟨h.1, h.2.1⟩) fun _ _ hc => hc

/-! ### Giving the unit back -/

theorem lastWrite_mem {unit off : ℕ} {v : BitVec 32} (h : lastWrite unit off s = some v) : Event.write unit off v ∈ s := by
  induction s with
  | nil => cases h
  | cons e s ih =>
    cases e with
    | write u o w =>
      simp only [lastWrite] at h
      split at h
      case isTrue same =>
        cases h
        rw [same.1, same.2]
        exact List.mem_cons_self
      case isFalse => exact List.mem_cons_of_mem _ (ih h)
    | read | store | flushed | allocated | freed | owner | fault => exact List.mem_cons_of_mem _ (ih h)

theorem lastWrite_other {unit off u o : ℕ} {v : BitVec 32} (h : ¬(u = unit ∧ o = off)) :
    lastWrite unit off (.write u o v :: s) = lastWrite unit off s := if_neg h

theorem lastWrite_self {unit off : ℕ} {v : BitVec 32} : lastWrite unit off (.write unit off v :: s) = some v := if_pos ⟨rfl, rfl⟩

/-- The registers are as they were found: no saved register was given anything else last, the table registers
and the cache were given what they were found with, and the unit was found and left off. -/
structure Restored (begun s : List Event) : Prop where
  saved : ∀ (i : Fin 3) (j : Fin 9) v, lastWrite i (offsets j) s = some v → firstRead i (offsets j) begun = some v
  table : ∀ j ∈ tableRegisters, ∃ v, firstRead 1 (offsets j) begun = some v ∧ lastWrite 1 (offsets j) s = some v
  control : firstRead 1 0 begun = some 0 ∧ lastWrite 1 0 s = some 0
  cache : ∃ v, firstRead 3 0 begun = some v ∧ lastWrite 3 0 s = some v

/-- The table registers, but those that are still to come, have what they were found with. -/
def Back (l : List (Fin 9)) (d : Driver) (s : List Event) : Prop :=
  ∀ j ∈ tableRegisters, j ∉ l → lastWrite 1 (offsets j) s = some (d.hw.baseline 1 j)

theorem table_offset {j : Fin 9} (table : j ∈ tableRegisters) : offsets j ≠ 0 := by
  revert j
  decide

theorem sturdy_back : Sturdy (Back []) :=
  fun _ _ _ handles back j table last => (lastWrite_handles handles ⟨rfl, table_offset table⟩).trans (back j table last)

theorem Back.write {j : Fin 9} {l : List (Fin 9)} (h : Back (j :: l) d s) :
    Back l d (.write 1 (offsets j) (d.hw.baseline 1 j) :: s) := by
  intro k table last
  by_cases same : k = j
  · exact same ▸ lastWrite_self
  · rw [lastWrite_other fun eq => same (offsets_injective eq.2).symm]
    exact h k table (by simp [same, last])

theorem register_cases (j : Fin 9) (h : j ≤ 6) : j = 0 ∨ j ∈ tableRegisters := by
  revert j
  decide

theorem restored (session : Session begun d s) (back : Back [] d s) (flushed : Flushed d s) : Restored begun s where
  saved i j v last := by
    rcases session.1.own _ _ _ (lastWrite_mem last) with ⟨unit, k, known, eq⟩ | ⟨unit, -⟩
    · obtain rfl := offsets_injective eq
      have unit : i = 1 := Fin.ext unit
      subst unit
      rw [session.2.1 1 j, ← last]
      rcases register_cases j known with rfl | table
      · exact (congrArg some (session.2.2.2 1)).trans flushed.1.symm
      · exact (back j table List.not_mem_nil).symm
    · exact absurd i.isLt (by omega)
  table j table := ⟨_, session.2.1 1 j, back j table List.not_mem_nil⟩
  control := ⟨(session.2.1 1 0).trans (congrArg some (session.2.2.2 1)), flushed.1⟩
  cache := ⟨_, session.2.2.1, flushed.2⟩

theorem restore_tells {E : Result → Context → Prop} (j : Fin 9) (l : List (Fin 9)) :
    Triple (Tells fun d s => j :: l ⊆ tableRegisters ∧ Ready d ∧ Session begun d s ∧ Back (j :: l) d s) (restore j)
      (fun _ => Tells fun d s => l ⊆ tableRegisters ∧ Ready d ∧ Session begun d s ∧ Back l d s) E := by
  refine Triple.bind (setHw_tells (B := fun d s => d.hw.expected j = d.hw.baseline 1 j ∧
    j :: l ⊆ tableRegisters ∧ Ready d ∧ Session begun d s ∧ Back (j :: l) d s) _ ?_) fun _ => look_rule fun d => write_tells ?_
  · rintro d s ⟨table, ready, session, back⟩
    exact ⟨Function.update_self .., table, ready, ⟨⟨session.1.own, session.1.enabled⟩, session.2⟩, back⟩
  · rintro _ s ⟨rfl, same, table, ready, session, back⟩
    rw [same]
    exact ⟨fun _ mem => table (List.mem_cons_of_mem _ mem), ready, ⟨session.1.install (table List.mem_cons_self) _, session.2⟩, back.write⟩

theorem mmuEnd_tells : Triple (Tells fun d s => Ready d ∧ Session begun d s) mmuEnd
    (fun _ => Tells fun d s => Unstaged d ∧ Base d s ∧ Restored begun s) Failed := by
  refine Triple.bind ((mmuInvalidate_tells sturdy_session fun _ _ h => h.1).mono (fun _ hc => hc)
    (fun _ _ hc => hc.mono (B := fun d s => tableRegisters ⊆ tableRegisters ∧ Ready d ∧ Session begun d s ∧ Back tableRegisters d s)
      fun _ _ h => ⟨fun _ mem => mem, h.1, h.2.1, fun _ table last => absurd table last⟩) fun _ _ hc => hc) fun _ => ?_
  refine Triple.bind (Triple.each_rest (I := fun l => Tells fun d s => l ⊆ tableRegisters ∧ Ready d ∧ Session begun d s ∧ Back l d s)
    restore_tells tableRegisters) fun _ => ?_
  have last := mmuInvalidate_tells ((sturdy_session : Sturdy (Session begun)).and sturdy_back) fun _ _ h => h.1.1
  refine Triple.bind (last.mono (fun _ hc => hc.mono fun _ _ h => ⟨h.2.1, h.2.2⟩) (fun _ _ hc => hc) fun _ _ hc => hc) fun _ => ?_
  refine setHw_tells _ ?_
  rintro d s ⟨ready, ⟨session, back⟩, flushed⟩
  exact ⟨⟨ready.1, rfl, ready.2.2⟩, ⟨session.1.own, session.1.enabled⟩, restored session back flushed⟩

end Session

/-! ### Refusals -/

section Refusals

variable {c : Context} {older : List Event} {Q : Unit → Context → Prop}

/-- Declined, and nothing happened. -/
abbrev Nothing (c : Context) (x : Mmu Unit) : Prop := Triple (· = c) x (fun _ _ => False) fun _ c' => c' = c

theorem Nothing.bind {α : Type} {x : Mmu Unit} {f : Unit → Mmu α} {R : α → Context → Prop} (h : Nothing c x) :
    Triple (· = c) (x >>= f) R fun _ c' => c' = c :=
  Triple.bind h fun _ _ no => no.elim

theorem mmuCheck_refuses (h : ¬Ready c.state) : Nothing c mmuCheck := by
  have told {p : Prop} [Decidable p] {e : Result} :
      Triple (· = c) (require p e) (fun _ c' => p ∧ c' = c) fun _ c' => c' = c :=
    Triple.require (fun _ hc yes => ⟨yes, hc⟩) fun _ hc _ => hc
  refine look_bind ?_
  rintro _ rfl
  refine Triple.bind told fun _ => Triple.assume fun fault => ?_
  refine Triple.bind told fun _ => Triple.assume fun staged => ?_
  refine Triple.bind told fun _ => Triple.assume fun active => ?_
  exact absurd ⟨fault, staged, active⟩ h

theorem mmuInvalidate_refuses (h : ¬Ready c.state) : Nothing c mmuInvalidate := by
  refine look_bind ?_
  rintro _ rfl
  exact (mmuCheck_refuses h).bind

theorem mmuActivate_refuses (h : ¬Ready c.state) : Nothing c mmuActivate := (mmuInvalidate_refuses h).bind

theorem mmuEnd_refuses (h : ¬Ready c.state) : Nothing c mmuEnd := (mmuInvalidate_refuses h).bind

theorem mmuBegin_refuses {table trap : ℕ} (h : ¬(c.state.hw.staged = false ∧ c.state.hw.fault = false)) :
    Nothing c (mmuBegin table trap) := by
  refine look_bind ?_
  rintro _ rfl
  exact Nothing.bind (Triple.require (fun _ _ yes => h yes) fun _ hc _ => hc)

theorem mmuDeactivate_refuses {quiesced : Bool} (h : c.state.hw.active = false) : Nothing c (mmuDeactivate quiesced) := by
  refine look_bind ?_
  rintro _ rfl
  exact Nothing.bind (Triple.require (fun _ _ yes => by simp [h] at yes) fun _ hc _ => hc)

/-- The fault stays latched, and nothing is written. -/
def Stuck (older : List Event) (d : Driver) (s : List Event) : Prop :=
  Base d s ∧ d.hw.fault = true ∧ Since older (fun _ new => Silent new) d s

theorem stuck_gentle : Gentle (Stuck older) := by
  rintro d _ u o v ⟨base, fault, new, rfl, silent⟩
  refine ⟨sturdy_base (.read u o v) trivial base, fault, .read u o v :: new, rfl, fun u' o' v' mem => ?_⟩
  rcases List.mem_cons.mp mem with eq | mem
  · cases eq
  · exact silent u' o' v' mem

/-- What a unit is asked that has a fault and is on. -/
theorem mmuDeactivate_stuck (quiesced : Bool) :
    Triple (Tells (Stuck older)) (mmuDeactivate quiesced) (fun _ _ => False) fun _ => Tells (Stuck older) := by
  refine glance_rule fun d => ?_
  refine Triple.bind (Triple.require (Q := fun _ => Tells (Stuck older)) (fun _ hc _ => hc) fun _ hc _ => hc) fun _ => ?_
  refine Triple.bind (snapFaults_tells (B := Stuck older) stuck_gentle fun _ _ _ _ _ _ _ h => ⟨⟨h.1.own, h.1.enabled⟩, h.2⟩) fun _ => ?_
  refine Triple.bind (Q := fun _ => Tells (Stuck older)) (Triple.ite (fun _ => pure_rule) fun _ => ?_) fun _ => look_rule fun d => ?_
  · exact Triple.bind (setHw_tells (B := Stuck older) _ fun _ _ h => ⟨⟨h.1.own, h.1.enabled⟩, rfl, h.2.2⟩) fun _ =>
      Triple.stop fun _ hc => hc
  · refine Triple.bind (Triple.require (Q := fun _ _ => False) (fun _ hc fine => ?_) fun _ hc _ => hc.mono fun _ _ h => h.2)
      fun _ _ no => no.elim
    have : d.hw.fault = true := hc.2.1 ▸ hc.2.2.2.1
    simp [this] at fine

end Refusals

/-! ### Runs -/

/-- The calls of the sequences, in the order of the owner. -/
inductive HwCall
  | begin (table trap : ℕ)
  | activate
  | invalidate
  | deactivate (quiesced : Bool)
  | finish
deriving DecidableEq

def HwCall.serve : HwCall → Mmu Unit
  | .begin table trap => mmuBegin table trap
  | .activate => mmuActivate
  | .invalidate => mmuInvalidate
  | .deactivate quiesced => mmuDeactivate quiesced
  | .finish => mmuEnd

/-- What an owner of the unit has seen: its calls, whether an activation succeeded since the last call to
deactivate, and what happened in the last staging that succeeded. -/
structure History where
  context : Context
  serving : Bool
  begun : List Event

namespace History

def servingAfter (serving : Bool) : HwCall → Except Result Unit → Bool
  | .activate, .ok _ => true
  | .deactivate _, _ => false
  | _, _ => serving

def begunAfter (begun new : List Event) : HwCall → Except Result Unit → List Event
  | .begin .., .ok _ => new
  | _, _ => begun

/-- The events of a call that left the trace `s`. -/
def since (h : History) (s : List Event) : List Event := s.take (s.length - h.context.trace.length)

def next (h : History) (call : HwCall) : History :=
  let served := call.serve.run h.context
  ⟨served.2, servingAfter h.serving call served.1, begunAfter h.begun (h.since served.2.trace) call served.1⟩

def answer (h : History) (call : HwCall) : Except Result Unit := (call.serve.run h.context).1

def run (world : World) (calls : List HwCall) : History := calls.foldl next ⟨start world, false, []⟩

theorem since_append (h : History) (new : List Event) : h.since (new ++ h.context.trace) = new := by
  simp [since]

/-- The phases of a unit without a fault. -/
def Phase (d : Driver) (serving : Bool) (begun : List Event) : Prop :=
  (Unstaged d ∧ serving = false) ∨ (Ready d ∧ Begun begun d ∧ serving = false) ∨ (On d ∧ Begun begun d ∧ serving = true)

/-- What holds between the calls. -/
structure Sound (h : History) : Prop where
  base : Base h.context.state h.context.trace
  phase : h.context.state.hw.fault = true ∨ Phase h.context.state h.serving h.begun

section Steps

variable {h : History} {call : HwCall}

/-- A call that was refused leaves everything as it was. -/
theorem next_refused (call : HwCall) (refused : Nothing h.context call.serve) (off : h.serving = false ∨ ∀ q, call ≠ .deactivate q) :
    h.next call = h ∧ ∃ e, h.answer call = .error e := by
  have nothing := refused rfl
  rcases run : call.serve.run h.context with ⟨e | a, c⟩
  · rw [run] at nothing
    obtain rfl := nothing
    refine ⟨?_, e, by rw [answer, run]⟩
    simp only [next, run]
    cases call with
    | deactivate q =>
      have : h.serving = false := off.resolve_right fun no => no q rfl
      exact congrArg₂ (History.mk h.context) this.symm rfl
    | begin | activate | invalidate | finish => rfl
  · rw [run] at nothing
    exact nothing.elim

/-- What a call may leave, by its answer. -/
theorem next_cases (call : HwCall) {P : Context → Prop} {Q : Context → Prop} {E : Result → Context → Prop}
    (rule : Triple P call.serve (fun _ => Q) E) (start : P h.context) :
    (Q (h.next call).context ∧ h.answer call = .ok () ∨ ∃ e, E e (h.next call).context ∧ h.answer call = .error e) := by
  have outcome := rule start
  rcases run : call.serve.run h.context with ⟨e | a, c⟩ <;> rw [run] at outcome
  · exact .inr ⟨e, by simpa only [next, run] using outcome, by rw [answer, run]⟩
  · exact .inl ⟨by simpa only [next, run] using outcome, by rw [answer, run]⟩

theorem next_serving : (h.next call).serving = servingAfter h.serving call (h.answer call) := rfl

theorem next_begun : (h.next call).begun = begunAfter h.begun (h.since (h.next call).context.trace) call (h.answer call) := rfl

theorem Sound.failed {e : Result} (failed : Failed e (h.next call).context) : Sound (h.next call) :=
  have := tells_iff.mp failed
  ⟨this.1, .inl this.2⟩

/-- The first session, and every one after the last ended. -/
theorem Sound.begin (sound : Sound h) (idle : Unstaged h.context.state) (off : h.serving = false) (table trap : ℕ) :
    Sound (h.next (.begin table trap)) := by
  have start : Tells (fun d s => Base d s ∧ Unstaged d ∧ s = h.context.trace) h.context := tells_iff.mpr ⟨sound.base, idle, rfl⟩
  rcases next_cases (.begin table trap) (mmuBegin_tells table trap) start with ⟨ready, ok⟩ | ⟨e, no, error⟩
  · obtain ⟨ready, base, new, trace, begun⟩ := tells_iff.mp ready
    refine ⟨base, .inr (.inr (.inl ⟨ready, ?_, ?_⟩))⟩
    · rw [next_begun, ok, trace, since_append]
      exact begun
    · rw [next_serving, ok]
      exact off
  · obtain ⟨base, fault | idle⟩ := tells_iff.mp no
    · exact ⟨base, .inl fault⟩
    · refine ⟨base, .inr (.inl ⟨idle, ?_⟩)⟩
      rw [next_serving, error]
      exact off

theorem Sound.session (sound : Sound h) (begun : Begun h.begun h.context.state) : Session h.begun h.context.state h.context.trace :=
  ⟨sound.base, begun⟩

/-- A call to a staged unit that is off: how it fails, and what else it leaves. -/
theorem Sound.ready (sound : Sound h) (ready : Ready h.context.state) (begun : Begun h.begun h.context.state) (off : h.serving = false) :
    Sound (h.next .activate) ∧ Sound (h.next .invalidate) ∧
      Sound (h.next .finish) ∧ (h.answer .finish = .ok () → Restored h.begun (h.next .finish).context.trace) := by
  have start : Tells (fun d s => Ready d ∧ Session h.begun d s) h.context := tells_iff.mpr ⟨ready, sound.session begun⟩
  refine ⟨?_, ?_, ?_⟩
  · rcases next_cases .activate mmuActivate_tells start with ⟨on, ok⟩ | ⟨e, no, -⟩
    · obtain ⟨on, base, begun⟩ := tells_iff.mp on
      refine ⟨base, .inr (.inr (.inr ⟨on, begun, ?_⟩))⟩
      rw [next_serving, ok]
      rfl
    · exact .failed no
  · have rule := mmuInvalidate_tells (sturdy_session : Sturdy (Session h.begun)) fun _ _ hs => hs.1
    rcases next_cases .invalidate rule start with ⟨ready, ok⟩ | ⟨e, no, -⟩
    · obtain ⟨ready, ⟨base, begun⟩, -⟩ := tells_iff.mp ready
      exact ⟨base, .inr (.inr (.inl ⟨ready, begun, off⟩))⟩
    · exact .failed no
  · rcases next_cases .finish mmuEnd_tells start with ⟨idle, ok⟩ | ⟨e, no, error⟩
    · obtain ⟨idle, base, restored⟩ := tells_iff.mp idle
      exact ⟨⟨base, .inr (.inl ⟨idle, off⟩)⟩, fun _ => restored⟩
    · refine ⟨.failed no, fun ok => ?_⟩
      rw [error] at ok
      cases ok

theorem Sound.deactivate (sound : Sound h) (on : On h.context.state) (begun : Begun h.begun h.context.state) (quiesced : Bool) :
    Sound (h.next (.deactivate quiesced)) := by
  have start : Tells (fun d s => On d ∧ Session h.begun d s) h.context := tells_iff.mpr ⟨on, sound.session begun⟩
  rcases next_cases (.deactivate quiesced) (mmuDeactivate_tells quiesced) start with ⟨ready, ok⟩ | ⟨e, no, -⟩
  · obtain ⟨ready, base, begun⟩ := tells_iff.mp ready
    exact ⟨base, .inr (.inr (.inl ⟨ready, begun, rfl⟩))⟩
  · exact .failed no

/-- A call that the unit is not ready for. -/
theorem Sound.refused (sound : Sound h) (no : Nothing h.context call.serve) (off : h.serving = false ∨ ∀ q, call ≠ .deactivate q) :
    Sound (h.next call) := by
  rw [(next_refused call no off).1]
  exact sound

/-- A unit with a fault, on or off. -/
theorem next_stuck (sound : Sound h) (fault : h.context.state.hw.fault = true) (call : HwCall) :
    Stuck h.context.trace (h.next call).context.state (h.next call).context.trace ∧ ∃ e, h.answer call = .error e := by
  have stuck : Stuck h.context.trace h.context.state h.context.trace := ⟨sound.base, fault, [], rfl, fun _ _ _ mem => nomatch mem⟩
  have ready : ¬Ready h.context.state := fun ready => by simp [ready.1] at fault
  have refused (no : Nothing h.context call.serve) :
      Stuck h.context.trace (h.next call).context.state (h.next call).context.trace ∧ ∃ e, h.answer call = .error e := by
    rcases next_cases call no rfl with ⟨no, -⟩ | ⟨e, same, error⟩
    · exact no.elim
    · rw [same]
      exact ⟨stuck, e, error⟩
  cases call with
  | begin table trap => exact refused (mmuBegin_refuses fun idle => by simp [idle.2] at fault)
  | activate => exact refused (mmuActivate_refuses ready)
  | invalidate => exact refused (mmuInvalidate_refuses ready)
  | finish => exact refused (mmuEnd_refuses ready)
  | deactivate quiesced =>
    rcases next_cases (.deactivate quiesced) (mmuDeactivate_stuck quiesced) (tells_iff.mpr stuck) with ⟨no, -⟩ | ⟨e, stuck, error⟩
    · exact no.elim
    · exact ⟨tells_iff.mp stuck, e, error⟩

/-- Every call keeps what holds between the calls. -/
theorem Sound.next (sound : Sound h) (call : HwCall) : Sound (h.next call) := by
  rcases sound.phase with fault | ⟨idle, off⟩ | ⟨ready, begun, off⟩ | ⟨on, begun, -⟩
  · have stuck := (next_stuck sound fault call).1
    exact ⟨stuck.1, .inl stuck.2.1⟩
  · have ready : ¬Ready h.context.state := fun ready => Bool.false_ne_true (idle.2.1.symm.trans ready.2.1)
    cases call with
    | begin table trap => exact sound.begin idle off table trap
    | activate => exact sound.refused (mmuActivate_refuses ready) (.inl off)
    | invalidate => exact sound.refused (mmuInvalidate_refuses ready) (.inl off)
    | finish => exact sound.refused (mmuEnd_refuses ready) (.inl off)
    | deactivate quiesced => exact sound.refused (mmuDeactivate_refuses idle.2.2) (.inl off)
  · obtain ⟨activate, invalidate, finish, -⟩ := sound.ready ready begun off
    cases call with
    | begin table trap => exact sound.refused (mmuBegin_refuses fun idle => by simp [ready.2.1] at idle) (.inl off)
    | activate => exact activate
    | invalidate => exact invalidate
    | finish => exact finish
    | deactivate quiesced => exact sound.refused (mmuDeactivate_refuses ready.2.2) (.inl off)
  · have busy : ¬Ready h.context.state := fun ready => Bool.false_ne_true (ready.2.2.symm.trans on.2.2)
    cases call with
    | begin table trap => exact sound.refused (mmuBegin_refuses fun idle => by simp [on.2.1] at idle) (.inr nofun)
    | activate => exact sound.refused (mmuActivate_refuses busy) (.inr nofun)
    | invalidate => exact sound.refused (mmuInvalidate_refuses busy) (.inr nofun)
    | finish => exact sound.refused (mmuEnd_refuses busy) (.inr nofun)
    | deactivate quiesced => exact sound.deactivate on begun quiesced

end Steps

theorem sound_start (world : World) : Sound ⟨start world, false, []⟩ :=
  ⟨⟨fun _ _ _ mem => absurd mem List.not_mem_nil, fun ⟨_, last, _⟩ => nomatch last⟩, .inr (.inl ⟨⟨rfl, rfl, rfl⟩, rfl⟩)⟩

theorem sound_run (world : World) (calls : List HwCall) : Sound (run world calls) := by
  suffices h : ∀ h, Sound h → Sound (calls.foldl next h) from h _ (sound_start world)
  induction calls with
  | nil => exact fun _ sound => sound
  | cons call calls ih => exact fun h sound => ih _ (sound.next call)

/-- An end that succeeds gives the unit back as it was found. -/
theorem Sound.restored {h : History} (sound : Sound h) (ok : h.answer .finish = .ok ()) :
    Restored h.begun (h.next .finish).context.trace := by
  have refused (busy : ¬Ready h.context.state) : Restored h.begun (h.next .finish).context.trace := by
    obtain ⟨e, error⟩ := (next_refused .finish (mmuEnd_refuses busy) (.inr nofun)).2
    rw [error] at ok
    cases ok
  rcases sound.phase with fault | ⟨idle, -⟩ | ⟨ready, begun, off⟩ | ⟨on, -⟩
  · exact refused fun ready => by simp [ready.1] at fault
  · exact refused fun ready => Bool.false_ne_true (idle.2.1.symm.trans ready.2.1)
  · exact (sound.ready ready begun off).2.2.2 ok
  · exact refused fun ready => Bool.false_ne_true (ready.2.2.symm.trans on.2.2)

theorem Sound.enabled {h : History} (sound : Sound h) (enabled : Enabled h.context.trace) :
    h.context.state.hw.active = true ∧ (h.serving = true ∨ h.context.state.hw.fault = true) := by
  have active := sound.base.enabled enabled
  refine ⟨active, ?_⟩
  rcases sound.phase with fault | ⟨idle, -⟩ | ⟨ready, -⟩ | ⟨-, -, serving⟩
  · exact .inr fault
  · simp [idle.2.2] at active
  · simp [ready.2.2] at active
  · exact .inl serving

/-- What an owner of the unit may rely on after a run, whatever it calls next. -/
structure Contained (h : History) : Prop where
  own : WritesOwn h.context.trace
  sticky : h.context.state.hw.fault = true → ∀ call, (h.next call).context.state.hw.fault = true ∧
    ∃ new, (h.next call).context.trace = new ++ h.context.trace ∧ Silent new
  enabled : Enabled h.context.trace → h.context.state.hw.active = true ∧ (h.serving = true ∨ h.context.state.hw.fault = true)
  restored : h.answer .finish = .ok () → Restored h.begun (h.next .finish).context.trace

/-- Every run of the sequences, over registers that read as they like. -/
theorem run_contained (world : World) (calls : List HwCall) : Contained (run world calls) := by
  have sound := sound_run world calls
  exact ⟨sound.base.own, fun fault call => (next_stuck sound fault call).1.2, sound.enabled, sound.restored⟩

/-- A unit that reads as it was given the table at `0x100000` and the trap page behind it, but for the control register. -/
def deaf : World where
  register _ unit off :=
    if unit = 3 then 1
    else if unit = 1 then
      match off with
      | 4 => 0xf6
      | 0x14 => 0x800000a0
      | 0x20 => 0x800000a0
      | 0x30 => 0x80000101
      | 0x38 => 0x20000664
      | _ => 0
    else 0
  allocate _ _ := none
  intact _ _ := true
  callback _ _ := 0
  trapWords _ := 0

/-- An activation that cannot be proved leaves the unit on. -/
theorem activate_unproven : ¬∀ world calls, Enabled (run world calls).context.trace → (run world calls).serving = true := by
  intro h
  have enabled : lastWrite 1 0 (run deaf [.begin 0x100000 0x101000, .activate]).context.trace = some mmuActiveControl := by
    decide +kernel
  have serving : (run deaf [.begin 0x100000 0x101000, .activate]).serving = false := by
    decide +kernel
  cases serving.symm.trans (h deaf _ ⟨_, enabled, by decide⟩)

end History

end Pi5Drivers.Iommu
