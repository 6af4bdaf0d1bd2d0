import Pi5Drivers.Iommu.Driver
import Pi5Drivers.Lib.Sums
import Mathlib.Algebra.BigOperators.Fin

/-! What an observer of the trace knows of the unit and its tables, what the driver
knows besides, and how the register sequences keep both in step. -/

namespace Pi5Drivers.Iommu

open Effect Recorded

/-! ### The observer -/

structure Watch where
  /-- The second-level table, and the entries that changed since the last flush. -/
  table : ℕ → BitVec 32
  stale : ℕ → Bool
  /-- What the registers of the unit were given since there is a root, and found with before. -/
  written : ℕ → Option (BitVec 32)
  found : ℕ → BitVec 32
  /-- The control register, if it was read since it was written. -/
  control : Option (BitVec 32)
  /-- A register of the unit was given something since the last flush. -/
  dirty : Bool
  faulted : Bool

namespace Watch

def start : Watch := ⟨fun _ => 0, fun _ => false, fun _ => none, fun _ => 0, none, false, false⟩

def sawRead (w : Watch) (off : ℕ) (v : BitVec 32) : Watch :=
  { w with
    found := if w.written off = none then Function.update w.found off v else w.found
    control := if off = 0 then some v else w.control }

def sawWrite (w : Watch) (off : ℕ) (v : BitVec 32) : Watch :=
  { w with
    written := Function.update w.written off (some v)
    control := if off = 0 then none else w.control
    dirty := w.dirty || off != 0 }

def sawStore (w : Watch) (k : ℕ) (v : BitVec 32) : Watch :=
  { w with table := Function.update w.table k v, stale := Function.update w.stale k true }

def flush (w : Watch) : Watch := { w with stale := fun _ => false, dirty := false }

def saw (w : Watch) : Event → Watch
  | .read unit off v => if unit = 1 then w.sawRead off v else w
  | .write unit off v => if unit = 1 then w.sawWrite off v else w
  | .store k v => w.sawStore k v
  | .flushed => w.flush
  | .allocated .root => { w with written := fun _ => none }
  | .allocated .l2 => { w with table := fun _ => 0, stale := fun _ => true }
  | .fault => { w with faulted := true }
  | _ => w

/-- The entries of the slot are zero and were flushed, and the unit was seen switched off. -/
def Retired (w : Watch) (i : Fin 16) : Prop :=
  (∀ k < mmuSlotPages, w.table (first i + k) = 0 ∧ w.stale (first i + k) = false) ∧ w.control = some 0

/-- Nothing was written to the unit since there is a root. -/
def Untouched (w : Watch) : Prop := ∀ off, w.written off = none

/-- No entry is left, the registers are as they were found, both were flushed, and the
unit was seen switched off. -/
def Withdrawn (w : Watch) : Prop :=
  (∀ k, w.table k = 0 ∧ w.stale k = false) ∧
    (∀ j ∈ tableRegisters, w.written (offsets j) = some (w.found (offsets j))) ∧ w.dirty = false ∧ w.control = some 0

/-- What may happen next. -/
def Allows (w : Watch) : Event → Prop
  | .allocated _ | .owner _ => w.faulted = false
  | .freed (.buffer i) => w.faulted = false ∧ w.Retired i
  | .freed _ => w.faulted = false ∧ (w.Untouched ∨ w.Withdrawn)
  | _ => True

end Watch

def observer : Observer Event Watch := ⟨.start, Watch.saw, Watch.Allows⟩

/-- What the driver and the observer know. -/
abbrev Holds (A : Driver → Watch → Prop) (c : Context) : Prop := Assert observer A c

/-! ### Steps that leave the tables alone -/

namespace Watch

/-- Nothing but reads. -/
def Looked (w w' : Watch) : Prop :=
  ∃ f c, w' = { w with found := f, control := c } ∧ ∀ off, w.written off ≠ none → f off = w.found off

/-- Nothing but reads, and writes of the control register. -/
def Handled (w w' : Watch) : Prop :=
  ∃ f c v, w' = { w with found := f, control := c, written := v } ∧
    ∀ off, off ≠ 0 → v off = w.written off ∧ (w.written off ≠ none → f off = w.found off)

theorem Looked.handled {w w' : Watch} (h : w.Looked w') : w.Handled w' := by
  obtain ⟨f, c, rfl, same⟩ := h
  exact ⟨f, c, w.written, rfl, fun off _ => ⟨rfl, same off⟩⟩

theorem looked_sawRead (w : Watch) (off : ℕ) (v : BitVec 32) : w.Looked (w.sawRead off v) := by
  refine ⟨_, _, rfl, fun other known => ?_⟩
  by_cases h : w.written off = none
  · have : other ≠ off := by
      rintro rfl
      exact known h
    simp [h, this]
  · simp [h]

theorem looked_saw_read (w : Watch) (unit off : ℕ) (v : BitVec 32) : w.Looked (w.saw (.read unit off v)) := by
  by_cases h : unit = 1
  · simpa [saw, h] using w.looked_sawRead off v
  · simpa [saw, h] using ⟨w.found, w.control, rfl, fun _ _ => rfl⟩

theorem handled_saw_control (w : Watch) (v : BitVec 32) : w.Handled (w.saw (.write 1 0 v)) := by
  refine ⟨w.found, none, Function.update w.written 0 (some v), by simp [saw, sawWrite], fun off h => ⟨?_, fun _ => rfl⟩⟩
  exact Function.update_of_ne h _ _

end Watch

/-- A relation that reads keep. -/
def Patient (A : Driver → Watch → Prop) : Prop := ∀ ⦃d w w'⦄, A d w → w.Looked w' → A d w'

/-- A relation that reads and writes of the control register keep. -/
def Steadfast (A : Driver → Watch → Prop) : Prop := ∀ ⦃d w w'⦄, A d w → w.Handled w' → A d w'

theorem Steadfast.patient {A : Driver → Watch → Prop} (h : Steadfast A) : Patient A :=
  fun _ _ _ ha looked => h ha looked.handled

theorem Patient.and {A B : Driver → Watch → Prop} (ha : Patient A) (hb : Patient B) :
    Patient fun d w => A d w ∧ B d w :=
  fun _ _ _ h looked => ⟨ha h.1 looked, hb h.2 looked⟩

theorem Steadfast.and {A B : Driver → Watch → Prop} (ha : Steadfast A) (hb : Steadfast B) :
    Steadfast fun d w => A d w ∧ B d w :=
  fun _ _ _ h handled => ⟨ha h.1 handled, hb h.2 handled⟩

theorem patient_driver (p : Driver → Prop) : Patient fun d _ => p d := fun _ _ _ h _ => h

theorem steadfast_driver (p : Driver → Prop) : Steadfast fun d _ => p d := fun _ _ _ h _ => h

section Steps

variable {A B : Driver → Watch → Prop} {α ε : Type} {E : ε → Context → Prop}

theorem read_value_rule {B : BitVec 32 → Driver → Watch → Prop} {unit off : ℕ}
    (h : ∀ v d w, A d w → B v d (w.saw (.read unit off v))) :
    Triple (Holds A) (read unit off) (fun v => Holds (B v)) E :=
  Triple.bind (ask_rule _) fun v => Triple.bind (record_rule (B := B v) _ (fun _ _ _ => trivial) (h v))
    fun _ => Triple.pure fun _ hc => hc

theorem read_rule (patient : Patient A) (unit off : ℕ) :
    Triple (Holds A) (read unit off) (fun _ => Holds A) E :=
  read_value_rule fun v _ w ha => patient ha (w.looked_saw_read unit off v)

theorem control_rule (steadfast : Steadfast A) (v : BitVec 32) :
    Triple (Holds A) (write 1 0 v) (fun _ => Holds A) E :=
  record_rule _ (fun _ _ _ => trivial) fun _ w ha => steadfast ha (w.handled_saw_control v)

/-- A write to another unit than the one with the tables. -/
theorem write_rule {unit : ℕ} (h : unit ≠ 1) (off : ℕ) (v : BitVec 32) :
    Triple (Holds A) (write unit off v) (fun _ => Holds A) E :=
  record_rule _ (fun _ _ _ => trivial) fun _ w ha => by simpa [observer, Watch.saw, h] using ha

theorem setHw_rule (f : Hw → Hw) (h : ∀ d w, A d w → B { d with hw := f d.hw } w) :
    Triple (Holds A) (setHw f) (fun _ => Holds B) E :=
  change_rule _ h

end Steps

/-- The fault is latched. -/
def Latched (d : Driver) (_ : Watch) : Prop := d.hw.fault = true

/-- Where a sequence of the hardware may stop. -/
def Latch (_ : Result) : Context → Prop := Holds Latched

section Sequences

variable {A B : Driver → Watch → Prop} {α : Type} {Q : α → Context → Prop}

theorem fault_rule (r : Result) : Triple (Holds A) (fault r : Mmu α) Q Latch :=
  Triple.bind (setHw_rule (B := Latched) _ fun _ _ _ => rfl) fun _ => Triple.stop fun _ hc => hc

theorem demand_rule {c : Prop} [Decidable c] (r : Result) :
    Triple (Holds A) (demand c r) (fun _ => Holds fun d w => c ∧ A d w) Latch :=
  Triple.ite (fun yes => Triple.pure fun _ hc => hc.mono fun _ _ h => ⟨yes, h⟩) fun _ => fault_rule r

/-- The condition is of no use to the rest of the sequence. -/
theorem demand_keeps {c : Prop} [Decidable c] (r : Result) : Triple (Holds A) (demand c r) (fun _ => Holds A) Latch :=
  (demand_rule r).mono (fun _ hc => hc) (fun _ _ hc => hc.mono fun _ _ h => h.2) fun _ _ hc => hc

theorem pollFor_rule (patient : Patient A) (unit : ℕ) (mask : BitVec 32) (n : ℕ) :
    Triple (Holds A) (pollFor unit mask n) (fun _ => Holds A) Latch := by
  induction n with
  | zero => exact fault_rule _
  | succ n ih =>
    exact Triple.bind (read_rule patient _ _) fun v => Triple.ite (fun _ => pure_rule) fun _ => ih

/-- A condition that the assertion implies. -/
theorem require_known {ε : Type} {c : Prop} [Decidable c] {e : ε} {E : ε → Context → Prop} (h : ∀ d w, A d w → c) :
    Triple (Holds A) (require c e : Program ε Unit) (fun _ => Holds A) E :=
  Triple.require (fun _ hc _ => hc) fun _ hc no => absurd (h _ _ hc.2) no

/-- A register of another unit. -/
theorem read_other_rule {ε : Type} {E : ε → Context → Prop} {unit : ℕ} (h : unit ≠ 1) (off : ℕ) :
    Triple (Holds A) (read unit off) (fun _ => Holds A) E :=
  read_value_rule fun _ _ w ha => by simpa [Watch.saw, h] using ha

/-! ### The comparison of the registers -/

theorem offsets_injective : Function.Injective offsets := by decide

/-- The sequences can run: the unit is staged, switched off and without a fault. -/
def Ready (d : Driver) : Prop := d.hw.fault = false ∧ d.hw.staged = true ∧ d.hw.active = false

/-- A register of the unit had the value it should have. -/
def Agreed (j : Fin 9) (d : Driver) (w : Watch) : Prop :=
  (w.written (offsets j) = none → w.found (offsets j) = d.hw.expected j) ∧ (j = 0 → w.control = some (d.hw.expected j))

/-- All of them had. -/
def Compared (d : Driver) (w : Watch) : Prop := ∀ j, Agreed j d w

theorem Agreed.sawRead {j k : Fin 9} {d : Driver} {w : Watch} (h : j ≠ k → Agreed j d w) :
    Agreed j d (w.sawRead (offsets k) (d.hw.expected k)) := by
  by_cases eq : j = k
  · subst eq
    refine ⟨fun unwritten => ?_, fun zero => ?_⟩
    · have unwritten : w.written (offsets j) = none := unwritten
      simp [Watch.sawRead, unwritten]
    · subst zero
      simp [Watch.sawRead, offsets]
  · obtain ⟨found, control⟩ := h eq
    have apart : offsets j ≠ offsets k := fun same => eq (offsets_injective same)
    refine ⟨fun unwritten => ?_, fun zero => ?_⟩
    · have same := found unwritten
      simp only [Watch.sawRead]
      split
      · rwa [Function.update_of_ne apart]
      · exact same
    · subst zero
      have : offsets k ≠ 0 := fun same => apart same.symm
      simpa [Watch.sawRead, this] using control rfl

theorem agree_other_rule {i : Fin 3} (h : i ≠ 1) (j : Fin 9) (v : BitVec 32) :
    Triple (Holds A) (agree i j v) (fun _ => Holds A) Latch := by
  have : (i : ℕ) ≠ 1 := fun eq => h (Fin.ext eq)
  exact Triple.bind (read_other_rule this _) fun _ => demand_keeps _

theorem agree_rule (patient : Patient A) (d : Driver) (k : Fin 9) (l : List (Fin 9)) :
    Triple (Holds fun d' w => (d' = d ∧ A d' w) ∧ ∀ j, j ∉ k :: l → Agreed j d' w)
      (agree 1 k (d.hw.wanted 1 k)) (fun _ => Holds fun d' w => (d' = d ∧ A d' w) ∧ ∀ j, j ∉ l → Agreed j d' w) Latch := by
  refine Triple.bind (read_value_rule (B := fun v d' w => (d' = d ∧ A d' w) ∧
    (v = d.hw.expected k → ∀ j, j ∉ l → Agreed j d' w)) ?_) fun v => ?_
  · rintro v d' w ⟨⟨rfl, ha⟩, done⟩
    refine ⟨⟨rfl, patient ha (w.looked_saw_read 1 _ v)⟩, ?_⟩
    rintro rfl j hj
    exact Agreed.sawRead fun ne => done j (by simp [ne, hj])
  · exact (demand_rule _).mono (fun _ hc => hc) (fun _ _ hc => hc.mono fun _ _ h => ⟨h.2.1, h.2.2 h.1⟩) fun _ _ hc => hc

theorem mmuCheck_rule (patient : Patient A) :
    Triple (Holds fun d w => Ready d ∧ A d w) mmuCheck (fun _ => Holds fun d w => (Ready d ∧ A d w) ∧ Compared d w)
      Latch := by
  refine look_rule fun d => ?_
  refine Triple.bind (require_known fun _ _ h => h.1 ▸ h.2.1.1) fun _ => ?_
  refine Triple.bind (require_known fun _ _ h => h.1 ▸ h.2.1.2.1) fun _ => ?_
  refine Triple.bind (require_known fun _ _ h => h.1 ▸ h.2.1.2.2) fun _ => ?_
  have first := (patient_driver Ready).and patient
  refine Triple.bind (Q := fun _ => Holds fun d' w => (d' = d ∧ Ready d' ∧ A d' w) ∧ Compared d' w) ?_ fun _ => ?_
  · refine Triple.bind (Triple.each fun j _ => agree_other_rule (by decide) j _) fun _ => ?_
    refine Triple.bind (Q := fun _ => Holds fun d' w => (d' = d ∧ Ready d' ∧ A d' w) ∧ Compared d' w) ?_ fun _ => ?_
    · refine (Triple.each_rest (I := fun l => Holds fun d' w => (d' = d ∧ Ready d' ∧ A d' w) ∧ ∀ j, j ∉ l → Agreed j d' w)
        (agree_rule first d) (List.finRange 9)).mono (fun _ hc => hc.mono fun _ _ h => ⟨h, fun j hj => ?_⟩)
        (fun _ _ hc => hc.mono fun _ _ h => ⟨h.1, fun j => h.2 j List.not_mem_nil⟩) fun _ _ hc => hc
      exact absurd (List.mem_finRange j) hj
    · refine Triple.bind (Triple.each fun j _ => agree_other_rule (by decide) j _) fun _ => pure_rule
  · refine Triple.bind (read_other_rule (by decide) _) fun _ => (demand_keeps _).mono (fun _ hc => hc)
      (fun _ _ hc => hc.mono fun _ _ h => ⟨h.1.2, h.2⟩) fun _ _ hc => hc

/-- After an invalidation the entries and the registers are flushed, and the unit was
seen with the control register it should have. -/
theorem mmuInvalidate_rule (steadfast : Steadfast A) (h : ∀ d w, Ready d → A d w → Compared d w → B d w.flush) :
    Triple (Holds fun d w => Ready d ∧ A d w) mmuInvalidate (fun _ => Holds B) Latch := by
  refine glance_rule fun d => ?_
  have keeps := (steadfast_driver Ready).and steadfast
  refine Triple.bind ((mmuCheck_rule steadfast.patient).mono (fun _ hc => hc) (fun _ _ hc => hc.mono fun _ _ h => h.1)
    fun _ _ hc => hc) fun _ => ?_
  refine Triple.bind (write_rule (by decide) _ _) fun _ => ?_
  refine Triple.bind (pollFor_rule keeps.patient _ _ _) fun _ => ?_
  refine Triple.bind (write_rule (by decide) _ _) fun _ => ?_
  refine Triple.bind (control_rule keeps _) fun _ => ?_
  refine Triple.bind (pollFor_rule keeps.patient _ _ _) fun _ => ?_
  refine Triple.bind (control_rule keeps _) fun _ => ?_
  refine Triple.bind (mmuCheck_rule steadfast.patient) fun _ => ?_
  exact record_rule _ (fun _ _ _ => trivial) fun d w ⟨⟨ready, ha⟩, compared⟩ => h d w ready ha compared

end Sequences

end Pi5Drivers.Iommu
