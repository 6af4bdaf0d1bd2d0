import Pi5Drivers.Lib.BitField
import Pi5Drivers.Lib.Runs
import Pi5Drivers.Pm.Driver

/-! The reset line is lent to one file at a time. An observer that sees the register accesses
and the changes of the owner never sees a write but to the reset bit of the owner's line, and
none after something went wrong. -/

namespace Pi5Drivers.Pm

open Effect Recorded

/-! ### The observer -/

/-- The owner, the value that the register should hold, the one that it held at first, the one
that was read since the last write, and whether something went wrong. -/
structure Watch where
  owner : Option ℕ
  expected : BitVec 32
  initial : BitVec 32
  last : Option (BitVec 32)
  isUnsafe : Bool

def Watch.saw (w : Watch) : Event → Watch
  | .read offset value => if offset = pmHwV3d then { w with last := some value } else w
  | .sampled .. => w
  | .wrote _ value => { w with expected := value &&& pmDataMask, last := none }
  | .faulted => { w with isUnsafe := true }
  | .owned file value => { w with owner := some file, expected := value, initial := value }
  | .released | .vanished => { w with owner := none }

/-- A write gives the password and turns over the reset bit of the expected value. A file becomes
the owner of a line that is free, with the value just read. The line is released with that value,
and an owner that goes away leaves it unsafe. -/
def Watch.Allows (w : Watch) : Event → Prop
  | .read .. | .sampled .. | .faulted => True
  | .wrote offset value =>
    offset = pmHwV3d ∧ w.owner ≠ none ∧ w.isUnsafe = false ∧ value = pmPassword ||| (w.expected ^^^ pmHwV3drstn)
  | .owned _ value => w.owner = none ∧ w.isUnsafe = false ∧ w.last = some value
  | .released => w.owner ≠ none ∧ w.isUnsafe = false ∧ w.last = some w.initial
  | .vanished => w.isUnsafe = true

def observer : Observer Event Watch := ⟨⟨none, 0, 0, none, false⟩, Watch.saw, Watch.Allows⟩

/-- Neither unsafe state was cleared. -/
structure Later (before d : Driver) : Prop where
  boot : before.bootUnsafe = true → d.bootUnsafe = true
  hw : before.hw.unsafeState = true → d.hw.unsafeState = true

/-- Something went wrong, and it is not reported yet. -/
structure Broken (before d : Driver) (w : Watch) : Prop where
  owner : d.owner = w.owner
  isUnsafe : w.isUnsafe = true
  later : Later before d

/-- The driver and the observer agree. The first argument is the driver at some time before. -/
structure Agrees (before d : Driver) (w : Watch) : Prop where
  owner : d.owner = w.owner
  boot : d.bootUnsafe = w.isUnsafe
  hw : d.hw.unsafeState = true → d.bootUnsafe = true
  lease : d.owner ≠ none → d.bootUnsafe = false →
    d.hw.expectedV3d = w.expected ∧ d.hw.initialV3d = w.initial ∧ w.expected &&& pmDataMask = w.expected
  later : Later before d

/-- Nothing went wrong. -/
structure Fine (before d : Driver) (w : Watch) : Prop extends Agrees before d w where
  safe : d.bootUnsafe = false
  hwSafe : d.hw.unsafeState = false

/-- The line has an owner, and nothing went wrong. -/
structure Owned (before d : Driver) (w : Watch) : Prop extends Fine before d w where
  held : d.owner ≠ none

/-- The register was written with a value. -/
structure Written (value : BitVec 32) (before d : Driver) (w : Watch) : Prop extends
    Owned before { d with hw := { d.hw with expectedV3d := value } } w where
  masked : value &&& pmDataMask = value

/-- The line is free, and the register was found with a value. -/
structure Ready (before d : Driver) (w : Watch) : Prop extends Fine before d w where
  free : d.owner = none
  initial : w.last = some d.hw.initialV3d
  expected : d.hw.expectedV3d = d.hw.initialV3d
  masked : d.hw.initialV3d &&& pmDataMask = d.hw.initialV3d

/-- What an error of the register code says. -/
def Failed (before : Driver) (e : HwResult) (d : Driver) (w : Watch) : Prop :=
  (e = .fault → Broken before d w) ∧ (e ≠ .fault → Agrees before d w)

section Rules

variable {before d : Driver} {w : Watch} {value : BitVec 32} {α : Type}

theorem Agrees.fine (h : Agrees before d w) (safe : d.bootUnsafe = false) : Fine before d w :=
  ⟨h, safe, Bool.eq_false_iff.mpr fun bad => by simp [h.hw bad] at safe⟩

theorem Broken.failed (h : Broken before d w) : Failed before .fault d w := ⟨fun _ => h, fun no => absurd rfl no⟩

theorem Agrees.failed (h : Agrees before d w) {e : HwResult} (other : e ≠ .fault) : Failed before e d w :=
  ⟨fun yes => absurd yes other, fun _ => h⟩

/-- What was read last is no part of what the driver and the observer agree on. -/
theorem Owned.watch (h : Owned before d w) (last : Option (BitVec 32)) : Owned before d { w with last := last } :=
  ⟨⟨⟨h.owner, h.boot, h.hw, h.lease, h.later⟩, h.safe, h.hwSafe⟩, h.held⟩

theorem Fine.watch (h : Fine before d w) (last : Option (BitVec 32)) : Fine before d { w with last := last } :=
  ⟨⟨h.owner, h.boot, h.hw, h.lease, h.later⟩, h.safe, h.hwSafe⟩

theorem Owned.read (h : Owned before d w) (offset : ℕ) (v : BitVec 32) : Owned before d (w.saw (.read offset v)) := by
  change Owned before d (if offset = pmHwV3d then { w with last := some v } else w)
  split
  · exact h.watch _
  · exact h

theorem Fine.read (h : Fine before d w) (offset : ℕ) (v : BitVec 32) : Fine before d (w.saw (.read offset v)) := by
  change Fine before d (if offset = pmHwV3d then { w with last := some v } else w)
  split
  · exact h.watch _
  · exact h

/-- What a read of a register does to an assertion that looks at the last value. -/
theorem read_rule {A : Driver → Watch → Prop} {B : BitVec 32 → Driver → Watch → Prop} (offset : ℕ)
    (h : ∀ d w value, A d w → value &&& pmDataMask = value → B value d (w.saw (.read offset value)))
    {E : HwResult → Context → Prop} :
    Triple (Assert observer A) (read offset) (fun value => Assert observer (B value)) E := by
  refine Triple.bind (ask_rule _) fun value => ?_
  have masked : (value &&& pmDataMask) &&& pmDataMask = value &&& pmDataMask := by
    rw [BitVec.and_assoc, BitVec.and_self]
  exact Triple.bind (record_rule (B := B (value &&& pmDataMask)) _ (fun _ _ _ => trivial) fun d w hd => h d w _ hd masked)
    fun _ => Triple.pure fun _ hc => hc

/-- A read of a register that only says what it read. -/
theorem read_keeps {A : Driver → Watch → Prop} (offset : ℕ) (h : ∀ d w value, A d w → A d (w.saw (.read offset value)))
    {E : HwResult → Context → Prop} :
    Triple (Assert observer A) (read offset) (fun _ => Assert observer A) E :=
  read_rule (B := fun _ => A) offset fun d w value hd _ => h d w value hd

theorem setHw_rule {A B : Driver → Watch → Prop} {f : Hw → Hw} (h : ∀ d w, A d w → B { d with hw := f d.hw } w)
    {E : HwResult → Context → Prop} :
    Triple (Assert observer A) (setHw f) (fun _ => Assert observer B) E :=
  change_rule _ h

theorem fail_rule {A : Driver → Watch → Prop} (h : ∀ d w, A d w → d.owner = w.owner ∧ Later before d)
    {Q : Unit → Context → Prop} :
    Triple (Assert observer A) fail Q fun e => Assert observer (Failed before e) := by
  refine Triple.bind (record_rule (B := Broken before) _ (fun _ _ _ => trivial) fun d w hd => ?_) fun _ => ?_
  · exact ⟨(h d w hd).1, rfl, (h d w hd).2⟩
  refine Triple.bind (setHw_rule (B := Broken before) fun d w hd => ?_) fun _ => Triple.stop fun _ hc => ?_
  · exact ⟨hd.owner, hd.isUnsafe, hd.later.boot, fun _ => rfl⟩
  · exact hc.mono fun _ _ hb => hb.failed

theorem Agrees.fails (h : Agrees before d w) : d.owner = w.owner ∧ Later before d := ⟨h.owner, h.later⟩

/-! ### The register code -/

theorem reset_bit (x : BitVec 32) : x &&& pmHwV3drstn = 0#32 ∨ x &&& pmHwV3drstn = pmHwV3drstn := by
  have power : pmHwV3drstn = BitVec.twoPow 32 6 := by decide
  rw [power, BitVec.and_twoPow]
  split
  · exact .inr rfl
  · exact .inl rfl

/-- A value with its reset bit set to what it was not. -/
theorem toggled {x : BitVec 32} {release : Bool} (h : ¬(x &&& pmHwV3drstn ≠ 0) = (release = true)) :
    ((x &&& ~~~pmHwV3drstn) ||| if release then pmHwV3drstn else 0) = x ^^^ pmHwV3drstn := by
  rcases reset_bit x with clear | set
  · cases release with
    | true => exact BitField.set_of_clear clear
    | false => exact absurd (by simp [clear]) h
  · cases release with
    | true => exact absurd (by rw [set]; simp [pmHwV3drstn]) h
    | false => exact (BitVec.or_zero).trans (BitField.clear_of_set set)

theorem Owned.masked (h : Owned before d w) : d.hw.expectedV3d &&& pmDataMask = d.hw.expectedV3d := by
  obtain ⟨same, -, masked⟩ := h.lease h.held h.safe
  rw [same, masked]

theorem Owned.writes (h : Owned before d w) :
    w.Allows (.wrote pmHwV3d (pmPassword ||| ((d.hw.expectedV3d ^^^ pmHwV3drstn) &&& pmDataMask))) := by
  obtain ⟨same, -, -⟩ := h.lease h.held h.safe
  refine ⟨rfl, h.owner ▸ h.held, h.boot ▸ h.safe, ?_⟩
  rw [BitField.xor_masked h.masked (by decide), same]

theorem Owned.written (h : Owned before d w) :
    Written (d.hw.expectedV3d ^^^ pmHwV3drstn) before d
      (w.saw (.wrote pmHwV3d (pmPassword ||| ((d.hw.expectedV3d ^^^ pmHwV3drstn) &&& pmDataMask)))) := by
  obtain ⟨-, first, -⟩ := h.lease h.held h.safe
  have fits : (d.hw.expectedV3d ^^^ pmHwV3drstn) &&& pmDataMask = d.hw.expectedV3d ^^^ pmHwV3drstn :=
    BitField.xor_masked h.masked (by decide)
  have value : (pmPassword ||| ((d.hw.expectedV3d ^^^ pmHwV3drstn) &&& pmDataMask)) &&& pmDataMask =
      d.hw.expectedV3d ^^^ pmHwV3drstn := by
    rw [fits, BitField.or_masked (by decide) fits]
  refine ⟨⟨⟨⟨h.owner, h.boot, h.hw, fun _ _ => ⟨value.symm, first, ?_⟩, h.later.boot, h.later.hw⟩, h.safe, h.hwSafe⟩,
    h.held⟩, fits⟩
  change ((_ &&& pmDataMask) &&& pmDataMask) = _ &&& pmDataMask
  rw [BitVec.and_assoc, BitVec.and_self]

theorem Written.read (h : Written value before d w) (offset : ℕ) (v : BitVec 32) :
    Written value before d (w.saw (.read offset v)) :=
  ⟨h.toOwned.read offset v, h.masked⟩

theorem Written.fails (h : Written value before d w) : d.owner = w.owner ∧ Later before d :=
  ⟨h.owner, h.later.boot, h.later.hw⟩

/-- A write that turns the reset bit over, and what is read back. -/
theorem moveReset_rule {x : BitVec 32} {release : Bool} (turn : ¬(x &&& pmHwV3drstn ≠ 0) = (release = true)) :
    Triple (Assert observer fun d w => d.hw.expectedV3d = x ∧ Owned before d w) (moveReset x release)
      (fun _ => Assert observer (Owned before)) fun e => Assert observer (Failed before e) := by
  unfold moveReset
  rw [toggled turn]
  refine Triple.bind (record_rule (B := Written (x ^^^ pmHwV3drstn) before) _ ?_ ?_) fun _ => ?_
  · rintro d w ⟨rfl, h⟩
    exact h.writes
  · rintro d w ⟨rfl, h⟩
    exact h.written
  refine Triple.bind (read_keeps _ fun d w value h => h.read _ _) fun after => ?_
  refine Triple.ite (fun _ => fail_rule fun _ _ h => h.fails) fun same => ?_
  refine Triple.bind (read_keeps _ fun d w value h => h.read _ _) fun legacy => glance_rule fun d => ?_
  refine Triple.ite (fun _ => fail_rule fun _ _ h => h.fails) fun _ => ?_
  obtain rfl := not_not.mp same
  refine setHw_rule fun d w h => ?_
  exact ⟨⟨⟨h.owner, h.boot, h.hw, h.lease, h.later.boot, h.later.hw⟩, h.safe, h.hwSafe⟩, h.held⟩

theorem pmHwSetV3dReset_rule (release : Bool) :
    Triple (Assert observer (Owned before)) (pmHwSetV3dReset release) (fun _ => Assert observer (Owned before))
      fun e => Assert observer (Failed before e) := by
  refine look_rule fun d => Triple.bind (require_rule fun no d' w h => ?_) fun _ => ?_
  · obtain ⟨rfl, h⟩ := h
    exact absurd h.hwSafe no
  refine assume_rule fun _ => ?_
  refine Triple.bind (read_keeps _ fun d' w value h => ⟨h.1, h.2.read _ _⟩) fun start => ?_
  refine Triple.bind (read_keeps _ fun d' w value h => ⟨h.1, h.2.read _ _⟩) fun legacy => ?_
  refine Triple.ite (fun _ => fail_rule fun _ _ h => h.2.fails) fun good => ?_
  refine Triple.ite (fun _ => Triple.pure fun _ hc => hc.mono fun _ _ h => h.2) fun turn => ?_
  have same : start = d.hw.expectedV3d := by
    by_contra other
    exact good (.inr (.inl other))
  refine (moveReset_rule turn).mono (fun c hc => hc.mono ?_) (fun _ _ => id) fun _ _ => id
  rintro d' w ⟨rfl, h⟩
  exact ⟨same.symm, h⟩

theorem pmHwRelease_rule :
    Triple (Assert observer (Owned before)) pmHwRelease
      (fun _ => Assert observer fun d w => Owned before d w ∧ w.last = some w.initial)
      fun e => Assert observer (Failed before e) := by
  refine look_rule fun d => Triple.bind (require_rule fun no d' w h => ?_) fun _ => assume_rule fun _ => ?_
  · obtain ⟨rfl, h⟩ := h
    exact absurd h.hwSafe no
  refine Triple.bind ((pmHwSetV3dReset_rule _).mono (fun c hc => hc.mono fun _ _ h => h.2) (fun _ _ => id)
    fun _ _ => id) fun _ => ?_
  refine Triple.bind (read_keeps _ fun d w value h => h.read _ _) fun legacy => look_rule fun d => ?_
  refine Triple.ite (fun _ => fail_rule fun _ _ h => h.2.fails) fun _ => ?_
  refine Triple.bind (read_rule (B := fun value d' w => d' = d ∧ Owned before d' w ∧ w.last = some value) _
    fun d' w value h _ => ⟨h.1, h.2.read _ _, rfl⟩) fun v3d => ?_
  refine Triple.ite (fun _ => fail_rule fun _ _ h => h.2.1.fails) fun same => Triple.pure fun c hc => hc.mono ?_
  rintro d' w ⟨rfl, h, last⟩
  obtain ⟨-, first, -⟩ := h.lease h.held h.safe
  exact ⟨h, by rw [last, ← first, not_not.mp same]⟩

theorem pmHwAcquire_rule :
    Triple (Assert observer fun d w => d.owner = none ∧ Fine before d w) pmHwAcquire
      (fun _ => Assert observer (Ready before)) fun e => Assert observer (Failed before e) := by
  have reads (offset : ℕ) {E : HwResult → Context → Prop} :
      Triple (Assert observer fun d w => d.owner = none ∧ Fine before d w) (read offset)
        (fun _ => Assert observer fun d w => d.owner = none ∧ Fine before d w) E :=
    read_keeps _ fun d w value h => ⟨h.1, h.2.read _ _⟩
  refine glance_rule fun d => Triple.bind (require_rule fun _ _ _ h => h.2.failed (by decide)) fun _ =>
    assume_rule fun _ => ?_
  refine Triple.bind (reads _) fun legacy => Triple.bind (reads _) fun v3d => ?_
  refine Triple.bind (require_rule fun _ _ _ h => h.2.failed (by decide)) fun _ => assume_rule fun _ => ?_
  refine Triple.bind (reads _) fun legacyAgain => ?_
  refine Triple.bind (require_rule fun _ _ _ h => h.2.failed (by decide)) fun _ => assume_rule fun _ => ?_
  refine Triple.bind (read_rule (B := fun value d w => value &&& pmDataMask = value ∧ w.last = some value ∧
    d.owner = none ∧ Fine before d w) _ fun d w value h masked => ⟨masked, rfl, h.1, h.2.read _ _⟩) fun v3dAgain => ?_
  refine Triple.bind (require_rule fun _ _ _ h => h.2.2.2.failed (by decide)) fun _ => assume_rule fun same => ?_
  subst same
  refine setHw_rule fun d w ⟨masked, last, free, h⟩ => ?_
  exact ⟨⟨⟨h.owner, h.boot, h.hw, fun held _ => absurd free held, h.later.boot, h.later.hw⟩, h.safe, h.hwSafe⟩, free,
    last, rfl, masked⟩

/-! ### The lease -/

section Requests

variable {A B : Driver → Watch → Prop} {E : Status → Context → Prop} {file : ℕ}

theorem pmSnapshot_rule : Triple (Assert observer A) pmSnapshot (fun _ => Assert observer A) E := by
  refine glance_rule fun d => Triple.when (fun _ => Triple.each fun offset _ => ?_) fun _ h _ => h
  exact Triple.bind (ask_rule _) fun value => record_rule _ (fun _ _ _ => trivial) fun _ _ h => h

/-- Both the driver and the observer know that the line is unsafe. -/
structure Faulted (before d : Driver) (w : Watch) : Prop extends Agrees before d w where
  boot_ : d.bootUnsafe = true

theorem pmFault_rule (h : ∀ d w, A d w → d.owner = w.owner ∧ Later before d) :
    Triple (Assert observer A) pmFault (fun _ => Assert observer (Faulted before)) E := by
  refine Triple.bind (record_rule (B := Broken before) _ (fun _ _ _ => trivial) fun d w hd => ?_) fun _ =>
    change_rule _ fun d w hd => ?_
  · exact ⟨(h d w hd).1, rfl, (h d w hd).2⟩
  · exact ⟨⟨hd.owner, hd.isUnsafe.symm, fun _ => rfl, fun _ safe => by simp at safe, fun _ => rfl, hd.later.hw⟩, rfl⟩

theorem pmResult_rule {x : Drive HwResult Unit}
    (h : Triple (Assert observer A) x (fun _ => Assert observer B) fun e => Assert observer (Failed before e)) :
    Triple (Assert observer A) (pmResult x) (fun _ => Assert observer B) fun _ => Assert observer (Agrees before) := by
  refine Triple.bind (Triple.attempt (R := fun r => Assert observer fun d w => match r with
    | .ok _ => B d w
    | .error e => Failed before e d w) h) fun r => ?_
  match r with
  | .ok _ => exact pmSnapshot_rule
  | .error .notReady | .error .invalid => exact Triple.stop fun c hc => hc.mono fun _ _ h => h.2 (by decide)
  | .error .fault =>
    refine Triple.bind pmSnapshot_rule fun _ => Triple.bind (pmFault_rule fun d w h => ?_) fun _ =>
      Triple.stop fun c hc => hc.mono fun _ _ h => h.toAgrees
    exact ⟨(h.1 rfl).owner, (h.1 rfl).later⟩

/-- A request that keeps what the driver and the observer agree on, however it ends. -/
abbrev Keeps (before : Driver) (x : Drive Status Unit) : Prop :=
  Triple (Assert observer (Agrees before)) x (fun _ => Assert observer (Agrees before))
    fun _ => Assert observer (Agrees before)

theorem pmAcquire_keeps (file : ℕ) (request : LeaseRequest) : Keeps before (pmAcquire file request) := by
  refine Triple.bind (require_rule fun _ _ _ h => h) fun _ => assume_rule fun _ => look_rule fun d => ?_
  refine Triple.bind (require_rule fun _ _ _ h => h.2) fun _ => assume_rule fun ready => ?_
  refine Triple.bind (require_rule fun _ _ _ h => h.2) fun _ => assume_rule fun free => ?_
  refine Triple.bind (pmResult_rule (pmHwAcquire_rule.mono (fun c hc => hc.mono ?_) (fun _ _ => id) fun _ _ => id))
    fun _ => ?_
  · rintro d' w ⟨rfl, h⟩
    exact ⟨free, h.fine ready.2⟩
  refine look_rule fun d => Triple.bind (record_rule (B := fun d w => Agrees before { d with owner := some file } w) _
    ?_ ?_) fun _ => ?_
  · rintro d' w ⟨rfl, h⟩
    exact ⟨h.owner ▸ h.free, h.boot ▸ h.safe, h.initial⟩
  · rintro d' w ⟨rfl, h⟩
    exact ⟨rfl, h.boot, h.hw, fun _ _ => ⟨h.expected, rfl, h.masked⟩, h.later.boot, h.later.hw⟩
  refine Triple.bind (change_rule (B := Agrees before) _ fun d w h => ?_) fun _ => pmSnapshot_rule
  exact ⟨h.owner, h.boot, h.hw, h.lease, h.later.boot, h.later.hw⟩

theorem pmTransition_keeps (file : ℕ) (request : Transition) : Keeps before (pmTransition file request) := by
  refine Triple.bind (require_rule fun _ _ _ h => h) fun _ => assume_rule fun _ => look_rule fun d => ?_
  refine Triple.bind (require_rule fun _ _ _ h => h.2) fun _ => assume_rule fun mine => ?_
  refine Triple.bind (require_rule fun _ _ _ h => h.2) fun _ => assume_rule fun safe => ?_
  have owned (c : Context) (hc : Assert observer (fun d' w => d' = d ∧ Agrees before d' w) c) :
      Assert observer (Owned before) c := hc.mono fun d' w ⟨eq, h⟩ => by
    subst eq
    exact ⟨h.fine safe, by simp [mine]⟩
  have agrees (c : Context) (hc : Assert observer (Owned before) c) : Assert observer (Agrees before) c :=
    hc.mono fun _ _ h => h.toAgrees
  have sets (release : Bool) : Triple (Assert observer (Owned before)) _ _ _ := pmHwSetV3dReset_rule release
  refine Triple.ite (fun _ => (pmResult_rule (sets true)).mono owned (fun _ => agrees) fun _ _ => id) fun _ => ?_
  refine Triple.ite (fun _ => (pmResult_rule (sets false)).mono owned (fun _ => agrees) fun _ _ => id) fun _ => ?_
  refine Triple.ite (fun _ => ?_) fun _ => Triple.stop fun c hc => hc.mono fun _ _ h => h.2
  refine Triple.bind (require_rule fun _ _ _ h => h.2) fun _ => assume_rule fun _ => ?_
  exact (pmResult_rule (Triple.bind (sets false) fun _ => sets true)).mono owned (fun _ => agrees) fun _ _ => id

theorem pmDropLease_keeps (file : ℕ) : Keeps before (pmDropLease file) := by
  refine look_rule fun d => Triple.bind (require_rule fun _ _ _ h => h.2) fun _ => assume_rule fun mine => ?_
  refine Triple.bind (require_rule fun _ _ _ h => h.2) fun _ => assume_rule fun safe => ?_
  refine Triple.bind (pmResult_rule (pmHwRelease_rule.mono (fun c hc => hc.mono ?_) (fun _ _ => id) fun _ _ => id))
    fun _ => ?_
  · rintro d' w ⟨rfl, h⟩
    exact ⟨h.fine safe, by simp [mine]⟩
  refine Triple.bind (record_rule (B := fun d w => Agrees before { d with owner := none } w) _ ?_ ?_) fun _ => ?_
  · rintro d w ⟨h, last⟩
    exact ⟨h.owner ▸ h.held, h.boot ▸ h.safe, last⟩
  · rintro d w ⟨h, last⟩
    exact ⟨rfl, h.boot, h.hw, fun held => absurd rfl held, h.later.boot, h.later.hw⟩
  refine Triple.bind (change_rule (B := Agrees before) _ fun d w h => ?_) fun _ => pmSnapshot_rule
  exact ⟨h.owner, h.boot, h.hw, fun held => absurd rfl held, h.later.boot, h.later.hw⟩

end Requests

end Rules

end Pi5Drivers.Pm
