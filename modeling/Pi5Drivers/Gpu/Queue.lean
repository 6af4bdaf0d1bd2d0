import Pi5Drivers.Lib.Ring
import Pi5Drivers.Lib.Runs

/-! The submission queue of the display miniport (`kmd/driver.cpp`, `Worker`, `Announce`, `SubmitCommand`, `Preempt`,
`ResetTimeout` and `RestartTimeout`). A section under the spin lock excludes other such sections only: flags are also read
and written without it, so every access of a section is a step of its own. Waits may end at any time. -/

namespace Pi5Drivers.Gpu.Queue

/-- `Submission`: a packet with its fence. -/
structure Submission (W : Type) where
  work : W
  fence : BitVec 32

/-- `RTL_NUMBER_OF(a->queue)`. -/
def queueSize : ℕ := 64

/-- `NTSTATUS`; zero is a success. -/
abbrev Status := BitVec 32

/-- What the worker finds in the queue. -/
inductive Found (W : Type)
  | nothing
  | preempt (fence : BitVec 32)
  | work (s : Submission W)

/-- Where the worker is. -/
inductive WorkerPc (W : Type)
  | looking
  | locked
  | unfaulted
  | allowed
  | found (f : Found W)
  | draining (fence : BitVec 32)
  | preempting (fence : BitVec 32)
  | entering (s : Submission W)
  | guarded (s : Submission W)
  | checked (s : Submission W)
  | running (s : Submission W)
  | finished (s : Submission W) (result : Status)
  | announcing (s : Submission W) (result : Status)

/-- Who is in a section under the spin lock, and how far. -/
inductive Holder (W : Type)
  | free
  | worker
  | submit (s : Submission W)
  | submitUnfaulted (s : Submission W)
  | submitAllowed (s : Submission W)

inductive ResetPc
  | none
  | waiting
  | idle
  | recovering
  | recovered
  | cleared
  deriving DecidableEq, Repr

inductive GpuHolder
  | free
  | worker
  | reset
  deriving DecidableEq, Repr

/-- What has happened, for the record. -/
inductive Entry (W : Type)
  | accepted (s : Submission W)
  | refused (s : Submission W)
  /-- `SubmitCommand` returns success while there is a fault or a reset, and queues nothing. -/
  | ignored (s : Submission W)
  | took (s : Submission W)
  | skipped (s : Submission W)
  | started (s : Submission W)
  | ended (s : Submission W) (result : Status)
  | completed (fence : BitVec 32)
  | flipped (fence : BitVec 32)
  | preempted (fence last : BitVec 32)
  /-- Nothing is queued any more. -/
  | emptied
  | faulted (status : Status)
  | unfaulted

structure Adapter (W : Type) where
  queue : ℕ → Submission W
  head : ℕ
  tail : ℕ
  fault : Status
  recovering : Bool
  preempt : BitVec 32
  preemptPending : Bool
  completed : BitVec 32
  submitted : BitVec 32
  holder : Holder W
  gpu : GpuHolder
  worker : WorkerPc W
  reset : ResetPc
  /-- `RestartTimeout` has read that there is no fault. -/
  restarting : Bool
  log : List (Entry W)

/-- A step of a thread; it comes with what the rest of the system answers. -/
inductive Event (W : Type)
  | workerLock
  | workerReadFault
  | workerReadRecovering
  | workerTake
  | workerUnlock
  | drained (status : Status)
  | announcePreempt (status : Status)
  | gpuLock
  | gpuReadFault
  | execute
  | executed (result : Status)
  | readCompleted
  | announce (status : Status)
  | submitLock (s : Submission W)
  | submitReadFault
  | submitReadRecovering
  | submitPush
  | preempt (fence : BitVec 32)
  | resetBegin
  | resetWait (idle : Bool)
  | resetGpuLock
  | resetRecover (status : Status)
  | resetClear
  | resetUnfault
  | restartRead
  | restartGo
  | flip (fence : BitVec 32)

section

variable {W : Type}

def Adapter.note (a : Adapter W) (e : Entry W) : Adapter W := { a with log := a.log ++ [e] }

/-- A fault stays that is already there. -/
def Adapter.raise (a : Adapter W) (status : Status) : Adapter W :=
  if a.fault = 0 then { a with fault := status, log := a.log ++ [.faulted status] } else a

/-- A fault that replaces another one. -/
def Adapter.setFault (a : Adapter W) (status : Status) : Adapter W := { a with fault := status, log := a.log ++ [.faulted status] }

/-- `Worker`, from the spin lock to what it takes. -/
def Adapter.take (a : Adapter W) : Adapter W :=
  if a.preemptPending then
    ({ a with head := a.tail, preemptPending := false, worker := .found (.preempt a.preempt) } : Adapter W).note .emptied
  else if a.head ≠ a.tail then
    ({ a with head := (a.head + 1) % queueSize, worker := .found (.work (a.queue a.head)) } : Adapter W).note (.took (a.queue a.head))
  else { a with worker := .found .nothing }

/-- `SubmitCommand`, from the checks on. -/
def Adapter.push (a : Adapter W) (s : Submission W) : Adapter W :=
  let next := (a.tail + 1) % queueSize
  if next = a.head then ({ a with holder := .free } : Adapter W).note (.refused s)
  else ({ a with queue := Function.update a.queue a.tail s, tail := next, submitted := s.fence, holder := .free } : Adapter W).note (.accepted s)

def Adapter.ignore (a : Adapter W) (s : Submission W) : Adapter W :=
  ({ a with submitted := s.fence, holder := .free } : Adapter W).note (.ignored s)

/-- `Announce`, of a finished submission. -/
def Adapter.announce (a : Adapter W) (s : Submission W) (result status : Status) : Adapter W :=
  if result ≠ 0 then ({ a with worker := .looking } : Adapter W).raise result
  else if status ≠ 0 then ({ a with worker := .looking } : Adapter W).setFault status
  else ({ a with worker := .looking, completed := s.fence } : Adapter W).note (.completed s.fence)

def Adapter.next (a : Adapter W) : Event W → Option (Adapter W)
  | .workerLock =>
    match a.worker, a.holder with
    | .looking, .free => some { a with worker := .locked, holder := .worker }
    | _, _ => none
  | .workerReadFault =>
    match a.worker with
    | .locked => some { a with worker := if a.fault = 0 then .unfaulted else .found .nothing }
    | _ => none
  | .workerReadRecovering =>
    match a.worker with
    | .unfaulted => some { a with worker := if a.recovering then .found .nothing else .allowed }
    | _ => none
  | .workerTake =>
    match a.worker with
    | .allowed => some a.take
    | _ => none
  | .workerUnlock =>
    match a.worker with
    | .found .nothing => some { a with worker := .looking, holder := .free }
    | .found (.preempt fence) => some { a with worker := .draining fence, holder := .free }
    | .found (.work s) => some { a with worker := .entering s, holder := .free }
    | _ => none
  | .drained status =>
    match a.worker with
    | .draining fence =>
      some (if status = 0 then { a with worker := .preempting fence } else ({ a with worker := .looking } : Adapter W).setFault status)
    | _ => none
  | .announcePreempt status =>
    match a.worker with
    | .preempting fence =>
      some (if status = 0 then ({ a with worker := .looking } : Adapter W).note (.preempted fence a.completed)
        else ({ a with worker := .looking } : Adapter W).setFault status)
    | _ => none
  | .gpuLock =>
    match a.worker, a.gpu with
    | .entering s, .free => some { a with worker := .guarded s, gpu := .worker }
    | _, _ => none
  | .gpuReadFault =>
    match a.worker with
    | .guarded s =>
      some (if a.fault = 0 then { a with worker := .checked s }
        else ({ a with worker := .finished s a.fault, gpu := .free } : Adapter W).note (.skipped s))
    | _ => none
  | .execute =>
    match a.worker with
    | .checked s => some (({ a with worker := .running s } : Adapter W).note (.started s))
    | _ => none
  | .executed result =>
    match a.worker with
    | .running s => some (({ a with worker := .finished s result, gpu := .free } : Adapter W).note (.ended s result))
    | _ => none
  | .readCompleted =>
    match a.worker with
    | .finished s result => some { a with worker := if a.completed = s.fence then .looking else .announcing s result }
    | _ => none
  | .announce status =>
    match a.worker with
    | .announcing s result => some (a.announce s result status)
    | _ => none
  | .submitLock s =>
    match a.holder with
    | .free => some { a with holder := .submit s }
    | _ => none
  | .submitReadFault =>
    match a.holder with
    | .submit s => some (if a.fault = 0 then { a with holder := .submitUnfaulted s } else a.ignore s)
    | _ => none
  | .submitReadRecovering =>
    match a.holder with
    | .submitUnfaulted s => some (if a.recovering then a.ignore s else { a with holder := .submitAllowed s })
    | _ => none
  | .submitPush =>
    match a.holder with
    | .submitAllowed s => some (a.push s)
    | _ => none
  | .preempt fence =>
    match a.holder with
    | .free => some { a with preempt := fence, preemptPending := true }
    | _ => none
  | .resetBegin =>
    match a.reset with
    | .none => some { a with recovering := true, reset := .waiting }
    | _ => none
  | .resetWait idle =>
    match a.reset with
    | .waiting => some { a with reset := if idle then .idle else .none }
    | _ => none
  | .resetGpuLock =>
    match a.reset, a.gpu with
    | .idle, .free => some { a with reset := .recovering, gpu := .reset }
    | _, _ => none
  | .resetRecover status =>
    match a.reset with
    | .recovering => some { a with reset := if status = 0 then .recovered else .none, gpu := .free }
    | _ => none
  | .resetClear =>
    match a.reset, a.holder with
    | .recovered, .free => some (({ a with head := 0, tail := 0, preemptPending := false, reset := .cleared } : Adapter W).note .emptied)
    | _, _ => none
  | .resetUnfault =>
    match a.reset with
    | .cleared => some (({ a with fault := 0, reset := .none } : Adapter W).note .unfaulted)
    | _ => none
  | .restartRead => some { a with restarting := a.fault = 0 }
  | .restartGo => if a.restarting then some { a with recovering := false, restarting := false } else none
  | .flip fence => some (({ a with completed := fence } : Adapter W).note (.flipped fence))

/-- The adapter as `Start` leaves it. -/
def started (queue : ℕ → Submission W) : Adapter W where
  queue
  head := 0
  tail := 0
  fault := 0
  recovering := false
  preempt := 0
  preemptPending := false
  completed := 0
  submitted := 0
  holder := .free
  gpu := .free
  worker := .looking
  reset := .none
  restarting := false
  log := []

def system (queue : ℕ → Submission W) : System (Adapter W) (Event W) := ⟨started queue, Adapter.next⟩

/-! ### What the record says -/

def acceptedOf (log : List (Entry W)) : List (Submission W) :=
  log.filterMap fun
    | .accepted s => some s
    | _ => none

def startedOf (log : List (Entry W)) : List (Submission W) :=
  log.filterMap fun
    | .started s => some s
    | _ => none

/-- The fences of submissions that were executed with success. -/
def succeededOf (log : List (Entry W)) : List (BitVec 32) :=
  log.filterMap fun
    | .ended s result => if result = 0 then some s.fence else none
    | _ => none

def completedOf (log : List (Entry W)) : List (BitVec 32) :=
  log.filterMap fun
    | .completed fence => some fence
    | _ => none

def faultStep (fault : Status) : Entry W → Status
  | .faulted status => status
  | .unfaulted => 0
  | _ => fault

def faultOf (log : List (Entry W)) : Status := log.foldl faultStep 0

/-- The submission that was taken and has not been dealt with. -/
def inflightStep (inflight : Option (Submission W)) : Entry W → Option (Submission W)
  | .took s => some s
  | .started _ => none
  | .skipped _ => none
  | _ => inflight

def inflightOf (log : List (Entry W)) : Option (Submission W) := log.foldl inflightStep none

end

/-! ### What a step does to the queue -/

section Moves

variable {W : Type} {a b : Adapter W} {e : Event W}

/-- The places of the queue that are used. -/
def Adapter.ring (a : Adapter W) : Ring (Submission W) := ⟨a.queue, a.tail, a.head, (a.tail + queueSize - a.head) % queueSize⟩

/-- What is queued, the oldest first. -/
def Adapter.waiting (a : Adapter W) : List (Submission W) := a.ring.contents queueSize

/-- What the worker has taken and not begun to execute. -/
def pending : WorkerPc W → Option (Submission W)
  | .found (.work s) => some s
  | .entering s => some s
  | .guarded s => some s
  | .checked s => some s
  | _ => none

def InRange (a : Adapter W) : Prop := a.head < queueSize ∧ a.tail < queueSize

theorem InRange.fits (h : InRange a) : a.ring.Fits queueSize := by
  obtain ⟨head, tail⟩ := h
  refine ⟨?_, head, (Nat.mod_lt _ (by decide)).le⟩
  change a.tail = (a.head + (a.tail + queueSize - a.head) % queueSize) % queueSize
  rw [queueSize] at *
  omega

/-- Entries that say nothing about the queue. -/
def Neutral : Entry W → Prop
  | .accepted _ => False
  | .took _ => False
  | .skipped _ => False
  | .started _ => False
  | .emptied => False
  | _ => True

/-- What a step does to the queue, with what it records. -/
inductive Moves (a b : Adapter W) : Option (Entry W) → Prop
  | quiet (new : Option (Entry W)) (neutral : ∀ n ∈ new, Neutral n) (queued : b.waiting = a.waiting) (same : pending b.worker = pending a.worker) :
    Moves a b new
  | accept (s : Submission W) (queued : b.waiting = a.waiting ++ [s]) (same : pending b.worker = pending a.worker) : Moves a b (some (.accepted s))
  | take (s : Submission W) (queued : a.waiting = s :: b.waiting) (before : pending a.worker = none) (after : pending b.worker = some s) :
    Moves a b (some (.took s))
  | skip (s : Submission W) (queued : b.waiting = a.waiting) (before : pending a.worker = some s) (after : pending b.worker = none) :
    Moves a b (some (.skipped s))
  | start (s : Submission W) (queued : b.waiting = a.waiting) (before : a.worker = .checked s) (after : pending b.worker = none) :
    Moves a b (some (.started s))
  | empty (queued : b.waiting = []) (same : pending b.worker = pending a.worker) : Moves a b (some .emptied)

/-- A step with its record. -/
def Step (a b : Adapter W) : Prop := InRange b ∧ ∃ new : Option (Entry W), b.log = a.log ++ new.toList ∧ Moves a b new

theorem InRange.of_ring (range : InRange a) (ring : b.ring = a.ring) : InRange b := by
  have head : b.head = a.head := congrArg Ring.tail ring
  have tail : b.tail = a.tail := congrArg Ring.head ring
  rwa [InRange, head, tail]

theorem Step.quiet (range : InRange a) (log : b.log = a.log) (ring : b.ring = a.ring) (same : pending b.worker = pending a.worker) : Step a b :=
  ⟨range.of_ring ring, none, by rw [log]; exact (List.append_nil _).symm,
    .quiet none (fun _ no => by cases no) (congrArg (Ring.contents queueSize) ring) same⟩

theorem Step.noted (range : InRange a) {n : Entry W} (neutral : Neutral n) (log : b.log = a.log ++ [n]) (ring : b.ring = a.ring)
    (same : pending b.worker = pending a.worker) : Step a b :=
  ⟨range.of_ring ring, some n, log, .quiet (some n) (fun _ mem => Option.some.inj mem ▸ neutral) (congrArg (Ring.contents queueSize) ring) same⟩

theorem waiting_nil (same : a.head = a.tail) : a.waiting = [] := by
  have none : (a.tail + queueSize - a.head) % queueSize = 0 := by
    rw [same, Nat.add_sub_cancel_left, Nat.mod_self]
  change (window queueSize a.head ((a.tail + queueSize - a.head) % queueSize)).map a.queue = []
  rw [none]
  rfl

theorem take_step (range : InRange a) (before : pending a.worker = none) : Step a a.take := by
  rw [Adapter.take]
  split
  · exact ⟨⟨range.2, range.2⟩, some .emptied, rfl, .empty (waiting_nil rfl) before.symm⟩
  split
  · refine ⟨⟨Nat.mod_lt _ (by decide), range.2⟩, some (.took (a.queue a.head)), rfl, .take (a.queue a.head) ?_ before rfl⟩
    have count : a.ring.count ≠ 0 := by
      change (a.tail + queueSize - a.head) % queueSize ≠ 0
      obtain ⟨head, tail⟩ := range
      rw [queueSize] at *
      omega
    rw [Adapter.waiting, Ring.contents_pop range.fits count]
    refine congrArg (a.queue a.head :: ·) ?_
    have less : a.ring.count - 1 = (a.tail + queueSize - (a.head + 1) % queueSize) % queueSize := by
      change (a.tail + queueSize - a.head) % queueSize - 1 = _
      obtain ⟨head, tail⟩ := range
      rw [queueSize] at *
      omega
    change _ = (window queueSize ((a.head + 1) % queueSize) ((a.tail + queueSize - (a.head + 1) % queueSize) % queueSize)).map a.queue
    rw [← less]
    rfl
  · exact Step.quiet range rfl rfl before.symm

theorem push_step (range : InRange a) (s : Submission W) : Step a (a.push s) := by
  rw [Adapter.push]
  split
  · exact Step.noted range (n := .refused s) trivial rfl rfl rfl
  rename_i room
  refine ⟨⟨range.1, Nat.mod_lt _ (by decide)⟩, some (.accepted s), rfl, .accept s ?_ rfl⟩
  have count : a.ring.count < queueSize := Nat.mod_lt _ (by decide)
  have more : a.ring.count + 1 = ((a.tail + 1) % queueSize + queueSize - a.head) % queueSize := by
    change (a.tail + queueSize - a.head) % queueSize + 1 = _
    obtain ⟨head, tail⟩ := range
    rw [queueSize] at *
    omega
  rw [Adapter.waiting, Adapter.waiting, ← Ring.contents_push range.fits count]
  change (window queueSize a.head (((a.tail + 1) % queueSize + queueSize - a.head) % queueSize)).map (Function.update a.queue a.tail s) =
    (window queueSize a.head (a.ring.count + 1)).map fun i => if i = a.tail then s else a.queue i
  rw [more]
  exact List.map_congr_left fun i _ => Function.update_apply a.queue a.tail s i

theorem raise_step (range : InRange a) (status : Status) (pc : WorkerPc W) (same : pending pc = pending a.worker) :
    Step a (({ a with worker := pc } : Adapter W).raise status) := by
  rw [Adapter.raise]
  split
  · exact Step.noted range (n := .faulted status) trivial rfl rfl same
  · exact Step.quiet range rfl rfl same

theorem announce_step (range : InRange a) (s : Submission W) (result status : Status) (none : pending a.worker = none) :
    Step a (a.announce s result status) := by
  rw [Adapter.announce]
  split
  · exact raise_step range result .looking none.symm
  split
  · exact Step.noted range (n := .faulted status) trivial rfl rfl none.symm
  · exact Step.noted range (n := .completed s.fence) trivial rfl rfl none.symm

/-- Every step does one of these. -/
theorem next_step (range : InRange a) (h : a.next e = some b) : Step a b := by
  cases e with
  | workerTake =>
    rw [Adapter.next] at h
    split at h
    · rename_i pc
      exact Option.some.inj h ▸ take_step range (by rw [pc]; rfl)
    · cases h
  | submitPush =>
    rw [Adapter.next] at h
    split at h
    · exact Option.some.inj h ▸ push_step range _
    · cases h
  | announce status =>
    rw [Adapter.next] at h
    split at h
    · rename_i pc
      exact Option.some.inj h ▸ announce_step range _ _ status (by rw [pc]; rfl)
    · cases h
  | resetClear =>
    rw [Adapter.next] at h
    split at h
    · exact Option.some.inj h ▸ ⟨⟨Nat.succ_pos 63, Nat.succ_pos 63⟩, some .emptied, rfl, .empty (waiting_nil rfl) rfl⟩
    · cases h
  | execute =>
    rw [Adapter.next] at h
    split at h
    · rename_i s pc
      exact Option.some.inj h ▸ ⟨range, some (.started s), rfl, .start s rfl pc rfl⟩
    · cases h
  | gpuReadFault =>
    rw [Adapter.next] at h
    split at h
    · rename_i s pc
      obtain rfl := Option.some.inj h
      split
      · exact Step.quiet range rfl rfl (by rw [pc]; rfl)
      · exact ⟨range, some (.skipped s), rfl, .skip s rfl (by rw [pc]; rfl) rfl⟩
    · cases h
  | drained status =>
    rw [Adapter.next] at h
    split at h
    · rename_i pc
      obtain rfl := Option.some.inj h
      split
      · exact Step.quiet range rfl rfl (by rw [pc]; rfl)
      · exact Step.noted range (n := .faulted status) trivial rfl rfl (by rw [pc]; rfl)
    · cases h
  | announcePreempt status =>
    rw [Adapter.next] at h
    split at h
    · rename_i fence pc
      obtain rfl := Option.some.inj h
      split
      · exact Step.noted range (n := .preempted fence a.completed) trivial rfl rfl (by rw [pc]; rfl)
      · exact Step.noted range (n := .faulted status) trivial rfl rfl (by rw [pc]; rfl)
    · cases h
  | executed result =>
    rw [Adapter.next] at h
    split at h
    · rename_i s pc
      exact Option.some.inj h ▸ Step.noted range (n := .ended s result) trivial rfl rfl (by rw [pc]; rfl)
    · cases h
  | flip fence => exact Option.some.inj h ▸ Step.noted range (n := .flipped fence) trivial rfl rfl rfl
  | resetUnfault =>
    rw [Adapter.next] at h
    split at h
    · exact Option.some.inj h ▸ Step.noted range (n := .unfaulted) trivial rfl rfl rfl
    · cases h
  | submitReadFault =>
    rw [Adapter.next] at h
    split at h
    · rename_i s pc
      obtain rfl := Option.some.inj h
      split
      · exact Step.quiet range rfl rfl rfl
      · exact Step.noted range (n := .ignored s) trivial rfl rfl rfl
    · cases h
  | submitReadRecovering =>
    rw [Adapter.next] at h
    split at h
    · rename_i s pc
      obtain rfl := Option.some.inj h
      split
      · exact Step.noted range (n := .ignored s) trivial rfl rfl rfl
      · exact Step.quiet range rfl rfl rfl
    · cases h
  | workerUnlock =>
    rw [Adapter.next] at h
    split at h
    · rename_i pc
      exact Option.some.inj h ▸ Step.quiet range rfl rfl (by rw [pc]; rfl)
    · rename_i pc
      exact Option.some.inj h ▸ Step.quiet range rfl rfl (by rw [pc]; rfl)
    · rename_i pc
      exact Option.some.inj h ▸ Step.quiet range rfl rfl (by rw [pc]; rfl)
    · cases h
  | workerLock | gpuLock =>
    rw [Adapter.next] at h
    split at h
    · rename_i pc _
      exact Option.some.inj h ▸ Step.quiet range rfl rfl (by rw [pc]; rfl)
    · cases h
  | workerReadFault | workerReadRecovering | readCompleted =>
    rw [Adapter.next] at h
    split at h
    · rename_i pc
      obtain rfl := Option.some.inj h
      exact Step.quiet range rfl rfl (by rw [pc]; dsimp only; split <;> rfl)
    · cases h
  | restartGo =>
    rw [Adapter.next] at h
    split at h
    · exact Option.some.inj h ▸ Step.quiet range rfl rfl rfl
    · cases h
  | restartRead => exact Option.some.inj h ▸ Step.quiet range rfl rfl rfl
  | _ =>
    rw [Adapter.next] at h
    split at h
    · exact Option.some.inj h ▸ Step.quiet range rfl rfl rfl
    · cases h

end Moves

/-! ### Faults, and who has the GPU -/

section Faults

variable {W : Type} {a b : Adapter W} {e : Event W}

/-- The worker has the GPU. -/
def HoldsGpu : WorkerPc W → Prop
  | .guarded _ => True
  | .checked _ => True
  | .running _ => True
  | _ => False

/-- The fault is what the record says, a submission that is about to be executed has been found without one, and the GPU
belongs to one side only. -/
structure Guarded (a : Adapter W) : Prop where
  fault : a.fault = faultOf a.log
  checked : ∀ s, a.worker = .checked s → a.fault = 0
  worker : a.gpu = .worker ↔ HoldsGpu a.worker
  reset : a.gpu = .reset ↔ a.reset = .recovering

theorem faultOf_append (log : List (Entry W)) (e : Entry W) : faultOf (log ++ [e]) = faultStep (faultOf log) e := by
  rw [faultOf, List.foldl_append]
  rfl

/-- A step that records nothing about faults, and leaves the GPU alone. -/
theorem Guarded.still (g : Guarded a) (log : faultOf b.log = faultOf a.log) (fault : b.fault = a.fault) (gpu : b.gpu = a.gpu) (reset : b.reset = a.reset)
    (worker : b.worker = a.worker ∨ ¬HoldsGpu a.worker ∧ ¬HoldsGpu b.worker) : Guarded b := by
  refine ⟨by rw [fault, log, g.fault], fun s here => ?_, ?_, by rw [gpu, reset, g.reset]⟩
  · rcases worker with same | ⟨-, left⟩
    · exact fault ▸ g.checked s (same ▸ here)
    · exact absurd (by rw [here]; trivial) left
  · rw [gpu, g.worker]
    rcases worker with same | ⟨unheld, left⟩
    · rw [same]
    · exact iff_of_false unheld left

theorem Guarded.record (g : Guarded a) (n : Entry W) (neutral : ∀ f, faultStep f n = f) (log : b.log = a.log ++ [n]) (fault : b.fault = a.fault)
    (gpu : b.gpu = a.gpu) (reset : b.reset = a.reset) (worker : b.worker = a.worker ∨ ¬HoldsGpu a.worker ∧ ¬HoldsGpu b.worker) : Guarded b :=
  g.still (by rw [log, faultOf_append, neutral]) fault gpu reset worker

/-- The worker lets go of the GPU. -/
theorem Guarded.release (g : Guarded a) (held : HoldsGpu a.worker) (fault : b.fault = a.fault) (log : faultOf b.log = faultOf a.log) (gpu : b.gpu = .free)
    (reset : b.reset = a.reset) (checked : ∀ s, b.worker ≠ .checked s) (left : ¬HoldsGpu b.worker) : Guarded b := by
  refine ⟨by rw [fault, log, g.fault], fun s here => absurd here (checked s), ?_, ?_⟩
  · rw [gpu]
    exact iff_of_false (by decide) left
  · rw [gpu, reset, ← g.reset, g.worker.mpr held]
    exact iff_of_false (fun no => by cases no) fun no => by cases no

/-- The worker notes a fault. -/
theorem Guarded.setFault (g : Guarded a) (unheld : ¬HoldsGpu a.worker) (status : Status) :
    Guarded (({ a with worker := .looking } : Adapter W).setFault status) := by
  refine ⟨(faultOf_append a.log (.faulted status)).symm, fun s here => ?_, ?_, g.reset⟩
  · cases here
  · exact ⟨fun held => absurd (g.worker.mp held) unheld, fun no => no.elim⟩

theorem next_guarded (g : Guarded a) (h : a.next e = some b) : Guarded b := by
  cases e with
  | workerLock =>
    rw [Adapter.next] at h
    split at h
    · rename_i pc _
      exact Option.some.inj h ▸ g.still rfl rfl rfl rfl (.inr ⟨by rw [pc]; exact id, id⟩)
    · cases h
  | workerReadFault | workerReadRecovering | readCompleted =>
    rw [Adapter.next] at h
    split at h
    · rename_i pc
      refine Option.some.inj h ▸ g.still rfl rfl rfl rfl (.inr ⟨by rw [pc]; exact id, ?_⟩)
      dsimp only
      split <;> exact id
    · cases h
  | workerTake =>
    rw [Adapter.next] at h
    split at h
    · rename_i pc
      have unheld : ¬HoldsGpu a.worker := by rw [pc]; exact id
      rw [← Option.some.inj h, Adapter.take]
      split
      · exact g.record .emptied (fun _ => rfl) rfl rfl rfl rfl (.inr ⟨unheld, id⟩)
      split
      · exact g.record (.took (a.queue a.head)) (fun _ => rfl) rfl rfl rfl rfl (.inr ⟨unheld, id⟩)
      · exact g.still rfl rfl rfl rfl (.inr ⟨unheld, id⟩)
    · cases h
  | workerUnlock =>
    rw [Adapter.next] at h
    split at h
    · rename_i pc
      exact Option.some.inj h ▸ g.still rfl rfl rfl rfl (.inr ⟨by rw [pc]; exact id, id⟩)
    · rename_i pc
      exact Option.some.inj h ▸ g.still rfl rfl rfl rfl (.inr ⟨by rw [pc]; exact id, id⟩)
    · rename_i pc
      exact Option.some.inj h ▸ g.still rfl rfl rfl rfl (.inr ⟨by rw [pc]; exact id, id⟩)
    · cases h
  | drained status =>
    rw [Adapter.next] at h
    split at h
    · rename_i pc
      have unheld : ¬HoldsGpu a.worker := by rw [pc]; exact id
      obtain rfl := Option.some.inj h
      split
      · exact g.still rfl rfl rfl rfl (.inr ⟨unheld, id⟩)
      · exact g.setFault unheld status
    · cases h
  | announcePreempt status =>
    rw [Adapter.next] at h
    split at h
    · rename_i fence pc
      have unheld : ¬HoldsGpu a.worker := by rw [pc]; exact id
      obtain rfl := Option.some.inj h
      split
      · exact g.record (.preempted fence a.completed) (fun _ => rfl) rfl rfl rfl rfl (.inr ⟨unheld, id⟩)
      · exact g.setFault unheld status
    · cases h
  | announce status =>
    rw [Adapter.next] at h
    split at h
    · rename_i s result pc
      have unheld : ¬HoldsGpu a.worker := by rw [pc]; exact id
      rw [← Option.some.inj h, Adapter.announce]
      split
      · rw [Adapter.raise]
        split
        · exact g.setFault unheld result
        · exact g.still rfl rfl rfl rfl (.inr ⟨unheld, id⟩)
      split
      · exact g.setFault unheld status
      · exact g.record (.completed s.fence) (fun _ => rfl) rfl rfl rfl rfl (.inr ⟨unheld, id⟩)
    · cases h
  | gpuLock =>
    rw [Adapter.next] at h
    split at h
    · rename_i free
      rw [← Option.some.inj h]
      refine ⟨g.fault, fun s here => ?_, ⟨fun _ => trivial, fun _ => rfl⟩, ?_⟩
      · cases here
      · rw [← g.reset, free]
        exact iff_of_false (fun no => by cases no) fun no => by cases no
    · cases h
  | gpuReadFault =>
    rw [Adapter.next] at h
    split at h
    · rename_i s pc
      have held : HoldsGpu a.worker := by rw [pc]; trivial
      obtain rfl := Option.some.inj h
      split
      · rename_i none
        exact ⟨g.fault, fun _ _ => none, ⟨fun _ => trivial, fun _ => g.worker.mpr held⟩, g.reset⟩
      · exact g.release held rfl ((faultOf_append a.log (.skipped s)).trans rfl) rfl rfl (fun _ no => by cases no) id
    · cases h
  | execute =>
    rw [Adapter.next] at h
    split at h
    · rename_i s pc
      have held : HoldsGpu a.worker := by rw [pc]; trivial
      rw [← Option.some.inj h]
      exact ⟨g.fault.trans (faultOf_append a.log (.started s)).symm, fun _ no => (by cases no), ⟨fun _ => trivial, fun _ => g.worker.mpr held⟩, g.reset⟩
    · cases h
  | executed result =>
    rw [Adapter.next] at h
    split at h
    · rename_i s pc
      have held : HoldsGpu a.worker := by rw [pc]; trivial
      rw [← Option.some.inj h]
      exact g.release held rfl ((faultOf_append a.log (.ended s result)).trans rfl) rfl rfl (fun _ no => by cases no) id
    · cases h
  | submitPush =>
    rw [Adapter.next] at h
    split at h
    · rw [← Option.some.inj h, Adapter.push]
      split
      · exact g.record (.refused _) (fun _ => rfl) rfl rfl rfl rfl (.inl rfl)
      · exact g.record (.accepted _) (fun _ => rfl) rfl rfl rfl rfl (.inl rfl)
    · cases h
  | submitReadFault | submitReadRecovering =>
    rw [Adapter.next] at h
    split at h
    · rename_i s pc
      obtain rfl := Option.some.inj h
      split
      all_goals first
        | exact g.still rfl rfl rfl rfl (.inl rfl)
        | exact g.record (.ignored s) (fun _ => rfl) rfl rfl rfl rfl (.inl rfl)
    · cases h
  | resetGpuLock =>
    rw [Adapter.next] at h
    split at h
    · rename_i free
      rw [← Option.some.inj h]
      refine ⟨g.fault, g.checked, ?_, ⟨fun _ => rfl, fun _ => rfl⟩⟩
      rw [← g.worker, free]
      exact iff_of_false (fun no => by cases no) fun no => by cases no
    · cases h
  | resetRecover status =>
    rw [Adapter.next] at h
    split at h
    · rename_i pc
      rw [← Option.some.inj h]
      refine ⟨g.fault, g.checked, ?_, ?_⟩
      · rw [← g.worker, g.reset.mpr pc]
        exact iff_of_false (fun no => by cases no) fun no => by cases no
      · dsimp only
        split <;> exact iff_of_false (fun no => by cases no) fun no => by cases no
    · cases h
  | resetBegin =>
    rw [Adapter.next] at h
    split at h
    · rename_i pc
      rw [← Option.some.inj h]
      refine ⟨g.fault, g.checked, g.worker, ?_⟩
      rw [g.reset, pc]
      exact iff_of_false (fun no => by cases no) fun no => by cases no
    · cases h
  | resetWait idle =>
    rw [Adapter.next] at h
    split at h
    · rename_i pc
      rw [← Option.some.inj h]
      refine ⟨g.fault, g.checked, g.worker, ?_⟩
      rw [g.reset, pc]
      dsimp only
      split <;> exact iff_of_false (fun no => by cases no) fun no => by cases no
    · cases h
  | resetClear =>
    rw [Adapter.next] at h
    split at h
    · rename_i pc _
      rw [← Option.some.inj h]
      refine ⟨g.fault.trans (faultOf_append a.log .emptied).symm, g.checked, g.worker, ?_⟩
      change a.gpu = .reset ↔ _
      rw [g.reset, pc]
      exact iff_of_false (fun no => by cases no) fun no => by cases no
    · cases h
  | resetUnfault =>
    rw [Adapter.next] at h
    split at h
    · rename_i pc
      rw [← Option.some.inj h]
      refine ⟨(faultOf_append a.log .unfaulted).symm, fun _ _ => rfl, g.worker, ?_⟩
      change a.gpu = .reset ↔ _
      rw [g.reset, pc]
      exact iff_of_false (fun no => by cases no) fun no => by cases no
    · cases h
  | restartGo =>
    rw [Adapter.next] at h
    split at h
    · exact Option.some.inj h ▸ g.still rfl rfl rfl rfl (.inl rfl)
    · cases h
  | restartRead => exact Option.some.inj h ▸ g.still rfl rfl rfl rfl (.inl rfl)
  | flip fence => exact Option.some.inj h ▸ g.record (.flipped fence) (fun _ => rfl) rfl rfl rfl rfl (.inl rfl)
  | _ =>
    rw [Adapter.next] at h
    split at h
    · exact Option.some.inj h ▸ g.still rfl rfl rfl rfl (.inl rfl)
    · cases h

end Faults

/-! ### Fences -/

section Fences

variable {W : Type} {a b : Adapter W} {e : Event W}

/-- The fence that the worker is about to announce. -/
def promised : WorkerPc W → List (BitVec 32)
  | .finished s result => if result = 0 then [s.fence] else []
  | .announcing s result => if result = 0 then [s.fence] else []
  | _ => []

/-- Fences are announced of submissions that have succeeded. -/
def Promises (a : Adapter W) : Prop := (completedOf a.log ++ promised a.worker).Sublist (succeededOf a.log)

theorem completedOf_append (log : List (Entry W)) (n : Entry W) : completedOf (log ++ [n]) = completedOf log ++ completedOf [n] := List.filterMap_append

theorem succeededOf_append (log : List (Entry W)) (n : Entry W) : succeededOf (log ++ [n]) = succeededOf log ++ succeededOf [n] := List.filterMap_append

theorem Promises.still (had : Promises a) (log : b.log = a.log) (fewer : (promised b.worker).Sublist (promised a.worker)) : Promises b := by
  rw [Promises, log]
  exact (fewer.append_left _).trans had

theorem Promises.record (had : Promises a) (n : Entry W) (completed : completedOf [n] = []) (succeeded : succeededOf [n] = [])
    (log : b.log = a.log ++ [n]) (fewer : (promised b.worker).Sublist (promised a.worker)) : Promises b := by
  rw [Promises, log, completedOf_append, succeededOf_append, completed, succeeded, List.append_nil, List.append_nil]
  exact (fewer.append_left _).trans had

theorem raise_promises (had : Promises a) (status : Status) : Promises (({ a with worker := .looking } : Adapter W).raise status) := by
  rw [Adapter.raise]
  split
  · exact had.record (.faulted status) rfl rfl rfl (List.nil_sublist _)
  · exact had.still rfl (List.nil_sublist _)

theorem next_promises (had : Promises a) (h : a.next e = some b) : Promises b := by
  cases e with
  | executed result =>
    rw [Adapter.next] at h
    split at h
    · rename_i s pc
      rw [← Option.some.inj h, Promises]
      change (completedOf (a.log ++ [.ended s result]) ++ promised (.finished s result)).Sublist (succeededOf (a.log ++ [.ended s result]))
      rw [completedOf_append, succeededOf_append]
      have before : (completedOf a.log).Sublist (succeededOf a.log) := (List.sublist_append_left _ _).trans had
      refine List.Sublist.append ((List.append_nil _).symm ▸ before) ?_
      by_cases success : result = 0
      · simp [promised, succeededOf, success]
      · rw [promised, if_neg success]
        exact List.nil_sublist _
    · cases h
  | announce status =>
    rw [Adapter.next] at h
    split at h
    · rename_i s result pc
      rw [← Option.some.inj h, Adapter.announce]
      split
      · exact raise_promises had result
      rename_i success
      split
      · exact had.record (.faulted status) rfl rfl rfl (List.nil_sublist _)
      · rw [Promises]
        change (completedOf (a.log ++ [Entry.completed s.fence]) ++ []).Sublist (succeededOf (a.log ++ [Entry.completed s.fence]))
        rw [Promises, pc, promised, if_pos (not_not.mp success)] at had
        rw [completedOf_append, succeededOf_append, List.append_nil]
        exact had.trans (List.sublist_append_left _ _)
    · cases h
  | gpuReadFault =>
    rw [Adapter.next] at h
    split at h
    · rename_i s pc
      obtain rfl := Option.some.inj h
      split
      · exact had.still rfl (List.nil_sublist _)
      · rename_i fault
        refine had.record (.skipped s) rfl rfl rfl ?_
        change (promised (.finished s a.fault)).Sublist _
        rw [promised, if_neg fault]
        exact List.nil_sublist _
    · cases h
  | readCompleted =>
    rw [Adapter.next] at h
    split at h
    · rename_i s result pc
      obtain rfl := Option.some.inj h
      refine had.still rfl ?_
      rw [pc]
      dsimp only
      split
      · exact List.nil_sublist _
      · exact List.Sublist.refl _
    · cases h
  | workerTake =>
    rw [Adapter.next] at h
    split at h
    · rw [← Option.some.inj h, Adapter.take]
      split
      · exact had.record .emptied rfl rfl rfl (List.nil_sublist _)
      split
      · exact had.record (.took (a.queue a.head)) rfl rfl rfl (List.nil_sublist _)
      · exact had.still rfl (List.nil_sublist _)
    · cases h
  | drained status =>
    rw [Adapter.next] at h
    split at h
    · obtain rfl := Option.some.inj h
      split
      · exact had.still rfl (List.nil_sublist _)
      · exact had.record (.faulted status) rfl rfl rfl (List.nil_sublist _)
    · cases h
  | announcePreempt status =>
    rw [Adapter.next] at h
    split at h
    · obtain rfl := Option.some.inj h
      split
      · exact had.record (.preempted _ _) rfl rfl rfl (List.nil_sublist _)
      · exact had.record (.faulted status) rfl rfl rfl (List.nil_sublist _)
    · cases h
  | execute =>
    rw [Adapter.next] at h
    split at h
    · exact Option.some.inj h ▸ had.record (.started _) rfl rfl rfl (List.nil_sublist _)
    · cases h
  | submitPush =>
    rw [Adapter.next] at h
    split at h
    · rw [← Option.some.inj h, Adapter.push]
      split
      · exact had.record (.refused _) rfl rfl rfl (List.Sublist.refl _)
      · exact had.record (.accepted _) rfl rfl rfl (List.Sublist.refl _)
    · cases h
  | submitReadFault | submitReadRecovering =>
    rw [Adapter.next] at h
    split at h
    · rename_i s pc
      obtain rfl := Option.some.inj h
      split
      all_goals first
        | exact had.still rfl (List.Sublist.refl _)
        | exact had.record (.ignored s) rfl rfl rfl (List.Sublist.refl _)
    · cases h
  | resetClear =>
    rw [Adapter.next] at h
    split at h
    · exact Option.some.inj h ▸ had.record .emptied rfl rfl rfl (List.Sublist.refl _)
    · cases h
  | resetUnfault =>
    rw [Adapter.next] at h
    split at h
    · exact Option.some.inj h ▸ had.record .unfaulted rfl rfl rfl (List.Sublist.refl _)
    · cases h
  | flip fence => exact Option.some.inj h ▸ had.record (.flipped fence) rfl rfl rfl (List.Sublist.refl _)
  | restartRead => exact Option.some.inj h ▸ had.still rfl (List.Sublist.refl _)
  | workerLock | workerReadFault | workerReadRecovering | gpuLock =>
    rw [Adapter.next] at h
    split at h
    · refine Option.some.inj h ▸ had.still rfl ?_
      dsimp only
      repeat' split
      all_goals exact List.nil_sublist _
    · cases h
  | workerUnlock =>
    rw [Adapter.next] at h
    split at h
    · exact Option.some.inj h ▸ had.still rfl (List.nil_sublist _)
    · exact Option.some.inj h ▸ had.still rfl (List.nil_sublist _)
    · exact Option.some.inj h ▸ had.still rfl (List.nil_sublist _)
    · cases h
  | _ =>
    rw [Adapter.next] at h
    split at h
    · exact Option.some.inj h ▸ had.still rfl (List.Sublist.refl _)
    · cases h

end Fences

/-! ### The order of submissions -/

section Order

variable {W : Type} {a b : Adapter W} {e : Event W} {new : Option (Entry W)} {first : Option (Submission W)} {log later : List (Entry W)}

/-- What was accepted waits behind the rest, and what was executed or taken came from `first` and the rest, in its order. -/
def Ordered (first : Option (Submission W)) (later : List (Entry W)) (a : Adapter W) : Prop :=
  ∃ past, acceptedOf later = past ++ a.waiting ∧ (startedOf later ++ (pending a.worker).toList).Sublist (first.toList ++ past)

theorem acceptedOf_append (log more : List (Entry W)) : acceptedOf (log ++ more) = acceptedOf log ++ acceptedOf more := List.filterMap_append

theorem startedOf_append (log more : List (Entry W)) : startedOf (log ++ more) = startedOf log ++ startedOf more := List.filterMap_append

theorem Neutral.nothing {n : Entry W} (neutral : Neutral n) : acceptedOf [n] = [] ∧ startedOf [n] = [] ∧ ∀ i, inflightStep i n = i := by
  cases n with
  | accepted | took | skipped | started | emptied => exact neutral.elim
  | _ => exact ⟨rfl, rfl, fun _ => rfl⟩

theorem Moves.ordered (moves : Moves a b new) (had : Ordered first later a) : Ordered first (later ++ new.toList) b := by
  obtain ⟨past, accepted, started⟩ := had
  rw [Ordered, acceptedOf_append, startedOf_append, accepted]
  cases moves with
  | quiet _ neutral queued same =>
    refine ⟨past, ?_, ?_⟩
    · rcases new with _ | n
      · rw [queued]
        exact List.append_nil _
      · rw [queued, Option.toList_some, (neutral n rfl).nothing.1, List.append_nil]
    · rw [same]
      rcases new with _ | n
      · exact (List.append_nil (startedOf later)).symm ▸ started
      · rwa [Option.toList_some, (neutral n rfl).nothing.2.1, List.append_nil]
  | accept s queued same =>
    refine ⟨past, ?_, ?_⟩
    · rw [queued, List.append_assoc]
      rfl
    · rw [same]
      exact (List.append_nil (startedOf later)).symm ▸ started
  | take s queued before after =>
    refine ⟨past ++ [s], ?_, ?_⟩
    · rw [queued, List.append_assoc, List.append_assoc]
      exact congrArg (past ++ ·) (List.append_nil _)
    · rw [before] at started
      rw [after, ← List.append_assoc]
      refine List.Sublist.append ?_ (List.Sublist.refl _)
      exact started
  | skip s queued before after =>
    refine ⟨past, ?_, ?_⟩
    · rw [queued]
      exact List.append_nil _
    · rw [after]
      change (startedOf later ++ [] ++ []).Sublist _
      rw [List.append_nil, List.append_nil]
      exact (List.sublist_append_left _ _).trans started
  | start s queued before after =>
    refine ⟨past, ?_, ?_⟩
    · rw [queued]
      exact List.append_nil _
    · rw [before] at started
      rw [after]
      change (startedOf later ++ [s] ++ []).Sublist _
      rwa [List.append_nil]
  | empty queued same =>
    refine ⟨past ++ a.waiting, ?_, ?_⟩
    · rw [queued]
      rfl
    · rw [same, ← List.append_assoc]
      exact ((List.append_nil (startedOf later)).symm ▸ started).trans (List.sublist_append_left _ _)

theorem inflightOf_append (log : List (Entry W)) (n : Entry W) : inflightOf (log ++ [n]) = inflightStep (inflightOf log) n := by
  rw [inflightOf, List.foldl_append]
  rfl

theorem Moves.inflight (moves : Moves a b new) (had : inflightOf log = pending a.worker) : inflightOf (log ++ new.toList) = pending b.worker := by
  cases moves with
  | quiet _ neutral queued same =>
    rw [same, ← had]
    rcases new with _ | n
    · exact congrArg inflightOf (List.append_nil log)
    · rw [Option.toList_some, inflightOf_append, (neutral n rfl).nothing.2.2]
  | accept s queued same =>
    rw [same, ← had, Option.toList_some, inflightOf_append]
    rfl
  | take s queued before after =>
    rw [after, Option.toList_some, inflightOf_append]
    rfl
  | skip s queued before after =>
    rw [after, Option.toList_some, inflightOf_append]
    rfl
  | start s queued before after =>
    rw [after, Option.toList_some, inflightOf_append]
    rfl
  | empty queued same =>
    rw [same, ← had, Option.toList_some, inflightOf_append]
    rfl

/-- What holds in every reachable state. -/
structure Inv (a : Adapter W) : Prop where
  range : InRange a
  guarded : Guarded a
  promises : Promises a
  inflight : inflightOf a.log = pending a.worker
  ordered : Ordered none a.log a
  emptied : ∀ earlier later, a.log = earlier ++ .emptied :: later → Ordered (inflightOf earlier) later a
  unfaulted : ∀ earlier s later, a.log = earlier ++ .started s :: later → faultOf earlier = 0

/-- An entry of a record that has grown is an old one, or the new one. -/
theorem split_append {l : List (Entry W)} {new : Option (Entry W)} {earlier later : List (Entry W)} {n : Entry W}
    (same : l ++ new.toList = earlier ++ n :: later) :
    (∃ before, l = earlier ++ n :: before ∧ later = before ++ new.toList) ∨ later = [] ∧ l = earlier ∧ new = some n := by
  rcases new with _ | m
  · exact .inl ⟨later, (List.append_nil l).symm.trans same, (List.append_nil later).symm⟩
  rcases List.eq_nil_or_concat later with rfl | ⟨before, x, rfl⟩
  · obtain ⟨rfl, last⟩ := List.append_inj' same rfl
    exact .inr ⟨rfl, rfl, congrArg some (List.cons.inj last).1⟩
  · rw [List.concat_eq_append, ← List.cons_append, ← List.append_assoc] at same
    obtain ⟨rfl, last⟩ := List.append_inj' same rfl
    refine .inl ⟨before, rfl, ?_⟩
    rw [List.concat_eq_append, (List.cons.inj last).1]
    rfl

theorem next_inv (inv : Inv a) (h : a.next e = some b) : Inv b := by
  obtain ⟨range, new, log, moves⟩ := next_step inv.range h
  refine ⟨range, next_guarded inv.guarded h, next_promises inv.promises h, log ▸ moves.inflight inv.inflight, log ▸ moves.ordered inv.ordered,
    fun earlier later same => ?_, fun earlier s later same => ?_⟩
  · rcases split_append (log.symm.trans same) with ⟨before, old, rfl⟩ | ⟨rfl, rfl, rfl⟩
    · exact moves.ordered (inv.emptied earlier before old)
    · cases moves with
      | quiet _ neutral => exact (neutral _ rfl).elim
      | empty queued now =>
        refine ⟨[], queued.symm, ?_⟩
        rw [inv.inflight, now, List.append_nil]
        exact List.Sublist.refl _
  · rcases split_append (log.symm.trans same) with ⟨before, old, rfl⟩ | ⟨rfl, rfl, rfl⟩
    · exact inv.unfaulted earlier s before old
    · cases moves with
      | quiet _ neutral => exact (neutral _ rfl).elim
      | start _ queued checked => exact inv.guarded.fault.symm.trans (inv.guarded.checked s checked)

theorem started_inv (queue : ℕ → Submission W) : Inv (started queue) where
  range := ⟨Nat.succ_pos 63, Nat.succ_pos 63⟩
  guarded := ⟨rfl, fun _ no => (by cases no), iff_of_false (fun no => (by cases no)) id,
    iff_of_false (fun no => (by cases no)) fun no => (by cases no)⟩
  promises := List.Sublist.refl _
  inflight := rfl
  ordered := ⟨[], (waiting_nil rfl).symm, List.Sublist.refl _⟩
  emptied _ _ no := by simp [started] at no
  unfaulted _ _ _ no := by simp [started] at no

/-- **The submission queue is safe under every interleaving.** Submissions are executed in the order they were accepted in,
each at most once, and none while there is a fault; the worker announces fences of submissions that succeeded, in their
order and each once; once a preemption or a reset has emptied the queue, only what the worker had taken already is still
executed of what was accepted before; and nothing is executed while a reset recovers the GPU. -/
theorem queue_safe (queue : ℕ → Submission W) {a : Adapter W} (reachable : (system queue).Reachable a) :
    (startedOf a.log).Sublist (acceptedOf a.log) ∧ (completedOf a.log).Sublist (succeededOf a.log) ∧
      (∀ earlier s later, a.log = earlier ++ .started s :: later → faultOf earlier = 0) ∧
      (∀ earlier later, a.log = earlier ++ .emptied :: later → (startedOf later).Sublist ((inflightOf earlier).toList ++ acceptedOf later)) ∧
      ∀ s, a.worker = .running s → a.reset ≠ .recovering := by
  have inv : Inv a := reachable.invariant (started_inv queue) fun _ had _ next => next_inv had next
  have executed {first : Option (Submission W)} {later : List (Entry W)} (ordered : Ordered first later a) :
      (startedOf later).Sublist (first.toList ++ acceptedOf later) := by
    obtain ⟨past, accepted, started⟩ := ordered
    rw [accepted, ← List.append_assoc]
    exact ((List.sublist_append_left _ _).trans started).trans (List.sublist_append_left _ _)
  refine ⟨executed inv.ordered, (List.sublist_append_left _ _).trans inv.promises, inv.unfaulted,
    fun earlier later same => executed (inv.emptied earlier later same), fun s running recovering => ?_⟩
  have worker := inv.guarded.worker.mpr (by rw [running]; trivial)
  have reset := inv.guarded.reset.mpr recovering
  exact GpuHolder.noConfusion (worker.symm.trans reset)

/-- A submission from the scheduler to its fence. -/
def once : List (Event ℕ) :=
  [.submitLock ⟨7, 1⟩, .submitReadFault, .submitReadRecovering, .submitPush, .workerLock, .workerReadFault, .workerReadRecovering, .workerTake,
    .workerUnlock, .gpuLock, .gpuReadFault, .execute, .executed 0, .readCompleted, .announce 0]

def afterOnce : Adapter ℕ := ((system fun _ => ⟨0, 0⟩).runFrom (started fun _ => ⟨0, 0⟩) once).getD (started fun _ => ⟨0, 0⟩)

theorem queue_safe_once : (completedOf afterOnce.log).Sublist (succeededOf afterOnce.log) ∧ completedOf afterOnce.log = [1] :=
  ⟨(queue_safe (fun _ => ⟨0, 0⟩) (System.reachable_of_run (l := once) rfl)).2.1, rfl⟩

end Order

end Pi5Drivers.Gpu.Queue
