import Pi5Drivers.Iommu.Hardware

/-! The IOMMU driver: the allocation of memory, the requests of the owner, the cleanup
of a file, and the quarantine that a fault ends in. -/

namespace Pi5Drivers.Iommu

open Effect Recorded

abbrev Drive (α : Type) := Program Status α

variable {α : Type}

/-- The fault is recorded for good, and nothing is reused. -/
def quarantine (s : Status) : Drive α := do
  change fun d => { d with bootFault := true, hw := { d.hw with fault := true }, lastStatus := some s }
  record .fault
  stop s

/-- A quarantine whose status nobody waits for. -/
def hold (s : Status) : Drive Unit := do
  let _ ← (attempt (quarantine s) : Drive (Except Status Unit))
  pure ()

/-- The status of a sequence of the hardware that did not succeed. -/
def settle (r : Result) : Drive Unit := do
  let d ← look
  if d.hw.fault = true then quarantine (if r = .timeout then .ioTimeout else .deviceHardwareError)
  else stop (if r = .busy then .deviceBusy else .invalidParameter)

/-- A sequence of the hardware; a fault in it ends in the quarantine. -/
def result (x : Mmu Unit) : Drive Unit := do
  let r ← attempt x
  match r with
  | .ok _ => pure ()
  | .error e => settle e

/-! ### Memory -/

def freeMemory (m : Memory) : Drive Unit := do
  let d ← look
  when ((d.memory m).isSome = true) do
    record (.freed m)
    change fun d => { d with memory := Function.update d.memory m none }

def Driver.setBuffer (d : Driver) (m : Memory) (b : Buffer) : Driver :=
  { d with memory := Function.update d.memory m (some b) }

/-- The memory is one the unit can reach. -/
def InReach (dma length : ℕ) (aligned : Bool) : Prop :=
  dma % mmuPage = 0 ∧ aligned = true ∧ dma ≤ mmuDmaLimit ∧ length - 1 ≤ mmuDmaLimit - dma

instance (dma length : ℕ) (aligned : Bool) : Decidable (InReach dma length aligned) :=
  inferInstanceAs (Decidable (_ ∧ _))

/-- New memory is given up again if the unit cannot reach it, and zeroed otherwise. -/
def acceptMemory (m : Memory) (dma length : ℕ) (aligned : Bool) : Drive Unit := do
  if InReach dma length aligned then when (m = .l2) (change fun d => { d with table := fun _ => 0 })
  else do
    freeMemory m
    stop .deviceConfigurationError

def allocateMemory (m : Memory) (pages : ℕ) : Drive Unit := do
  let r ← ask fun w t => w.allocate t (pages * mmuPage)
  match r with
  | none => stop .insufficientResources
  | some (dma, aligned) => do
    record (.allocated m)
    change fun d => d.setBuffer m ⟨dma, pages * mmuPage, 0, false, false, 0⟩
    acceptMemory m dma (pages * mmuPage) aligned

def Driver.dma (d : Driver) (m : Memory) : ℕ := (d.memory m).elim 0 Buffer.dma

/-! ### The session -/

/-- The tables are made, and the unit is pointed to them. -/
def stageTables : Drive Unit := do
  allocateMemory .root 1
  allocateMemory .l2 1
  allocateMemory .trap 1
  change fun d => { d with rootEntry := mmuPteValid ||| BitVec.ofNat 32 (d.dma .l2 / 2 ^ 12) }
  let d ← look
  result (mmuBegin (d.dma .root) (d.dma .trap))

def freeTables : Drive Unit := do
  freeMemory .root
  freeMemory .l2
  freeMemory .trap

def giveTo (file : ℕ) : Drive Unit := do
  record (.owner file)
  change fun d => { d with owner := some file }

def begin (file : ℕ) : Drive Unit := do
  let d ← look
  require (d.bootFault = false) .deviceHardwareError
  require (d.owner = none) .deviceBusy
  let s ← attempt stageTables
  match s with
  | .ok _ => giveTo file
  | .error e => do
    let d ← look
    when (d.hw.fault = false) freeTables
    stop e

def finish : Drive Unit := do
  let d ← look
  require (d.activeBuffers = 0) .deviceBusy
  result mmuEnd
  freeTables
  change fun d => { d with owner := none }

/-! ### Buffers -/

structure ExecutionResult where
  status : Option Status
  prepareStatus : BitVec 32
  transferStatus : BitVec 32
  quiesceStatus : BitVec 32
  trapWordsChanged : ℕ
  active : Bool
  faultFlags : BitVec 32
  violationAddress : BitVec 32
  hits : BitVec 32
  misses : BitVec 32
  stalls : BitVec 32
  executions : ℕ
deriving DecidableEq, Repr

inductive Reply
  | done
  | alreadyComplete
  | buffer (token iova dma bytes : ℕ) (writable : Bool)
  | walked (dma : ℕ)
  | executed (r : ExecutionResult)
deriving DecidableEq, Repr

/-- The slots in the order they are searched. -/
def slots : List (Fin 16) := List.finRange 16

/-- The first slot without a buffer. -/
def Driver.vacant (d : Driver) : Option (Fin 16) := slots.find? fun i => (d.memory (.buffer i)).isNone

/-- The slot of a token. -/
def Driver.named (d : Driver) (token : ℕ) : Option (Fin 16) :=
  slots.find? fun i => (d.memory (.buffer i)).any fun b => b.token = token

def Driver.modifyBuffer (d : Driver) (i : Fin 16) (f : Buffer → Buffer) : Driver :=
  { d with memory := Function.update d.memory (.buffer i) ((d.memory (.buffer i)).map f) }

/-- The entries of a new buffer. A buffer that cannot be entered is given up. -/
def mapBuffer (i : Fin 16) (pages : ℕ) (writable : Bool) : Drive Unit := do
  let d ← look
  let s ← attempt (result (mmuMap i (d.dma (.buffer i) + mmuPage) pages writable))
  match s with
  | .ok _ => pure ()
  | .error e => do
    freeMemory (.buffer i)
    stop e

/-- The buffer is counted before the caches are flushed. -/
def Driver.account (d : Driver) (i : Fin 16) : Driver :=
  { d.modifyBuffer i fun b => { b with mapped := true, token := d.nextToken + 1 } with
    nextToken := d.nextToken + 1, activeBuffers := d.activeBuffers + 1 }

def Driver.report (d : Driver) (i : Fin 16) : Reply :=
  match d.memory (.buffer i) with
  | some b => .buffer b.token (mmuIovaBase + (first i + 1) * mmuPage) (b.dma + mmuPage) (b.pages * mmuPage) b.writable
  | none => .done

def allocateAt (i : Fin 16) (pages : ℕ) (writable : Bool) : Drive Reply := do
  allocateMemory (.buffer i) (pages + 2)
  change fun d => d.modifyBuffer i fun b => { b with pages := pages, writable := writable }
  mapBuffer i pages writable
  change fun d => d.account i
  result mmuInvalidate
  let d ← look
  pure (d.report i)

def allocate (pages : ℕ) (writable : Bool) : Drive Reply := do
  result mmuCheck
  let d ← look
  match d.vacant with
  | none => stop .insufficientResources
  | some i => do
    require (d.nextToken ≠ 2 ^ 64 - 1) .insufficientResources
    allocateAt i pages writable

/-- The guard pages of a buffer are looked at. -/
def checkGuards (i : Fin 16) : Drive Unit := do
  let intact ← ask fun w t => w.intact t i
  if intact = true then pure () else quarantine .dataError

/-- The entries of a buffer are zeroed and the caches flushed. -/
def unmapBuffer (i : Fin 16) (b : Buffer) : Drive Unit := do
  let s ← attempt (mmuUnmap i b.pages)
  match s with
  | .error _ => quarantine .dataError
  | .ok _ => do
    result mmuInvalidate
    change fun d => d.modifyBuffer i fun b => { b with mapped := false }

/-- A retired buffer is freed. -/
def releaseBuffer (i : Fin 16) : Drive Reply := do
  freeMemory (.buffer i)
  change fun d => { d with activeBuffers := d.activeBuffers - 1 }
  pure .done

def retireAt (i : Fin 16) (b : Buffer) (release : Bool) : Drive Reply := do
  result mmuCheck
  checkGuards i
  if b.mapped = false ∧ release = false then pure .alreadyComplete
  else do
    when (b.mapped = true) (unmapBuffer i b)
    if release = true then releaseBuffer i else pure .done

def retire (token : ℕ) (release : Bool) : Drive Reply := do
  let d ← look
  match d.named token with
  | none => stop .notFound
  | some i =>
    match d.memory (.buffer i) with
    | none => stop .notFound
    | some b => retireAt i b release

/-! ### Execution -/

def notSupported : BitVec 32 := 0xc00000bb

/-- The status of a consumer: success, or an error; any other success is none. -/
def judge (s : BitVec 32) : Except Status Unit :=
  if s = 0 then .ok ()
  else if s.msb = false then .error .deviceProtocolError
  else .error (.other s)

/-- The unit is switched on, and the consumer transfers. -/
def transfer : Drive (BitVec 32 × Except Status Unit) := do
  let s ← attempt (result mmuActivate)
  match s with
  | .error e => pure (notSupported, .error e)
  | .ok _ => do
    let t ← ask fun w t => w.callback t .transfer
    pure (t, judge t)

/-- A later error replaces an earlier status. -/
def latest (s t : Except Status Unit) : Except Status Unit :=
  match t with
  | .ok _ => s
  | .error _ => t

/-- The unit is switched off when the consumer has stopped. -/
def switchOff (stopped : Except Status Unit) : Drive (Except Status Unit) := do
  let off ← attempt (result (mmuDeactivate stopped.isOk))
  let held ← attempt (match stopped with
    | .ok _ => pure ()
    | .error e => quarantine e)
  pure (latest off held)

/-- After a transfer the guard pages of every buffer are looked at, and the trap page. -/
def inspect : Drive ℕ := do
  each (fun i => do
    let d ← look
    when ((d.memory (.buffer i)).isSome = true) (checkGuards i)) slots
  ask fun w t => w.trapWords t

def inspectStopped (stopped status : Except Status Unit) : Drive (Except Status Unit × ℕ) := do
  let d ← look
  if d.hw.active = false ∧ stopped.isOk = true then do
    let s ← attempt inspect
    match s with
    | .ok n => pure (status, n)
    | .error e => pure (.error e, 0)
  else pure (status, 0)

def Driver.executed (d : Driver) (status : Except Status Unit) (prepare transfer quiesce : BitVec 32) (trapWords : ℕ) :
    ExecutionResult :=
  ⟨match status with
    | .ok _ => none
    | .error e => some e, prepare, transfer, quiesce, trapWords, d.hw.active, d.hw.faultFlags, d.hw.violationAddress,
    d.hw.hits, d.hw.misses, d.hw.stalls, d.executions⟩

def conclude (status : Except Status Unit) (prepare transfer quiesce : BitVec 32) (trapWords : ℕ) : Drive Reply := do
  let d ← look
  let r := d.executed status prepare transfer quiesce trapWords
  change fun d => { d with lastStatus := if d.bootFault = true then d.lastStatus else r.status }
  pure (.executed r)

def runConsumer (prepare : BitVec 32) : Drive Reply := do
  change fun d => { d with executions := d.executions + 1 }
  let (t, s) ← transfer
  let q ← ask fun w t => w.callback t .quiesce
  let off ← switchOff (judge q)
  let (status, n) ← inspectStopped (judge q) (latest s off)
  conclude status prepare t q n

def readyToExecute : Drive Unit := do
  result mmuCheck
  let d ← look
  require (d.activeBuffers ≠ 0) .invalidDeviceState

def execute : Drive Reply := do
  let s ← attempt readyToExecute
  match s with
  | .error e => conclude (.error e) notSupported notSupported notSupported 0
  | .ok _ => do
    let p ← ask fun w t => w.callback t .prepare
    match judge p with
    | .error e => conclude (.error e) p notSupported notSupported 0
    | .ok _ => runConsumer p

/-! ### Requests -/

inductive Code
  | query | begin | allocate | free | sync | finish | walk | execute | retire
deriving DecidableEq, Repr

structure Fields where
  version : BitVec 32
  unit : BitVec 32
  pages : BitVec 32
  writable : BitVec 32
  token : BitVec 64
  address : BitVec 64

def ValidRequest (f : Fields) (code : Code) : Prop :=
  (f.version = 1 ∧ f.unit = 4) ∧
    match code with
    | .allocate =>
      1 ≤ f.pages.toNat ∧ f.pages.toNat ≤ mmuMaxPages ∧ f.writable.toNat ≤ 1 ∧ f.token = 0 ∧ f.address = 0
    | .free | .retire => f.pages = 0 ∧ f.writable = 0 ∧ f.token ≠ 0 ∧ f.address = 0
    | .walk => f.pages = 0 ∧ f.writable.toNat ≤ 1 ∧ f.token = 0
    | .execute => True
    | _ => f.pages = 0 ∧ f.writable = 0 ∧ f.token = 0 ∧ f.address = 0

instance (f : Fields) (code : Code) : Decidable (ValidRequest f code) := by
  cases code <;> exact inferInstanceAs (Decidable (_ ∧ _))

structure Request where
  code : Code
  fields : Fields
  file : Option ℕ
  kernelMode : Bool
  /-- The buffers of the request have the right sizes and could be retrieved. -/
  sized : Bool
  /-- An execution names all three callbacks. -/
  callbacks : Bool

/-- The registers are shown to whoever asks. -/
def query : Drive Reply := do
  each (fun i : Fin 3 => each (fun j => do
    let _ ← read i (offsets j)
    pure ()) (List.finRange 9)) [0, 1, 2]
  let _ ← read 3 0
  pure .done

def walk (address : ℕ) (write : Bool) : Drive Reply := do
  result mmuCheck
  let d ← look
  match mmuWalk d.table address write with
  | .ok dma => pure (.walked dma)
  | .error e => do
    settle e
    pure .done

def done (x : Drive Unit) : Drive Reply := do
  x
  pure .done

/-- What the owner asks for. -/
def serveOwner (r : Request) : Drive Reply :=
  match r.code with
  | .execute => execute
  | .allocate => allocate r.fields.pages.toNat (r.fields.writable = 1)
  | .free => retire r.fields.token.toNat true
  | .retire => retire r.fields.token.toNat false
  | .sync => done (result mmuInvalidate)
  | .finish => done finish
  | .walk => walk r.fields.address.toNat (r.fields.writable = 1)
  | .query | .begin => pure .done

/-- What a file asks for, the device being there and without a fault. -/
def serve (r : Request) (file : ℕ) : Drive Reply := do
  let d ← look
  require (d.bootFault = false) .deviceHardwareError
  if r.code = .begin then done (begin file)
  else do
    require (d.owner = some file) .accessDenied
    serveOwner r

/-- Notes how the request ended, unless there is a fault to remember. -/
def recordStatus (code : Code) (x : Drive Reply) : Drive Reply := do
  let s ← attempt x
  change fun d =>
    { d with
      lastStatus := if d.bootFault = true ∨ code = .execute then d.lastStatus else match s with
        | .ok _ => none
        | .error e => some e }
  ofExcept s

def control (r : Request) : Drive Reply :=
  if r.code = .query then do
    require (r.sized = true) .invalidParameter
    let d ← look
    require (d.online = true) .deviceNotReady
    query
  else do
    require (r.kernelMode = true) .accessDenied
    match r.file with
    | none => stop .accessDenied
    | some file => do
      require (r.sized = true ∧ ValidRequest r.fields r.code ∧ (r.code = .execute → r.callbacks = true)) .invalidParameter
      let d ← look
      require (d.online = true) .deviceNotReady
      recordStatus r.code (serve r file)

/-! ### Files and power -/

/-- Frees the buffers one by one, as long as nothing fails. -/
def freeAll : List (Fin 16) → Drive Unit
  | [] => pure ()
  | i :: l => do
    let d ← look
    if d.bootFault = true then pure ()
    else
      match d.memory (.buffer i) with
      | none => freeAll l
      | some b => do
        let s ← attempt (retire b.token true)
        match s with
        | .ok _ => freeAll l
        | .error _ => pure ()

/-- Ends the session, or quarantines what is left of it. -/
def finishOrHold : Drive Unit := do
  let d ← look
  when (d.bootFault = false) do
    let s ← attempt finish
    match s with
    | .ok _ => pure ()
    | .error e => do
      let d ← look
      when (d.bootFault = false) (hold e)

def cleanup (file : ℕ) : Drive Unit := do
  let d ← look
  when (d.owner = some file) do
    freeAll slots
    finishOrHold
    change fun d => { d with owner := none }

def entry : Drive Unit := change fun d => { d with online := !d.bootFault }

/-- The device leaves its working state, or loses its resources. -/
def exit : Drive Unit := do
  change fun d => { d with online := false }
  let d ← look
  when (d.owner.isSome = true ∨ d.hw.staged = true) (hold .deviceBusy)

/-! ### Runs -/

inductive Call
  | control (r : Request)
  | cleanup (file : ℕ)
  | entry
  | exit

def serveCall : Call → Drive Reply
  | .control r => control r
  | .cleanup file => done (cleanup file)
  | .entry => done entry
  | .exit => done exit

abbrev Context := Recorded World Driver Event

/-- One call, and what it returns. -/
def step (c : Context) (call : Call) : Context := ((serveCall call).run c).2

def reply (c : Context) (call : Call) : Except Status Reply := ((serveCall call).run c).1

/-- A driver that was just loaded, over a world. -/
def start (world : World) : Context where
  world := world
  clock := 0
  state :=
    { online := false, bootFault := false, owner := none
      hw := ⟨fun _ _ => 0, fun _ => 0, 0, false, false, false, 0, 0, 0, 0, 0⟩
      memory := fun _ => none, table := fun _ => 0, rootEntry := 0, nextToken := 0, activeBuffers := 0
      executions := 0, lastStatus := none }
  trace := []

def run (world : World) (calls : List Call) : Context := calls.foldl step (start world)

end Pi5Drivers.Iommu
