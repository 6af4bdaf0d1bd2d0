import Pi5Drivers.Mailbox.Transport

/-! The mailbox driver: it takes the mailbox over from the firmware's own drivers once in a
boot, asks the firmware for what its clients want to know, and leases two clocks to kernel
clients. -/

namespace Pi5Drivers.Mailbox

open Effect Recorded

/-! ### Transfers of the driver -/

def MbxResult.status : MbxResult → Status
  | .invalid => .invalidParameter
  | .timeout => .ioTimeout
  | .firmwareError => .ioDeviceError
  | .foreignReply | .malformed | .faulted => .deviceProtocolError

def flagFault : Drive Status Unit := do
  record .faulted
  change fun d => { d with fault := true }

/-- A transfer whose reply names what was asked for. -/
def transfer (tag : BitVec 32) (bytes : ℕ) : Drive Status Unit := do
  let d ← look
  let id := d.data 0
  require (d.online = true ∧ d.owned = true) .deviceNotReady
  (mbxTransfer tag bytes).mapError MbxResult.status
  let d ← look
  if 8 ≤ bytes ∧ mbxReplyIdMatches tag id (d.data 0) = false then do
    flagFault
    stop .deviceProtocolError
  else record (.answered tag d.data)

/-- A transfer of some words, and the words that come back. -/
def call (tag : BitVec 32) (words : List (BitVec 32)) : Drive Status (ℕ → BitVec 32) := do
  change fun d => { d with data := fun i => words.getD i 0 }
  transfer tag (4 * words.length)
  let d ← look
  pure d.data

/-! ### Start and end -/

def pageSize : ℕ := 4096

def fromWorld {α : Type} (f : World → ℕ → Except Status α) : Drive Status α := do
  match ← ask f with
  | .ok a => pure a
  | .error s => stop s

def evaluate (function : ℕ) : Drive Status (ℕ → BitVec 32) := fromWorld (·.evaluate · function)

def free : Drive Status Unit := do
  let d ← look
  match d.buffer with
  | some b => do
    record (.freed b.id)
    change fun d => { d with buffer := none }
  | none => pure ()

/-- A buffer that the firmware can reach. Where the system does not translate addresses, the
buffer has to be at a low one. -/
def allocateBuffer : Drive Status Common := do
  let some b ← ask (·.allocate) | stop .insufficientResources
  change fun d => { d with buffer := some b }
  if b.logical = b.physical ∧ 0x40000000 - pageSize < b.physical then do
    free
    let some low ← fromWorld (·.allocateBelow) | stop .insufficientResources
    change fun d => { d with buffer := some low }
    pure low
  else pure b

def clearBuffer (b : Common) : Drive Status Unit :=
  each (fun i => (store b.id i 0).mapError MbxResult.status) (List.range (mbxBufferBytes / 4))

/-- The region's layout that the firmware's tables have to give. -/
def regionLayout : List (BitVec 32) := [1, 0x80, 24, 0, 0xc0000000, 0x40000000]

def prepare : Drive Status Unit := do
  let values ← evaluate 3
  require ((List.range 6).map values = regionLayout) .revisionMismatch
  let values ← evaluate 1
  let d ← look
  require (values 0 = 1 ∧ values 1 = 0 ∧ values 3 = 0 ∧ d.bootClaim = false) .deviceBusy
  fromWorld (·.resources)
  let mapped ← ask (·.mapRegisters)
  require (mapped = true) .insufficientResources
  change fun d => { d with registers := true }
  let adapter ← ask (·.adapter)
  require (adapter = true) .insufficientResources
  change fun d => { d with adapter := true }
  let b ← allocateBuffer
  match mbxEncodeAddress b.logical b.physical pageSize with
  | none => stop .deviceConfigurationError
  | some address => do
    change fun d => { d with address := address }
    require (b.contiguous = true) .deviceConfigurationError
    clearBuffer b
    fromWorld (·.registerRegion)
    change fun d => { d with region := true }
    let d ← look
    require (d.bootClaim = false) .deviceBusy
    change fun d => { d with bootClaim := true, pinned := true }
    let values ← evaluate 2
    require (values 0 = 0) .deviceBusy
    fromWorld (·.lock)
    change fun d => { d with owned := true, online := true }
    let _ ← call 0x30087 [0, 0]

def release : Drive Status Unit := do
  change fun d => { d with online := false }
  let d ← look
  when (d.region = true) do
    fromWorld (·.deregisterRegion)
    change fun d => { d with region := false }
  when (d.unsafeBuffer = false) free
  change fun d => { d with buffer := none, adapter := false, registers := false, pinned := false }

/-! ### Queries -/

/-- What clients ask the firmware, beside the leases. -/
inductive Query
  | firmwareRevision (id : BitVec 32)
  | clockRate (id : BitVec 32)
  | clockState (id : BitVec 32)
  | rtcSeconds (id : BitVec 32)
  | clockMinRate (id : BitVec 32)
  | clockMaxRate (id : BitVec 32)
  | clockMeasuredRate (id : BitVec 32)
  | edid (port : Fin 2) (block : Fin 256)
  | timing (port : Fin 2)
  /-- The clock of the firmware's region is read. -/
  | regionRead
  /-- It is set, to a time that has an epoch. -/
  | regionWrite (epoch : BitVec 32)

/-- The clocks that can be asked about. -/
def clockQuery (tag id : BitVec 32) : Option (BitVec 32 × List (BitVec 32)) :=
  if id ≠ 0 ∧ id ≤ 16 then some (tag, [id, 0]) else none

def display (port : Fin 2) : BitVec 32 := if port = 1 then 7 else 2

/-- The tag of a query and its words. -/
def Query.request : Query → Option (BitVec 32 × List (BitVec 32))
  | .firmwareRevision id => if id = 0 then some (1, [0]) else none
  | .clockRate id => clockQuery 0x30002 id
  | .clockState id => clockQuery 0x30001 id
  | .clockMinRate id => clockQuery 0x30007 id
  | .clockMaxRate id => clockQuery 0x30004 id
  | .clockMeasuredRate id => clockQuery 0x30047 id
  | .rtcSeconds id => if id = 0 then some (0x30087, [0, 0]) else none
  | .edid port block => some (0x30023, BitVec.ofNat 32 block :: display port :: List.replicate 32 0)
  | .timing port => some (0x40017, display port :: List.replicate 8 0)
  | .regionRead => some (0x30087, [0, 0])
  | .regionWrite epoch => some (0x38087, [0, epoch])

def query (q : Query) : Drive Status (ℕ → BitVec 32) :=
  match q.request with
  | none => stop .invalidParameter
  | some (tag, words) => do
    fromWorld (·.lock)
    call tag words

/-! ### Clocks -/

inductive Operation
  | claim | release | setRate | setState
deriving DecidableEq, Repr

structure ClockControl where
  version : BitVec 32
  operation : Option Operation
  id : BitVec 32
  value : BitVec 32

structure Result where
  version : BitVec 32
  operation : Operation
  id : BitVec 32
  value : BitVec 32

/-- The request and its operation, if there is nothing wrong with it. -/
def clockRequestValid (q : ClockControl) : Option (Operation × Clock) :=
  let clock := if q.id = 3 then some Clock.arm else if q.id = 5 then some .v3d else none
  match q.operation, clock with
  | some operation, some clock =>
    if q.version = 1 ∧ ¬((operation = .claim ∨ operation = .release) ∧ q.value ≠ 0) ∧
        ¬(operation = .setState ∧ (clock ≠ .v3d ∨ 1 < q.value)) ∧ ¬(operation = .setRate ∧ q.value = 0) then
      some (operation, clock)
    else none
  | _, _ => none

def setClock (c : Clock) (f : ClockLease → ClockLease) : Drive Status Unit :=
  change fun d => { d with clocks := fun c' => if c' = c then f (d.clocks c') else d.clocks c' }

/-- The rate of a clock, and of the V3D clock its state too. -/
def readBack (clock : Clock) (id : BitVec 32) : Drive Status (BitVec 32 × BitVec 32) := do
  let rate ← call 0x30002 [id, 0]
  if clock = .v3d then do
    let state ← call 0x30001 [id, 0]
    pure (rate 1, state 1)
  else pure (rate 1, 0)

def claim (file : ℕ) (clock : Clock) (id : BitVec 32) : Drive Status (BitVec 32) := do
  let d ← look
  require ((d.clocks clock).owner = none) .deviceBusy
  let (rate, state) ← readBack clock id
  require (rate ≠ 0 ∧ state ≤ 1) .deviceConfigurationError
  setClock clock fun l => { l with baselineRate := rate, baselineState := state, owner := some file }
  pure 0

def releaseClock (clock : Clock) (id : BitVec 32) : Drive Status (BitVec 32) := do
  let (rate, state) ← readBack clock id
  let d ← look
  require (rate = (d.clocks clock).baselineRate ∧ state = (d.clocks clock).baselineState) .deviceBusy
  setClock clock fun l => { l with owner := none }
  pure 0

def setRate (id value : BitVec 32) : Drive Status (BitVec 32) := do
  let minimum ← call 0x30007 [id, 0]
  let maximum ← call 0x30004 [id, 0]
  require (maximum 1 ≠ 0 ∧ minimum 1 ≤ maximum 1 ∧ minimum 1 ≤ value ∧ value ≤ maximum 1) .invalidParameter
  let data ← call 0x38002 [id, value, 0]
  pure (data 1)

def setState (id value : BitVec 32) : Drive Status (BitVec 32) := do
  let data ← call 0x38001 [id, value]
  pure (data 1)

/-- What a request does once it may, and the value it reports. -/
def perform (file : ℕ) (q : ClockControl) (clock : Clock) : Operation → Drive Status (BitVec 32)
  | .claim => claim file clock q.id
  | .release => releaseClock clock q.id
  | .setRate => setRate q.id q.value
  | .setState => setState q.id q.value

def clockControlLocked (file : ℕ) (q : ClockControl) : Drive Status Result :=
  match clockRequestValid q with
  | none => stop .invalidParameter
  | some (operation, clock) => do
    let d ← look
    require (d.online = true ∧ d.owned = true) .deviceNotReady
    require ((d.clocks clock).abandoned = false) .deviceHardwareError
    require (operation = .claim ∨ (d.clocks clock).owner = some file) .accessDenied
    let value ← perform file q clock operation
    pure ⟨1, operation, q.id, value⟩

/-- A request as it comes, with the lengths of its buffers. -/
structure Request where
  kernelMode : Bool
  file : Option ℕ
  lengths : Bool
  input : Except Status ClockControl
  output : Except Status Unit

def clockControl (r : Request) : Drive Status Result :=
  match r.kernelMode, r.file with
  | true, some file => do
    require (r.lengths = true) .invalidBufferSize
    let q ← ofExcept r.input
    require (clockRequestValid q).isSome .invalidParameter
    ofExcept r.output
    fromWorld (·.lock)
    clockControlLocked file q
  | _, _ => stop .accessDenied

def clockCleanup (file : ℕ) : Drive Status Unit :=
  each (fun c => setClock c fun l => if l.owner = some file then { l with owner := none, abandoned := true } else l)
    [.arm, .v3d]

end Pi5Drivers.Mailbox
