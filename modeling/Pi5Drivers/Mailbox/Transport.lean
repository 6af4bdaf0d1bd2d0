import Mathlib.Data.Nat.Notation
import Pi5Drivers.Lib.Observed

/-! The transport of the firmware mailbox. A message is written to a buffer that the
firmware shares, its address goes to a register, and the firmware answers with the same
address when it has replaced the message by its reply. What the registers and the reply
hold, and when the time is over, is the choice of a world. -/

namespace Pi5Drivers.Mailbox

open Effect Recorded

/-! ### The driver and its world -/

/-- The status codes of the driver, and whatever else the system returns. -/
inductive Status
  | invalidParameter | ioTimeout | ioDeviceError | deviceProtocolError | deviceNotReady | deviceBusy | accessDenied
  | deviceHardwareError | deviceConfigurationError | insufficientResources | notSupported | revisionMismatch
  | invalidBufferSize
  | other (code : ℕ)
deriving DecidableEq, Repr

/-- How a transfer fails. -/
inductive MbxResult
  | invalid | timeout | foreignReply | malformed | firmwareError | faulted
deriving DecidableEq, Repr

/-- A common buffer: which one it is, its address for the bus and for the CPU, and whether its
last byte is where the first one says. -/
structure Common where
  id : ℕ
  logical : ℕ
  physical : ℕ
  contiguous : Bool

/-- What the driver does not decide. The first argument is the time. -/
structure World where
  rxStatus : ℕ → BitVec 32
  txStatus : ℕ → BitVec 32
  rxData : ℕ → BitVec 32
  /-- How often a waiting transfer looks again before its deadline. -/
  rounds : ℕ → ℕ
  /-- The shared buffer when a reply has come. -/
  reply : ℕ → ℕ → BitVec 32
  /-- What a method of the firmware's tables returns. -/
  evaluate : ℕ → ℕ → Except Status (ℕ → BitVec 32)
  resources : ℕ → Except Status Unit
  mapRegisters : ℕ → Bool
  adapter : ℕ → Bool
  allocate : ℕ → Option Common
  /-- A buffer at a low address, where the system can provide one. -/
  allocateBelow : ℕ → Except Status (Option Common)
  registerRegion : ℕ → Except Status Unit
  deregisterRegion : ℕ → Except Status Unit
  lock : ℕ → Except Status Unit

/-- The clocks that can be leased. -/
inductive Clock
  | arm | v3d
deriving DecidableEq, Repr

structure ClockLease where
  owner : Option ℕ
  baselineRate : BitVec 32
  baselineState : BitVec 32
  abandoned : Bool
deriving DecidableEq, Repr

structure Driver where
  buffer : Option Common
  /-- What the shared buffer was made to hold. -/
  words : ℕ → BitVec 32
  address : BitVec 32
  fault : Bool
  unsafeBuffer : Bool
  registers : Bool
  adapter : Bool
  region : Bool
  online : Bool
  owned : Bool
  pinned : Bool
  bootClaim : Bool
  clocks : Clock → ClockLease
  /-- The words of the caller of a transfer. -/
  data : ℕ → BitVec 32

/-- What an observer of the transport sees. -/
inductive Event
  | stored (buffer index : ℕ) (value : BitVec 32)
  /-- A message goes out: the value of the register, and what the shared buffer holds. -/
  | sent (message : BitVec 32) (words : ℕ → BitVec 32)
  | received (reply : BitVec 32)
  | faulted
  | freed (buffer : ℕ)
  /-- The words that a transfer brought back. -/
  | answered (tag : BitVec 32) (data : ℕ → BitVec 32)

abbrev Context := Recorded World Driver Event

abbrev Drive := Effect Context

/-! ### Transfers -/

def fifoFull : BitVec 32 := 0x80000000

def fifoEmpty : BitVec 32 := 0x40000000

def mbxBufferBytes : ℕ := 256

def setFault : Drive MbxResult Unit := do
  record .faulted
  change fun d => { d with fault := true }

/-- The transfer fails, and may take the channel with it. -/
def fail (result : MbxResult) (fatal : Bool) : Drive MbxResult Unit := do
  when (fatal = true) setFault
  stop result

/-- Whether a reply is to the clock, the display or the device that was asked for. -/
def mbxReplyIdMatches (tag requested returned : BitVec 32) : Bool :=
  decide (returned = requested ∨
    (tag = 0x40017 ∧ (requested = 2 ∨ requested = 7) ∧ returned &&& 255 = requested) ∨
    (tag = 0x30047 ∧ requested ≠ 0 ∧ requested ≤ 16 ∧ returned = 0))

/-- The address that the firmware uses for a buffer. -/
def mbxEncodeAddress (logical physical bytes : ℕ) : Option (BitVec 32) :=
  if bytes = 0 ∨ 0x40000000 < bytes ∨ logical % 16 ≠ 0 ∨ physical % 16 ≠ 0 ∨ 0x40000000 - bytes < physical then none
  else if logical = physical + 0xc0000000 then some (BitVec.ofNat 32 logical)
  else if logical = physical then some (BitVec.ofNat 32 (logical + 0xc0000000))
  else none

def store (id index : ℕ) (value : BitVec 32) : Drive MbxResult Unit := do
  record (.stored id index value)
  change fun d => { d with words := fun i => if i = index then value else d.words i }

/-- The stores that make up a message. -/
def message (tag : BitVec 32) (bytes : ℕ) (data : ℕ → BitVec 32) : List (ℕ × BitVec 32) :=
  (List.range (mbxBufferBytes / 4)).map (fun i => (i, 0)) ++
    [(0, BitVec.ofNat 32 (bytes + 24)), (2, tag), (3, BitVec.ofNat 32 bytes)] ++
    (List.range (bytes / 4)).map fun i => (5 + i, data i)

/-- Waits until the register takes a message. -/
def awaitRoom : ℕ → Drive MbxResult Unit
  | 0 => do
    let status ← ask (·.txStatus)
    if status &&& fifoFull = 0 then pure () else fail .timeout true
  | n + 1 => do
    let status ← ask (·.txStatus)
    if status &&& fifoFull = 0 then pure () else awaitRoom n

/-- Takes the reply to a message. -/
def takeReply (sent : BitVec 32) : Drive MbxResult Unit := do
  let reply ← ask (·.rxData)
  record (.received reply)
  if reply ≠ sent then fail .foreignReply true else change fun d => { d with unsafeBuffer := false }

/-- Waits for the reply. -/
def awaitReply (sent : BitVec 32) : ℕ → Drive MbxResult Unit
  | 0 => do
    let status ← ask (·.rxStatus)
    if status &&& fifoEmpty = 0 then takeReply sent else fail .timeout true
  | n + 1 => do
    let status ← ask (·.rxStatus)
    if status &&& fifoEmpty = 0 then takeReply sent else awaitReply sent n

/-- The lengths of a reply that the firmware is known to give. -/
def lengthKnown (tag : BitVec 32) (bytes : ℕ) (length : BitVec 32) : Bool :=
  decide (length = 0x80000000 ||| BitVec.ofNat 32 bytes ∨
    ((tag = 0x30087 ∨ tag = 0x38087) ∧ bytes = 8 ∧ length = 0x80000004) ∨
    (tag = 0x38002 ∧ bytes = 12 ∧ length = 0x80000008) ∨
    (((tag = 0x48017 ∧ bytes = 36) ∨ (tag = 0x48013 ∧ bytes = 4)) ∧ length = 0))

/-- What a transfer asks of its arguments and of the channel. -/
def WellFormed (d : Driver) (tag : BitVec 32) (bytes : ℕ) : Prop :=
  d.buffer.isSome ∧ tag ≠ 0 ∧ bytes ≠ 0 ∧ bytes % 4 = 0 ∧ bytes ≤ mbxBufferBytes - 24 ∧ d.address &&& 15 = 0 ∧
    0xc0000000 ≤ d.address ∧ d.address ≤ 0xffffff00

instance (d : Driver) (tag : BitVec 32) (bytes : ℕ) : Decidable (WellFormed d tag bytes) :=
  inferInstanceAs (Decidable (_ ∧ _))

/-- The message goes out, and its reply comes back. -/
def exchange (tag : BitVec 32) (bytes : ℕ) (id : ℕ) : Drive MbxResult Unit := do
  let d ← look
  each (fun s => store id s.1 s.2) (message tag bytes d.data)
  let d ← look
  let sent := d.address ||| 8
  change fun d => { d with unsafeBuffer := true }
  record (.sent sent d.words)
  awaitReply sent (← ask (·.rounds))

/-- The reply is checked, and its words go to the caller. -/
def takeWords (tag : BitVec 32) (bytes : ℕ) : Drive MbxResult Unit := do
  let reply ← ask (·.reply)
  if reply 0 ≠ BitVec.ofNat 32 (bytes + 24) ∨ reply 2 ≠ tag ∨ reply 3 ≠ BitVec.ofNat 32 bytes ∨
      reply ((bytes + 24) / 4 - 1) ≠ 0 then
    fail .malformed true
  else if reply 1 = 0x80000001 then fail .firmwareError false
  else if reply 1 ≠ 0x80000000 ∨ lengthKnown tag bytes (reply 4) = false then fail .malformed true
  else change fun d => { d with data := fun i => if i < bytes / 4 then reply (5 + i) else d.data i }

def mbxTransfer (tag : BitVec 32) (bytes : ℕ) : Drive MbxResult Unit := do
  let d ← look
  require (WellFormed d tag bytes) .invalid
  require (d.fault = false ∧ d.unsafeBuffer = false) .faulted
  let status ← ask (·.rxStatus)
  if status &&& fifoEmpty = 0 then fail .foreignReply true
  else do
    awaitRoom (← ask (·.rounds))
    exchange tag bytes ((d.buffer.map Common.id).getD 0)
    takeWords tag bytes

end Pi5Drivers.Mailbox
