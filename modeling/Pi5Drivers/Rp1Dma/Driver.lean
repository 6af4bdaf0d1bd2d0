import Pi5Drivers.Lib.Observed
import Pi5Drivers.Lib.Runs

/-! The DMA copy service, as the framework calls it: one callback after the other, with interrupts
between any two accesses that are not made under the interrupt lock. -/

namespace Pi5Drivers.Rp1Dma

open Effect Recorded

def dmaVersion : ℕ := 0x08
def dmaConfig : ℕ := 0x10
def dmaChannels : ℕ := 0x18
def dmaCommonClear : ℕ := 0x38
def dmaCommonEnable : ℕ := 0x40
def dmaCommonSignal : ℕ := 0x48
def dmaReset : ℕ := 0x58
def dmaChConfig : ℕ := 0x120
def dmaChList : ℕ := 0x128
def dmaChIntEnable : ℕ := 0x180
def dmaChIntStatus : ℕ := 0x188
def dmaChIntSignal : ℕ := 0x190
def dmaChIntClear : ℕ := 0x198

def dmaComplete : BitVec 32 := 2
def dmaErrors : BitVec 32 := 0x003f7fe0

def dmaBufferLength : ℕ := 65536
def dmaSourceOffset : ℕ := 4096
def dmaDestOffset : ℕ := dmaSourceOffset + dmaBufferLength + 4096
def dmaAllocation : ℕ := dmaDestOffset + dmaBufferLength + 4096

def rp1DmaMaxCopy : ℕ := 65536

def savedOffsets : List ℕ :=
  [dmaConfig, dmaCommonEnable, dmaCommonSignal, dmaChConfig, dmaChConfig + 4, dmaChIntEnable, dmaChIntSignal]

inductive Status
  | invalidParameter | deviceBusy | deviceNotReady | deviceHardwareError | deviceConfigurationError
  | insufficientResources | ioTimeout | cancelled | dataError
  | other (code : ℕ)
deriving DecidableEq

/-! ### Descriptors -/

/-- `RP1_DMA_DESCRIPTOR`, without the words that are left zero. -/
structure Descriptor where
  source : ℕ
  destination : ℕ
  blockCount : ℕ
  control : BitVec 32
  controlHigh : BitVec 32
deriving DecidableEq

/-- The lowest bit that is set, but not past some number of bits. -/
def widen (alignment : ℕ) : (left width : ℕ) → ℕ
  | 0, width => width
  | left + 1, width => if alignment.testBit width then width else widen alignment left (width + 1)

def dmaDescriptor (source destination length : ℕ) : Except Status Descriptor :=
  if length = 0 ∨ dmaBufferLength < length ∨ 0xffffffff - length + 1 < source ∨ 0xffffffff - length + 1 < destination then
    .error .invalidParameter
  else
    let width := widen (source ||| destination ||| length) 4 0
    .ok
      { source := source
        destination := destination
        blockCount := length >>> width - 1
        control := (1 <<< 18) ||| (1 <<< 14) ||| (BitVec.ofNat 32 width <<< 11) ||| (BitVec.ofNat 32 width <<< 8)
        controlHigh := (1 <<< 31) ||| (1 <<< 30) ||| (1 <<< 15) ||| (1 <<< 6) }

namespace Descriptor

def sourceWidth (d : Descriptor) : ℕ := ((d.control >>> 8) &&& 7).toNat

def destinationWidth (d : Descriptor) : ℕ := ((d.control >>> 11) &&& 7).toNat

/-- Where a byte of a beat is, for an endpoint that increments unless it is fixed. -/
def place (fixed : Bool) (base width beat byte : ℕ) : ℕ := base + (if fixed then 0 else beat * 2 ^ width) + byte

/-- The bytes that the controller moves, and where to. -/
def moves (d : Descriptor) : List (ℕ × ℕ) :=
  (List.range (d.blockCount + 1)).flatMap fun beat => (List.range (2 ^ d.sourceWidth)).map fun byte =>
    (place (d.control.getLsbD 4) d.source d.sourceWidth beat byte,
      place (d.control.getLsbD 6) d.destination d.destinationWidth beat byte)

end Descriptor

/-! ### The driver -/

/-- `DMA_CONTEXT`, as far as it decides what the driver does. -/
structure Controller where
  online : Bool
  owned : Bool
  isUnsafe : Bool
  pending : BitVec 32
  lastInterrupt : BitVec 32
  buffer : Bool
  adapter : Bool
  address : ℕ
  saved : List (BitVec 32)
  clock : Bool
  route : Bool

/-- What the registers hold whenever they are read, how many interrupts come in a gap, what the system
and the other devices answer, where a buffer is allocated, how often and how a wait ends, whether a
request was cancelled, and whether a test finds its bytes. -/
structure World where
  register : ℕ → ℕ → BitVec 32
  interrupts : ℕ → ℕ
  service : ℕ → Except Status Unit
  allocated : ℕ → Option ℕ
  wakes : ℕ → ℕ
  wait : ℕ → Except Status Unit
  cancelled : ℕ → Bool
  copied : ℕ → Bool

inductive Event
  | read (offset : ℕ) (value : BitVec 32)
  | wrote (offset : ℕ) (value : BitVec 32)
  /-- The descriptor was written for a copy. -/
  | descriptor (d : Descriptor) (source destination length : ℕ)
  /-- The common buffer was freed. -/
  | freed
  /-- A copy was reported successful. -/
  | copied
  | online (value : Bool)
  | isUnsafe (value : Bool)

abbrev Context := Recorded World Controller Event

abbrev Drive (α : Type) := Effect Context Status α

def read (offset : ℕ) : Drive (BitVec 32) := do
  let value ← ask fun world time => world.register time offset
  record (.read offset value)
  pure value

/-- `DmaWrite`, which drains posted writes. -/
def write (offset : ℕ) (value : BitVec 32) : Drive Unit := do
  record (.wrote offset value)
  let _ ← read dmaConfig
  pure ()

def setOnline (value : Bool) : Drive Unit := do
  record (.online value)
  change fun c => { c with online := value }

def setUnsafe (value : Bool) : Drive Unit := do
  record (.isUnsafe value)
  change fun c => { c with isUnsafe := value }

/-! ### Interrupts -/

def Controller.latch (bits : BitVec 32) (c : Controller) : Controller := { c with pending := c.pending ||| bits }

/-- The interrupt routine has read its status. -/
def handle (bits : BitVec 32) : Drive Unit :=
  when (bits &&& (dmaComplete ||| dmaErrors) ≠ 0) do
    write dmaChIntSignal 0
    write dmaChIntClear bits
    change (Controller.latch bits)

def dmaIsr : Drive Unit := do
  let c ← look
  when (c.online = true) do
    let bits ← read dmaChIntStatus
    handle bits

def interrupts : ℕ → Drive Unit
  | 0 => pure ()
  | n + 1 => do
    dmaIsr
    interrupts n

/-- The interrupt lock is not held. -/
def gap : Drive Unit := do
  let n ← ask fun world time => world.interrupts time
  interrupts n

def openRead (offset : ℕ) : Drive (BitVec 32) := do
  gap
  read offset

def openWrite (offset : ℕ) (value : BitVec 32) : Drive Unit := do
  gap
  write offset value

/-! ### The hardware -/

def writeAddress (offset address : ℕ) : Drive Unit := do
  write offset (BitVec.ofNat 32 address)
  write (offset + 4) (BitVec.ofNat 32 (address >>> 32))

/-- Called under the interrupt lock. -/
def dmaBegin (descriptorAddress : ℕ) : Drive Unit := do
  require (descriptorAddress % 64 = 0 ∧ descriptorAddress ≤ 0xffffffc0) .invalidParameter
  let channels ← read dmaChannels
  require (channels &&& 1 = 0) .deviceBusy
  write dmaChIntSignal 0
  write dmaChIntClear 0xffffffff
  -- Linked-list source and destination; memory-to-memory flow control.
  write dmaChConfig 15
  write (dmaChConfig + 4) 0
  writeAddress dmaChList descriptorAddress
  write dmaChIntEnable (dmaComplete ||| dmaErrors)
  write dmaChIntSignal (dmaComplete ||| dmaErrors)
  write dmaChannels 0x101

def pollDisabled : ℕ → Drive Bool
  | 0 => pure false
  | n + 1 => do
    let channels ← openRead dmaChannels
    if channels &&& 1 = 0 then pure true else pollDisabled n

/-- The reset is over, and no channel is enabled. -/
def resetDone : Drive Bool := do
  let reset ← openRead dmaReset
  if reset &&& 1 = 0 then do
    let channels ← openRead dmaChannels
    pure (channels &&& 0xff = 0)
  else pure false

def pollReset : ℕ → Drive Bool
  | 0 => pure false
  | n + 1 => do
    let done ← resetDone
    if done then pure true else pollReset n

/-- A reset is the final recovery. -/
def dmaHalt : Drive Bool := do
  openWrite dmaChIntSignal 0
  openWrite dmaChannels 0x100
  let disabled ← pollDisabled 1000
  if disabled then pure true
  else do
    openWrite dmaReset 1
    pollReset 1000

/-! ### Callbacks of the device -/

def dmaPrepare : Drive Unit := do
  let adapter ← ask fun world time => world.service time
  ofExcept adapter
  change fun c => { c with adapter := true }
  let allocated ← ask fun world time => world.allocated time
  let address ← ofExcept (allocated.elim (.error .insufficientResources) .ok)
  change fun c => { c with buffer := true, address := address }
  require (address % 64 = 0 ∧ address ≤ 0x100000000 - dmaAllocation) .deviceConfigurationError

/-- A controller that failed both halt and reset must never write to freed memory. -/
def dmaRelease : Drive Unit := do
  let c ← look
  when (c.isUnsafe = false ∧ c.buffer = true) do
    record .freed
  change fun c => { c with buffer := false, adapter := false }

def openClock : Drive Unit := do
  let answer ← ask fun world time => world.service time
  ofExcept answer
  change fun c => { c with clock := true }

def closeClock : Drive Unit := change fun c => { c with clock := false }

/-- The component is the expected one, and no channel is active. -/
def identify : Drive Bool := do
  let version ← openRead dmaVersion
  if version = 0x3130332a then do
    let channels ← openRead dmaChannels
    pure (channels &&& 0xff = 0)
  else pure false

def save : Drive Unit := do
  change fun c => { c with saved := [] }
  each (fun offset => do
    let value ← openRead offset
    change fun c => { c with saved := c.saved ++ [value] }) savedOffsets

def restore : Drive Unit := do
  let c ← look
  each (fun x => openWrite x.1 x.2) (savedOffsets.zip c.saved)

/-- The route of the interrupt is another device's. -/
def openRoute : Drive Unit := do
  let answer ← ask fun world time => world.service time
  ofExcept answer
  change fun c => { c with route := true }

/-- The device is the driver's while it is started. -/
def own : Drive Unit := do
  save
  change fun c => { c with owned := true }
  openWrite dmaChIntSignal 0
  openWrite dmaChIntClear 0xffffffff
  openWrite dmaCommonSignal 0
  openWrite dmaCommonClear 0x1f
  openWrite dmaConfig 3
  openRoute.orElse fun e => do
    restore
    change fun c => { c with owned := false }
    closeClock
    stop e

def dmaStart : Drive Unit := do
  let c ← look
  require (c.isUnsafe = false) .deviceHardwareError
  openClock
  let expected ← identify
  if expected then own
  else do
    closeClock
    stop .deviceConfigurationError

def dmaQuiesce : Drive Unit := do
  let halted ← dmaHalt
  setUnsafe (!halted)
  openWrite dmaConfig 0
  when (halted = true) restore
  change fun c => { c with owned := false }

def dmaStop : Drive Unit := do
  setOnline false
  let c ← look
  when (c.owned = true) dmaQuiesce
  change fun c => { c with route := false, clock := false }
  let c ← look
  require (c.isUnsafe = false) .deviceHardwareError

def dmaInterruptEnable : Drive Unit := setOnline true

def dmaInterruptDisable : Drive Unit := do
  setOnline false
  openWrite dmaChIntSignal 0

/-! ### Requests -/

/-- Under the interrupt lock, what the interrupt routine has seen. -/
def lastInterrupt : Drive (BitVec 32) := do
  gap
  change fun c => { c with lastInterrupt := c.pending }
  let c ← look
  pure c.lastInterrupt

/-- An old coalesced DPC may wake the wait; what the interrupt routine has seen is authoritative. -/
def await : ℕ → Drive Unit
  | 0 => do
    let last ← lastInterrupt
    require (last ≠ 0) .ioTimeout
  | n + 1 => do
    let last ← lastInterrupt
    when (last = 0) do
      let answer ← ask fun world time => world.wait time
      ofExcept answer
      await n

/-- Starts the transfer under the interrupt lock, and waits for its interrupt. -/
def transfer : Drive Unit := do
  gap
  let c ← look
  change fun c => { c with pending := 0 }
  dmaBegin c.address
  let wakes ← ask fun world time => world.wakes time
  await wakes
  let c ← look
  require (c.lastInterrupt &&& dmaErrors = 0 ∧ c.lastInterrupt &&& dmaComplete ≠ 0) .deviceHardwareError

/-- Stops the channel after a transfer, however it ended. -/
def retire (result : Except Status Unit) : Drive Unit := do
  openWrite dmaChIntSignal 0
  let halted ← dmaHalt
  when (halted = false) (setUnsafe true)
  let c ← look
  when (c.isUnsafe = false) (openWrite dmaConfig 3)
  require (halted = true) .deviceHardwareError
  ofExcept result
  record .copied

/-- `Copy`, between two places in the common buffer. -/
def copy (sourceOffset destinationOffset length : ℕ) : Drive Unit := do
  let c ← look
  require (c.online = true ∧ c.isUnsafe = false) .deviceNotReady
  let d ← ofExcept (dmaDescriptor (c.address + sourceOffset) (c.address + destinationOffset) length)
  record (.descriptor d (c.address + sourceOffset) (c.address + destinationOffset) length)
  let result ← transfer.attempt
  retire result

/-- Every length, with and without an offset from the alignment. -/
def tests : List (ℕ × ℕ) :=
  [0, 1].flatMap fun alignment => [1, 2, 3, 15, 16, 31, 64, 255, 256, 4095, 4096, 65536].map fun length => (alignment, length)

def selfTest : Drive Unit :=
  each (fun t => do
    let cancelled ← ask fun world time => world.cancelled time
    require (cancelled = false) .cancelled
    copy (dmaSourceOffset + t.1) (dmaDestOffset + t.1) t.2
    let found ← ask fun world time => world.copied time
    require (found = true) .dataError) tests

/-- A copy that another driver asks for, with the version and length it says and how much it sent. -/
def copyRequest (version length sent : ℕ) : Drive Unit := do
  require (version = 1 ∧ length ≠ 0 ∧ length ≤ rp1DmaMaxCopy ∧ sent = 8 + length) .invalidParameter
  copy dmaSourceOffset dmaDestOffset length

def query : Drive Unit := do
  let _ ← openRead dmaChannels
  pure ()

/-! ### Runs -/

inductive Callback
  | prepare
  | release
  | start
  | stop
  | interruptEnable
  | interruptDisable
  | interrupt
  | query
  | selfTest
  | copy (version length sent : ℕ)

def Callback.drive : Callback → Drive Unit
  | .prepare => dmaPrepare
  | .release => dmaRelease
  | .start => dmaStart
  | .stop => dmaStop
  | .interruptEnable => dmaInterruptEnable
  | .interruptDisable => dmaInterruptDisable
  | .interrupt => gap
  | .query => Rp1Dma.query
  | .selfTest => Rp1Dma.selfTest
  | .copy version length sent => copyRequest version length sent

/-- Every callback runs to its end, and then comes the next. -/
def system (world : World) : System Context Callback where
  init := ⟨world, 0, ⟨false, false, false, 0, 0, false, false, 0, [], false, false⟩, []⟩
  next c callback := some (callback.drive.run c).2

end Pi5Drivers.Rp1Dma
