import Pi5Drivers.Lib.Observed
import Pi5Drivers.Spb.Buffers

/-! The SPI controller as its driver uses it during a request: how the transfers are laid out in
one exchange of frames, the pump that exchanges them, and the worker that copies the bytes
in and out. -/

namespace Pi5Drivers.Spi

open Spb Effect Recorded

def spiControl : ℕ := 0x00
def spiCount : ℕ := 0x04
def spiEnable : ℕ := 0x08
def spiSelect : ℕ := 0x10
def spiDividerOffset : ℕ := 0x14
def spiTxThreshold : ℕ := 0x18
def spiRxThreshold : ℕ := 0x1c
def spiTxLevel : ℕ := 0x20
def spiRxLevel : ℕ := 0x24
def spiStatus : ℕ := 0x28
def spiMask : ℕ := 0x2c
def spiRaw : ℕ := 0x34
def spiClear : ℕ := 0x48
def spiDma : ℕ := 0x4c
def spiData : ℕ := 0x60
def spiRxDelay : ℕ := 0xf0

def spiIrqErrors : BitVec 32 := 0x2e
def spiIrqRx : BitVec 32 := 0x10
def spiIrqTx : BitVec 32 := 1

def spiMaxTransfers : ℕ := 16
def spiMaxBytes : ℕ := 65536

structure Engine where
  tx : ℕ → UInt8
  rx : ℕ → UInt8
  depth : ℕ
  frames : ℕ
  queued : ℕ
  received : ℕ

/-- A request, with the settings of its target and of the controller. -/
structure Request where
  engine : Engine
  transfers : List (Part × Mdl)
  clockHz : ℕ
  speed : ℕ
  mode : BitVec 32
  frameControl : BitVec 32

/-- What the registers hold whenever they are read, which parts of a buffer can be mapped, whether the
request was cancelled and the controller is online, what the chip select answers, and how often
the worker wakes before its deadline. -/
structure World where
  register : ℕ → ℕ → BitVec 32
  maps : ℕ → ℕ → ℕ → Bool
  cancelled : ℕ → Bool
  online : ℕ → Bool
  select : ℕ → Except Status Unit
  wakes : ℕ

inductive Event
  | wrote (offset : ℕ) (value : BitVec 32)
  | selected (active : Bool)
  /-- A byte was written to the data register. -/
  | sent (byte : UInt8)
  /-- The data register was read, and the byte stored at a receive position. -/
  | took (position : ℕ) (data : BitVec 32)

abbrev Context := Recorded World Request Event

abbrev Drive (α : Type) := Effect Context Status α

def read (offset : ℕ) : Drive (BitVec 32) := ask fun world time => world.register time offset

def write (offset : ℕ) (value : BitVec 32) : Drive Unit := record (.wrote offset value)

/-! ### A request -/

/-- Lays the transfers out, the frames behind each other or, in full duplex, in one place, and counts
the frames. -/
def place (fullDuplex : Bool) : (i total frames : ℕ) → List Descriptor → Option (List Part × ℕ)
  | _, _, frames, [] => some ([], frames)
  | i, total, frames, d :: l =>
    let t := d.part (if fullDuplex then 0 else total)
    if ¬d.Acceptable spiMaxBytes total then none
    else if fullDuplex = true ∧ t.read ≠ (i == 1) then none
    else
      (place fullDuplex (i + 1) (total + t.length)
        (if fullDuplex then (if frames < t.length then t.length else frames) else total + t.length) l).map
        fun r => (t :: r.1, r.2)

/-- The transfers of a request and the number of frames, if it is one that the driver takes. -/
def transfersOf (fullDuplex single : Bool) (ds : List Descriptor) : Except Status (List Part × ℕ) :=
  if (fullDuplex = false ∧ single = false) ∨ ds = [] ∨ spiMaxTransfers < ds.length ∨ (fullDuplex = true ∧ ds.length ≠ 2) then
    .error .invalidParameter
  else match place fullDuplex 0 0 0 ds with
    | some r => .ok r
    | none => .error .invalidParameter

/-- The transfers with their buffers. -/
def buffers (parts : List Part) (ds : List Descriptor) : List (Part × Mdl) := parts.zip (ds.map Descriptor.mdl)

/-- `Begin` up to the hand-over: the transfers are put into a request with the settings, and nothing was
exchanged yet. -/
def beginRequest (settings : Request) (fullDuplex single : Bool) (ds : List Descriptor) : Except Status Request :=
  match transfersOf fullDuplex single ds with
  | .ok (parts, frames) => .ok { settings with
      engine := { settings.engine with frames := frames, queued := 0, received := 0 }
      transfers := buffers parts ds }
  | .error e => .error e

def spiDivider (hz speed : ℕ) : Except Status ℕ :=
  if speed < 100000 ∨ 4000000 < speed ∨ hz < speed ∨ 250000000 < hz then .error .invalidParameter
  else
    let divider := (hz + speed - 1) / speed
    let divider := (divider + 1) / 2 * 2
    if divider < 2 ∨ 65534 < divider then .error .invalidParameter else .ok divider

namespace Engine

def queue (e : Engine) : Engine := { e with queued := e.queued + 1 }

def store (data : BitVec 32) (e : Engine) : Engine :=
  { e with
    rx := fun i => if i = e.received then UInt8.ofNat data.toNat else e.rx i
    received := e.received + 1 }

/-- The frames of a request are zeros before the bytes to send are copied over them. -/
def clear (e : Engine) : Engine := { e with tx := fun i => if i < e.frames then 0 else e.tx i }

def mask (e : Engine) : BitVec 32 :=
  spiIrqErrors ||| spiIrqRx ||| (if e.queued < e.frames ∧ e.queued - e.received < e.depth then spiIrqTx else 0)

end Engine

def changeEngine (f : Engine → Engine) : Drive Unit := change fun r => { r with engine := f r.engine }

/-! ### The pump -/

def receive : ℕ → Drive Unit
  | 0 => pure ()
  | n + 1 => do
    let data ← read spiData
    let r ← look
    record (.took r.engine.received data)
    changeEngine (Engine.store data)
    receive n

def send : ℕ → Drive Unit
  | 0 => pure ()
  | n + 1 => do
    let r ← look
    when (r.engine.queued < r.engine.frames) do
      record (.sent (r.engine.tx r.engine.queued))
      changeEngine Engine.queue
      send n

/-- All frames were received; the request is done once the controller is idle. -/
def settle : Drive (BitVec 32 × Bool) := do
  let status ← read spiStatus
  pure (0, status &&& 1 = 0)

/-- Accounts for bytes in both FIFOs and the shift register: the controller must never clock more
input than the receive FIFO has room to hold. -/
def transmit : Drive (BitVec 32 × Bool) := do
  let count ← read spiTxLevel
  let r ← look
  require (count.toNat ≤ r.engine.depth) .deviceDataError
  send (min (r.engine.depth - count.toNat) (r.engine.depth - (r.engine.queued - r.engine.received)))
  let r ← look
  pure (r.engine.mask, false)

/-- `SpiPump`, with the interrupts to enable and whether the request is done. -/
def spiPump : Drive (BitVec 32 × Bool) := do
  let raw ← read spiRaw
  require (raw &&& spiIrqErrors = 0) .ioDeviceError
  let count ← read spiRxLevel
  let r ← look
  require (count.toNat ≤ r.engine.depth ∧ count.toNat ≤ r.engine.queued - r.engine.received) .deviceDataError
  receive count.toNat
  let r ← look
  if r.engine.received = r.engine.frames then settle else transmit

/-! ### The worker -/

def setMask (mask : BitVec 32) : Drive Unit := do
  write spiMask mask
  let _ ← read spiMask
  pure ()

def disable : Drive Unit := do
  write spiEnable 0
  let _ ← read spiEnable
  write spiSelect 0
  let _ ← read spiClear
  pure ()

/-- The chip select is a pin of another device. -/
def selectChip (active : Bool) : Drive Unit := do
  record (.selected active)
  let answer ← ask fun world time => world.select time
  ofExcept answer

/-- Neither cancelled nor stopped. -/
def proceed : Drive Unit := do
  let cancelled ← ask fun world time => world.cancelled time
  require (cancelled = false) .cancelled
  let online ← ask fun world time => world.online time
  require (online = true) .devicePowerFailure

/-- Fetches the bytes to send, before the hardware is touched. -/
def fetch : Drive ℕ := do
  changeEngine Engine.clear
  let maps ← ask fun world time => world.maps time
  let r ← look
  let tx ← ofExcept (copyIn maps 0 r.transfers r.engine.tx)
  changeEngine fun e => { e with tx := tx }
  proceed
  ofExcept (spiDivider r.clockHz r.speed)

/-- Sets the controller up, and starts it. -/
def program (divider : ℕ) : Drive Unit := do
  setMask 0
  disable
  let r ← look
  write spiControl (r.frameControl ||| (r.mode <<< 6))
  write spiCount 0
  write spiDividerOffset (BitVec.ofNat 32 divider)
  write spiTxThreshold (BitVec.ofNat 32 (r.engine.depth / 2 - 1))
  write spiRxThreshold 0
  write spiDma 0
  write spiRxDelay 0
  selectChip true
  -- Internal transmit gate; the physical chip select is a pin.
  write spiSelect 1
  write spiEnable 1

/-- One call of the pump, with the mask it leaves. -/
def pumpOnce : Drive Bool := do
  let online ← ask fun world time => world.online time
  require (online = true) .devicePowerFailure
  let (mask, done) ← spiPump.orElse fun e => do
    setMask 0
    stop e
  setMask (if done then 0 else mask)
  pure done

/-- Pumps until the request is done, but not past the deadline. -/
def exchange : ℕ → Drive Unit
  | 0 => do
    proceed
    stop .ioTimeout
  | n + 1 => do
    proceed
    let done ← pumpOnce
    if done then pure () else exchange n

def transfer (divider : ℕ) : Drive Unit := do
  program divider
  let wakes ← ask fun world _ => world.wakes
  exchange wakes

/-- Hands the received bytes over. -/
def deliver : Drive Unit := do
  let maps ← ask fun world time => world.maps time
  let r ← look
  let transfers ← ofExcept (copyOut maps r.engine.rx 0 r.transfers)
  change fun r => { r with transfers := transfers }

/-- Quiets the hardware after a transfer, however it ended. -/
def retire (outcome : Except Status Unit) : Drive Unit := do
  setMask 0
  disable
  let deselect ← (selectChip false).attempt
  ofExcept outcome
  ofExcept deselect
  deliver

/-- `SpiWorker` up to the status of the request. -/
def spiWorker : Drive Unit := do
  let divider ← fetch
  let outcome ← (transfer divider).attempt
  retire outcome

end Pi5Drivers.Spi
