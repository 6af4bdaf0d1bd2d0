import Pi5Drivers.Lib.Observed
import Pi5Drivers.Spb.Request

/-! The I2C controller as its driver uses it during a request: the transfers of the request,
and the pump that sends commands and takes bytes as far as the FIFOs let it. -/

namespace Pi5Drivers.I2c

open Spb Effect Recorded

def i2cData : ℕ := 0x10
def i2cRaw : ℕ := 0x34
def i2cClearAbort : ℕ := 0x54
def i2cClearStop : ℕ := 0x60
def i2cTxLevel : ℕ := 0x74
def i2cRxLevel : ℕ := 0x78
def i2cAbortSource : ℕ := 0x80

def i2cIrqErrors : BitVec 32 := 0x4a
def i2cIrqStop : BitVec 32 := 0x200
def i2cIrqRx : BitVec 32 := 4
def i2cIrqTx : BitVec 32 := 0x10

def i2cCommandRead : BitVec 32 := 0x100
def i2cCommandStop : BitVec 32 := 0x200
def i2cCommandRestart : BitVec 32 := 0x400

def i2cMaxTransfers : ℕ := 16
def i2cMaxBytes : ℕ := 65536

structure Transfer where
  offset : ℕ
  length : ℕ
  queued : ℕ
  received : ℕ
  read : Bool

structure Engine where
  buffer : ℕ → UInt8
  txDepth : ℕ
  rxDepth : ℕ
  transferCount : ℕ
  txIndex : ℕ
  rxIndex : ℕ
  outstanding : ℕ
  abortSource : BitVec 32
  stopped : Bool
  transfers : ℕ → Transfer

/-- What the registers hold whenever they are read. -/
structure World where
  register : ℕ → ℕ → BitVec 32

inductive Event
  /-- A command was written to the data register. -/
  | sent (command : BitVec 32)
  /-- The data register was read, and the byte stored. -/
  | took (position : ℕ) (data : BitVec 32)

abbrev Context := Recorded World Engine Event

abbrev Drive (α : Type) := Effect Context Status α

def read (offset : ℕ) : Drive (BitVec 32) := ask fun world time => world.register time offset

/-! ### A request -/

/-- The depths of the FIFOs, where the driver can use them. -/
def depths (parameters : BitVec 32) : Except Status (ℕ × ℕ) :=
  let txDepth := ((parameters >>> 16) &&& 255).toNat + 1
  let rxDepth := ((parameters >>> 8) &&& 255).toNat + 1
  if txDepth < 2 ∨ rxDepth < 2 then .error .deviceConfigurationError else .ok (txDepth, rxDepth)

/-- The transfers of a request, if it is one that the driver takes. -/
def transfersOf (single : Bool) (ds : List Descriptor) : Except Status (List Part) :=
  if single = false ∨ ds = [] ∨ i2cMaxTransfers < ds.length then .error .invalidParameter
  else match layout i2cMaxBytes 0 ds with
    | some parts => .ok parts
    | none => .error .invalidParameter

def Transfer.ofPart (p : Part) : Transfer := ⟨p.offset, p.length, 0, 0, p.read⟩

/-- The engine of a request before anything was sent. -/
def engine (buffer : ℕ → UInt8) (fifos : ℕ × ℕ) (parts : List Part) : Engine where
  buffer := buffer
  txDepth := fifos.1
  rxDepth := fifos.2
  transferCount := parts.length
  txIndex := 0
  rxIndex := 0
  outstanding := 0
  abortSource := 0
  stopped := false
  transfers i := .ofPart (parts.getD i .none)

namespace Engine

/-- The transfer at an index is replaced. -/
def put (e : Engine) (i : ℕ) (t : Transfer) : Engine :=
  { e with transfers := fun j => if j = i then t else e.transfers j }

/-- The transfer that is sent. -/
def sending (e : Engine) : Transfer := e.transfers e.txIndex

/-- The transfer that bytes are received for. -/
def receiving (e : Engine) : Transfer := e.transfers e.rxIndex

/-- What is written for the next byte of the transfer that is sent. -/
def command (e : Engine) : BitVec 32 :=
  (if e.sending.read then i2cCommandRead
    else BitVec.ofNat 32 (e.buffer (e.sending.offset + e.sending.queued)).toNat) |||
  (if e.sending.queued = 0 ∧ e.txIndex ≠ 0 then i2cCommandRestart else 0) |||
  (if e.txIndex + 1 = e.transferCount ∧ e.sending.queued + 1 = e.sending.length then i2cCommandStop else 0)

/-- Counts the command that was written. -/
def queue (e : Engine) : Engine :=
  { e.put e.txIndex { e.sending with queued := e.sending.queued + 1 } with
    outstanding := if e.sending.read then e.outstanding + 1 else e.outstanding
    txIndex := if e.sending.queued + 1 = e.sending.length then e.txIndex + 1 else e.txIndex }

/-- Nothing is to be received for the transfer, or nothing any more. -/
def passed (e : Engine) (i : ℕ) : Bool :=
  !(e.transfers i).read || (e.transfers i).received == (e.transfers i).length

/-- Steps over transfers that nothing is to be received for, but over no more than so many. -/
def skip (e : Engine) : ℕ → ℕ → ℕ
  | 0, i => i
  | n + 1, i => if i < e.transferCount ∧ e.passed i = true then e.skip n (i + 1) else i

/-- Moves on to the transfer that the next byte is for. -/
def advance (e : Engine) : Engine := { e with rxIndex := e.skip (e.transferCount - e.rxIndex) e.rxIndex }

/-- Where the next byte is put. -/
def place (e : Engine) : ℕ := e.receiving.offset + e.receiving.received

/-- Puts a byte in its place. -/
def store (data : BitVec 32) (e : Engine) : Engine :=
  { e.put e.rxIndex { e.receiving with received := e.receiving.received + 1 } with
    buffer := fun i => if i = e.place then UInt8.ofNat data.toNat else e.buffer i
    outstanding := e.outstanding - 1 }

/-- A command is left, and there is room for what it brings. -/
def Sendable (e : Engine) : Prop :=
  e.txIndex < e.transferCount ∧ (e.sending.read = false ∨ e.outstanding < e.rxDepth)

instance (e : Engine) : Decidable e.Sendable := inferInstanceAs (Decidable (_ ∧ _))

def mask (e : Engine) : BitVec 32 :=
  i2cIrqErrors ||| i2cIrqStop ||| (if e.outstanding = 0 then 0 else i2cIrqRx) ||| (if e.Sendable then i2cIrqTx else 0)

end Engine

/-! ### The pump -/

/-- The transfer was aborted. -/
def abort : Drive Unit := do
  let source ← read i2cAbortSource
  change fun e => { e with abortSource := source }
  let _ ← read i2cClearAbort
  if source &&& 7 = 0 then stop .ioDeviceError else stop .noSuchDevice

def noteStop (raw : BitVec 32) : Drive Unit :=
  when (raw &&& i2cIrqStop ≠ 0) do
    change fun e => { e with stopped := true }
    let _ ← read i2cClearStop
    pure ()

/-- Takes so many bytes from the receive FIFO. -/
def receive : ℕ → Drive Unit
  | 0 => pure ()
  | n + 1 => do
    change Engine.advance
    let e ← look
    require (e.rxIndex ≠ e.transferCount) .deviceDataError
    let data ← read i2cData
    record (.took e.place data)
    change (Engine.store data)
    receive n

/-- Sends as many commands as the transmit FIFO has room for, unless the receive FIFO could overflow. -/
def send : ℕ → Drive Unit
  | 0 => pure ()
  | n + 1 => do
    let e ← look
    when (e.txIndex < e.transferCount ∧ ¬(e.sending.read = true ∧ e.outstanding = e.rxDepth)) do
      record (.sent e.command)
      change Engine.queue
      send n

/-- The transfer was stopped; nothing may be left. -/
def finish : Drive (BitVec 32 × Bool) := do
  let e ← look
  require (e.txIndex = e.transferCount ∧ e.outstanding = 0) .deviceDataError
  pure (0, true)

def transmit : Drive (BitVec 32 × Bool) := do
  let count ← read i2cTxLevel
  let e ← look
  require (count.toNat ≤ e.txDepth) .deviceDataError
  send (e.txDepth - count.toNat)
  let e ← look
  pure (e.mask, false)

/-- `I2cPump`, with the interrupts to enable and whether the request is done. -/
def i2cPump : Drive (BitVec 32 × Bool) := do
  let raw ← read i2cRaw
  when (raw &&& 0x40 ≠ 0) abort
  require (raw &&& 0x0a = 0) .dataOverrun
  noteStop raw
  let count ← read i2cRxLevel
  let e ← look
  require (count.toNat ≤ e.rxDepth ∧ count.toNat ≤ e.outstanding) .deviceDataError
  receive count.toNat
  let e ← look
  if e.stopped then finish else transmit

end Pi5Drivers.I2c
