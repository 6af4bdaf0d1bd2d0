import Pi5Drivers.Serial.Port

/-! The serial ports of the RP1. The interrupt routine moves what was received into a ring
and flags the notifications, a deferred procedure calls the framework, and the framework's
calls, the timer and the control requests come in between. Each definition is a function or
what it does while it holds the interrupt lock. -/

namespace Pi5Drivers.Rp1Uart

open Serial Effect Recorded

/-- What only this controller has. -/
structure Own where
  uid : BitVec 32
  draining : Bool
  purging : Bool

abbrev Uart := Controller Own

abbrev Drive (α : Type) := Serial.Drive Own Status α

/-! ### Registers -/

def uartDr : ℕ := 0x00
def uartRsr : ℕ := 0x04
def uartFr : ℕ := 0x18
def uartIbrd : ℕ := 0x24
def uartFbrd : ℕ := 0x28
def uartLcrh : ℕ := 0x2c
def uartCr : ℕ := 0x30
def uartIfls : ℕ := 0x34
def uartImsc : ℕ := 0x38
def uartMis : ℕ := 0x40
def uartIcr : ℕ := 0x44
def uartDmacr : ℕ := 0x48

def uartRxIrq : BitVec 32 := 0x7d0
def uartTxIrq : BitVec 32 := 0x20
def uartRxEmpty : BitVec 32 := 0x10
def uartTxFull : BitVec 32 := 0x20
def uartBusy : BitVec 32 := 0x08

def savedOffsets : List ℕ := [uartIbrd, uartFbrd, uartLcrh, uartCr, uartIfls, uartImsc, uartDmacr]

/-! ### Hardware -/

def uartDivisor (clockHz baud : BitVec 32) : Except Status (BitVec 32) :=
  if baud.toNat < 300 ∨ 1000000 < baud.toNat ∨ clockHz.toNat < 16 * baud.toNat then .error .invalidParameter
  else
    let value := (4 * clockHz.toNat + baud.toNat / 2) / baud.toNat
    if value < 64 ∨ 0x3fffff < value then .error .invalidParameter
    else
      let actual := 4 * clockHz.toNat / value
      let error := if baud.toNat < actual then actual - baud.toNat else baud.toNat - actual
      if baud.toNat * 2 < error * 100 then .error .invalidParameter else .ok (BitVec.ofNat 32 value)

def uartLine (line : LineControl) : Except Status (BitVec 32) := do
  if line.wordLength < 5 ∨ 8 < line.wordLength then throw .invalidParameter
  let word := 0x10#32 ||| BitVec.ofNat 32 (line.wordLength.toNat - 5) <<< 5
  let stop ←
    if line.stopBits = stopBits2 then pure (word ||| 8)
    else if line.stopBits = stopBit1 then pure word
    else throw .invalidParameter
  if line.parity = noParity then pure stop
  else if line.parity = oddParity then pure (stop ||| 2)
  else if line.parity = evenParity then pure (stop ||| 6)
  else if line.parity = markParity then pure (stop ||| 0x82)
  else if line.parity = spaceParity then pure (stop ||| 0x86)
  else throw .invalidParameter

def uartProgram : Drive Unit := do
  let u ← look
  let divisor := (uartDivisor u.clockHz u.baud).toOption.getD 0
  write uartCr 0
  write uartIbrd (divisor >>> 6)
  write uartFbrd (divisor &&& 63)
  -- Commits both divisor registers.
  write uartLcrh u.line
  write uartCr (if u.isOpen then u.control else 0)
  let _ ← read uartCr
  pure ()

/-- What the status bits of a received byte are reported as. -/
def received (data : BitVec 32) (u : Uart) : Uart :=
  { u with
    errors := u.errors ||| (if data &&& 0x100 = 0 then 0 else serialErrorFraming) |||
      (if data &&& 0x200 = 0 then 0 else serialErrorParity) |||
      (if data &&& 0x400 = 0 then 0 else serialErrorBreak) |||
      (if data &&& 0x800 = 0 then 0 else serialErrorOverrun)
    events := u.events ||| (if data &&& 0x400 = 0 then 0 else serialEvBreak) }

/-- Takes one byte out of the FIFO; it is lost if the ring is full. -/
def takeByte : Drive Unit := do
  let data ← read uartDr
  change (received data)
  let u ← look
  let byte := UInt8.ofNat data.toNat
  if u.ring.count = ringSize then
    act (fun u => { u with errors := u.errors ||| serialErrorQueueoverrun }) (.took byte)
  else take byte

/-- Takes bytes until the FIFO is empty, but no more than so many. -/
def takeBytes : ℕ → Drive Unit
  | 0 => pure ()
  | n + 1 => do
    let state ← read uartFr
    when (state &&& uartRxEmpty = 0) do
      takeByte
      takeBytes n

def uartCapture : Drive Unit := do
  takeBytes 64
  change fun u => if u.errors = 0 then u else { u with events := u.events ||| serialEvErr }

def interruptMask : Drive Unit := do
  change fun u => { u with
    mask := if u.isOpen then uartRxIrq ||| (if u.tx.armed then uartTxIrq else 0) else 0 }
  let u ← look
  write uartImsc u.mask
  let _ ← read uartImsc
  pure ()

/-! ### Power -/

/-- An already active UART is not an implicit firmware handoff. -/
def uartPrepare (uid : BitVec 32) : Drive Unit := do
  let resources ← ask fun world time => world.resources time
  ofExcept resources
  change fun u => { u with own := { u.own with uid := uid } }
  require (uid = 0 ∨ uid = 2 ∨ uid = 3 ∨ uid = 4) .notSupported
  let mapped ← ask fun world time => world.resources time
  ofExcept mapped
  each (fun offset => do
    let value ← read offset
    change fun u => { u with boot := fun i => if i = offset then value else u.boot i }) savedOffsets
  let u ← look
  require (u.boot uartCr &&& 1 = 0 ∧ u.boot uartImsc = 0 ∧ u.boot uartDmacr = 0) .deviceBusy

def uartStart : Drive Unit := do
  let clock ← ask fun world time => world.clock time
  let clockHz ← ofExcept clock
  change fun u => { u with clockHz := clockHz }
  let u ← look
  let _ ← ofExcept (uartDivisor u.clockHz u.baud)
  write uartImsc 0
  write uartCr 0
  write uartDmacr 0
  write uartIcr 0x7ff
  -- RX/TX thresholds: 1/8 of the 32-byte FIFO.
  write uartIfls 0
  uartProgram
  let route ← ask fun world time => world.route time
  ofExcept route

/-- `UartStop` under the lock. -/
def uartStop : Drive Unit := do
  change fun u => { u with online := false, own := { u.own with draining := false, purging := false } }
  write uartImsc 0
  write uartCr 0
  let _ ← read uartCr
  pure ()

/-- `UartStop` after it released the lock. -/
def uartRestore : Drive Unit := do
  stopTimer
  let u ← look
  each (fun offset => write offset (u.boot offset)) savedOffsets
  let _ ← read uartCr
  pure ()

def uartInterruptEnable : Drive Unit := do
  change fun u => { u with online := true }
  interruptMask

/-- Quiesces the source before the interrupt is disconnected. -/
def uartInterruptDisable : Drive Unit := do
  change fun u => { u with online := false }
  write uartImsc 0
  let _ ← read uartImsc
  pure ()

/-! ### Files -/

/-- The context of a port that is opened. -/
def opened (u : Uart) : Uart :=
  { u with
    ring := u.ring.clear
    errors := 0
    events := 0
    waitMask := 0
    rx := u.rx.drop
    tx := u.tx.drop
    own := { u.own with draining := false, purging := false }
    baud := 115200
    line := 0x70
    control := 0x301
    flow := Handflow.zero
    chars := Chars.zero
    isOpen := true }

def uartOpen : Drive Unit := do
  let u ← look
  require (u.online = true ∧ u.isOpen = false) .deviceNotReady
  act opened .renewed
  write uartLcrh 0
  write uartRsr 0
  uartProgram
  write uartIcr 0x7ff
  interruptMask

/-- `UartClose` under the lock; it stops the timer afterwards. -/
def uartClose : Drive Unit := do
  change fun u => { u with isOpen := false, own := { u.own with draining := false, purging := false } }
  interruptMask
  write uartCr 0
  let _ ← read uartCr
  clearRing
  change fun u => { u with waitMask := 0, events := 0 }

/-! ### Interrupts -/

/-- Room to transmit ends a transmit notification. -/
def flagTransmit : Drive Unit := do
  let u ← look
  when (u.tx.armed = true) do
    let state ← read uartFr
    when (state &&& uartTxFull = 0) do
      change fun u => { u with tx := u.tx.flag, mask := u.mask &&& ~~~uartTxIrq }
      let u ← look
      write uartImsc u.mask

def uartIsr : Drive Bool := do
  let u ← look
  if !u.online || !u.isOpen then pure false
  else do
    let status ← read uartMis
    let pending := status &&& u.mask
    if pending = 0 then pure false
    else do
      when (pending &&& uartRxIrq ≠ 0) uartCapture
      write uartIcr pending
      flagReceive
      flagTransmit
      let _ ← read uartImsc
      let u ← look
      when (u.rx.pending = true ∨ u.tx.pending = true ∨ u.events &&& u.waitMask ≠ 0) queueDpc
      pure true

/-- `UartDpc` under the lock. It calls the framework afterwards. -/
def uartDpc : Drive Unit := commitReady

/-! ### Bytes -/

def uartReceive (length : ℕ) : Drive Unit := do
  let u ← look
  when (u.online = true ∧ u.isOpen = true) do
    uartCapture
    hand length

/-- Writes bytes while there is place for them. -/
def transmitBytes : ℕ → List UInt8 → Drive Unit
  | _, [] | 0, _ => pure ()
  | n + 1, byte :: rest => do
    let state ← read uartFr
    when (state &&& uartTxFull = 0) do
      write uartDr (BitVec.ofNat 32 byte.toNat)
      transmitBytes n rest

def uartTransmit (bytes : List UInt8) : Drive Unit := do
  let u ← look
  when (u.online = true ∧ u.isOpen = true) do
    transmitBytes 64 bytes
    let _ ← read uartFr
    pure ()

def uartTxEnable : Drive Unit := do
  act (fun u => { u with tx := u.tx.arm }) (.asked .transmit)
  let state ← read uartFr
  if state &&& uartTxFull = 0 then do
    change fun u => { u with tx := u.tx.flag }
    queueDpc
  else interruptMask

def uartTxCancel : Drive Bool := do
  let cancelled ← cancel .transmit
  interruptMask
  pure cancelled

/-! ### The end of a transmission -/

/-- `UartDrain` under the lock; it starts the timer afterwards. -/
def uartDrain : Drive Unit := change fun u => { u with own := { u.own with draining := true } }

/-- `UartDrainCancel` under the lock; it stops the timer afterwards. -/
def uartDrainCancel : Drive Bool := do
  let u ← look
  change fun u => { u with own := { u.own with draining := false } }
  pure u.own.draining

/-- PL011 has no TX FIFO occupancy counter or selective TX flush, so what is in the hardware
finishes before a purge does. -/
def uartTxPurge : Drive Unit := change fun u => { u with own := { u.own with purging := true } }

/-- What the timer finds: the transmitter is busy, or it was drained or purged. -/
inductive Drained
  | idle
  | again
  | drained
  | purged

/-- `UartDrainTimer` under the lock. -/
def uartDrainTimer : Drive Drained := do
  let u ← look
  if (u.own.draining || u.own.purging) && u.online then do
    let state ← read uartFr
    if state &&& uartBusy = 0 then do
      change fun u => { u with own := { u.own with draining := false, purging := false } }
      pure (if u.own.purging then .purged else .drained)
    else pure .again
  else pure .idle

/-! ### Requests -/

/-- What a purge does after it captured. -/
def purgeFifos (rx tx : Bool) : Drive Unit := do
  when (tx = true) do
    let u ← look
    write uartCr 0
    write uartLcrh (u.line &&& ~~~0x10)
    write uartLcrh u.line
    write uartCr u.control
  when (rx = true) clearRing
  write uartRsr 0
  write uartIcr 0x7ff
  let _ ← read uartCr
  pure ()

def uartPurge (rx tx : Bool) : Drive Unit := do
  uartCapture
  purgeFifos rx tx

def uartWait (mask : BitVec 32) : Drive Unit :=
  setWaitMask (serialEvRxchar ||| serialEvRxflag ||| serialEvTxempty ||| serialEvBreak ||| serialEvErr) mask

/-- Sets both modem outputs. -/
def setModem (dtr rts : Prop) [Decidable dtr] [Decidable rts] : Drive Unit := do
  change fun u => { u with
    control := u.control &&& ~~~0xc00 ||| (if dtr then 0x400 else 0) ||| (if rts then 0x800 else 0) }
  let u ← look
  write uartCr u.control

def setControl (f : BitVec 32 → BitVec 32) : Drive Unit := do
  change fun u => { u with control := f u.control }
  let u ← look
  write uartCr u.control

def setLine (f : BitVec 32 → BitVec 32) : Drive Unit := do
  change fun u => { u with line := f u.line }
  let u ← look
  write uartLcrh u.line

/-- The line control that a value of the line register stands for. -/
def lineOf (line : BitVec 32) : LineControl where
  wordLength := UInt8.ofNat ((line >>> 5 &&& 3).toNat + 5)
  stopBits := if line &&& 8 = 0 then stopBit1 else stopBits2
  parity :=
    if line &&& 2 = 0 then noParity
    else if line &&& 0x80 = 0 then (if line &&& 4 = 0 then oddParity else evenParity)
    else if line &&& 4 = 0 then markParity
    else spaceParity

/-- Stops while the transmitter is busy. -/
def requireIdle : Drive Unit := do
  let state ← read uartFr
  require (state &&& uartBusy = 0) .deviceBusy

/-- A request of an open port, under the lock. -/
def control : Code → Drive Answer
  | .setBaudRate baudRate => do
    let u ← look
    let _ ← ofExcept (uartDivisor u.clockHz baudRate)
    requireIdle
    change fun u => { u with baud := baudRate }
    uartProgram
    pure .nothing
  | .getBaudRate => do
    let u ← look
    pure (.baudRate u.baud)
  | .setLineControl line => do
    let value ← ofExcept (uartLine line)
    requireIdle
    change fun u => { u with line := value }
    uartProgram
    pure .nothing
  | .getLineControl => do
    let u ← look
    pure (.lineControl (lineOf u.line))
  | .setHandflow flow => do
    require (flow.controlHandShake &&& ~~~serialDtrControl = 0 ∧ flow.flowReplace &&& ~~~serialRtsControl = 0)
      .invalidParameter
    change fun u => { u with flow := flow }
    setModem (flow.controlHandShake &&& serialDtrControl ≠ 0) (flow.flowReplace &&& serialRtsControl ≠ 0)
    pure .nothing
  | .getHandflow => do
    let u ← look
    pure (.handflow u.flow)
  | .setChars chars => do
    change fun u => { u with chars := chars }
    pure .nothing
  | .getChars => do
    let u ← look
    pure (.chars u.chars)
  | .getProperties => pure (.properties (properties (BitVec.ofNat 32 ringSize) 0xc0))
  | .getCommStatus => do
    let errors ← reportErrors
    let u ← look
    let state ← read uartFr
    pure (.commStatus errors (BitVec.ofNat 32 u.ring.count) (if state &&& uartBusy = 0 then 0 else 1))
  | .getModemStatus => do
    let value ← read uartFr
    pure (.word ((if value &&& 1 = 0 then 0 else 0x10) ||| (if value &&& 2 = 0 then 0 else 0x20) |||
      (if value &&& 4 = 0 then 0 else 0x80) ||| (if value &&& 0x100 = 0 then 0 else 0x40)))
  | .getModemControl | .getDtrRts => do
    let u ← look
    pure (.word ((if u.control &&& 0x400 = 0 then 0 else serialDtrState) |||
      (if u.control &&& 0x800 = 0 then 0 else serialRtsState)))
  | .setModemControl value => do
    require (value &&& ~~~(serialDtrState ||| serialRtsState) = 0) .invalidParameter
    setModem (value &&& serialDtrState ≠ 0) (value &&& serialRtsState ≠ 0)
    pure .nothing
  | .setDtr => do
    setControl (· ||| 0x400)
    pure .nothing
  | .clrDtr => do
    setControl (· &&& ~~~0x400)
    pure .nothing
  | .setRts => do
    setControl (· ||| 0x800)
    pure .nothing
  | .clrRts => do
    setControl (· &&& ~~~0x800)
    pure .nothing
  | .setBreakOn => do
    setLine (· ||| 1)
    pure .nothing
  | .setBreakOff => do
    setLine (· &&& ~~~1)
    pure .nothing
  -- Queue hints do not change the fixed bounded ring.
  | .setQueueSize _ _ => pure .nothing
  | .unknown => stop .notSupported

def uartControl (code : Code) : Drive Answer := do
  require (code.known = true) .notSupported
  when (code.buffered = true) do
    let buffers ← ask fun world time => world.retrieve time
    ofExcept buffers
  let u ← look
  require (u.isOpen = true ∧ u.online = true) .deviceNotReady
  control code

end Pi5Drivers.Rp1Uart
