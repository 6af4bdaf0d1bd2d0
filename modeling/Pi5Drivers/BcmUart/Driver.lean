import Pi5Drivers.Serial.Port

/-! The serial port of the BCM7271. The receive side is paused while the ring is full and
until half of it was read, and it is held back by the empty receive timeout that a timer has
to end; both take the receive interrupt and the request to send away. Each definition is a
function or what it does while it holds the interrupt lock. -/

namespace Pi5Drivers.BcmUart

open Serial Effect Recorded

/-- Where the device is between its power transitions. -/
inductive Power
  | removed
  | down
  | entered
  | running
  | disabled
  | stopped
deriving DecidableEq

/-- What only this controller has. The deferred procedure has still to start the timer with the
delays of `timerStarts`, and so many closes have still to stop it; `power` is what the
framework knows. -/
structure Own where
  rxPaused : Bool
  quirk : Bool
  quirkPending : Bool
  timerStarts : List (BitVec 32)
  timerStops : ℕ
  power : Power

abbrev Uart := Controller Own

abbrev Drive (α : Type) := Serial.Drive Own Status α

/-! ### Registers -/

def uartRbr : ℕ := 0x00
def uartThr : ℕ := 0x00
def uartDll : ℕ := 0x00
def uartIer : ℕ := 0x04
def uartDlm : ℕ := 0x04
def uartIir : ℕ := 0x08
def uartFcr : ℕ := 0x08
def uartLcr : ℕ := 0x0c
def uartMcr : ℕ := 0x10
def uartLsr : ℕ := 0x14
def uartMsr : ℕ := 0x18
def uartScr : ℕ := 0x1c

def uartRxIrq : BitVec 32 := 5
def uartTxIrq : BitVec 32 := 2
def uartModemIrq : BitVec 32 := 8
def uartRxReady : BitVec 32 := 1
def uartTxEmpty : BitVec 32 := 0x20
def uartIdle : BitVec 32 := 0x40
/-- FIFO enabled, receive threshold eight bytes. -/
def uartFifo : BitVec 32 := 0x41
def uartRts : BitVec 32 := 2
def uartAfe : BitVec 32 := 0x20

def highWater : ℕ := ringSize - 64
def lowWater : ℕ := ringSize / 2

/-! ### Hardware -/

def uartDivisor (clockHz baud : BitVec 32) : Except Status (BitVec 32) :=
  if baud.toNat < 300 ∨ 3000000 < baud.toNat ∨ clockHz.toNat < 16 * baud.toNat then .error .invalidParameter
  else
    let value := (clockHz.toNat + 8 * baud.toNat) / (16 * baud.toNat)
    if value = 0 ∨ 65535 < value then .error .invalidParameter
    else
      let actual := clockHz.toNat / (16 * value)
      let error := if baud.toNat < actual then actual - baud.toNat else baud.toNat - actual
      if baud.toNat * 2 < error * 100 then .error .invalidParameter else .ok (BitVec.ofNat 32 value)

def parityBits (parity : UInt8) : Option (BitVec 32) :=
  if parity = noParity then some 0
  else if parity = oddParity then some 8
  else if parity = evenParity then some 0x18
  else if parity = markParity then some 0x28
  else if parity = spaceParity then some 0x38
  else none

def stopBits (bits : UInt8) : Option (BitVec 32) :=
  if bits = stopBits2 then some 4 else if bits = stopBit1 then some 0 else none

def uartLine (line : LineControl) : Except Status (BitVec 32) :=
  if line.wordLength < 5 ∨ 8 < line.wordLength then .error .invalidParameter
  else match stopBits line.stopBits, parityBits line.parity with
    | some stop, some parity => .ok (BitVec.ofNat 32 (line.wordLength.toNat - 5) ||| stop ||| parity)
    | _, _ => .error .invalidParameter

/-- Receive is paused or held back. -/
def Own.holds (o : Own) : Bool := o.rxPaused || o.quirk

def maskOf (u : Uart) : BitVec 32 :=
  if u.isOpen && u.online then
    uartModemIrq ||| (if u.own.holds then 0 else uartRxIrq) ||| (if u.tx.armed then uartTxIrq else 0)
  else 0

def modemOf (u : Uart) : BitVec 32 :=
  let control := if u.isOpen then u.control else 0
  if u.own.holds then control &&& ~~~uartRts else control

def uartInterruptMask : Drive Unit := do
  change fun u => { u with mask := maskOf u }
  let u ← look
  write uartMcr (modemOf u)
  write uartIer u.mask
  let _ ← read uartIer
  pure ()

def uartProgram : Drive Unit := do
  let u ← look
  let divisor := (uartDivisor u.clockHz u.baud).toOption.getD 0
  write uartIer 0
  write uartLcr (u.line ||| 0x80)
  write uartDll (divisor &&& 255)
  write uartDlm (divisor >>> 8)
  write uartLcr u.line
  uartInterruptMask

/-- What the line status of a byte is reported as. -/
def received (state : BitVec 32) (u : Uart) : Uart :=
  { u with
    errors := u.errors ||| (if state &&& 2 = 0 then 0 else serialErrorOverrun) |||
      (if state &&& 4 = 0 then 0 else serialErrorParity) |||
      (if state &&& 8 = 0 then 0 else serialErrorFraming) |||
      (if state &&& 16 = 0 then 0 else serialErrorBreak)
    events := u.events ||| (if state &&& 16 = 0 then 0 else serialEvBreak) }

/-- Takes bytes while there are some and the ring is not too full, but no more than so many. -/
def takeBytes : ℕ → Drive Unit
  | 0 => pure ()
  | n + 1 => do
    let u ← look
    when (u.ring.count < highWater) do
      let state ← read uartLsr
      change (received state)
      when (state &&& uartRxReady ≠ 0) do
        let data ← read uartRbr
        take (UInt8.ofNat data.toNat)
        takeBytes n

/-- Automatic RTS protects the hardware FIFO; this also protects the ring. -/
def pause : Drive Unit := do
  let u ← look
  when (highWater ≤ u.ring.count ∧ u.own.rxPaused = false) do
    change fun u => { u with own := { u.own with rxPaused := true } }
    uartInterruptMask

def uartCapture : Drive Unit := do
  takeBytes 64
  pause
  change fun u => if u.errors = 0 then u else { u with events := u.events ||| serialEvErr }

/-! ### Power -/

def setPower (power : Power) : Drive Unit := change fun u => { u with own := { u.own with power := power } }

def saveBoot (offset : ℕ) (value : BitVec 32) : Drive Unit :=
  change fun u => { u with boot := fun i => if i = offset then value else u.boot i }

/-- Where the two bytes of the divisor are saved, which share their offsets with others. -/
def savedDll : ℕ := 0x100
def savedDlm : ℕ := 0x104

def uartPrepare : Drive Unit := do
  let resources ← ask fun world time => world.resources time
  ofExcept resources
  let clock ← ask fun world time => world.clock time
  let clockHz ← ofExcept clock
  change fun u => { u with clockHz := clockHz }
  let _ ← ofExcept (uartDivisor clockHz 115200)
  let mapped ← ask fun world time => world.resources time
  ofExcept mapped
  let lcr ← read uartLcr
  saveBoot uartLcr lcr
  require (lcr &&& 0x80 = 0) .deviceBusy
  let ier ← read uartIer
  require (ier = 0) .deviceBusy
  let mcr ← read uartMcr
  saveBoot uartMcr mcr
  saveBoot uartIer 0
  let scr ← read uartScr
  saveBoot uartScr scr
  write uartLcr (lcr ||| 0x80)
  let dll ← read uartDll
  saveBoot savedDll dll
  let dlm ← read uartDlm
  saveBoot savedDlm dlm
  write uartLcr lcr
  let key ← ask fun world time => world.route time
  ofExcept key
  setPower .down

def uartStart : Drive Unit := do
  write uartIer 0
  -- Resets both FIFOs only at startup.
  write uartFcr (uartFifo ||| 6)
  uartProgram
  setPower .entered

/-- `UartStop` under the lock. -/
def uartStop : Drive Unit := do
  change fun u => { u with online := false, own := { u.own with quirk := false, quirkPending := false } }
  write uartIer 0
  write uartMcr 0
  setPower .stopped

/-- `UartStop` after it released the lock. -/
def uartRestore : Drive Unit := do
  stopTimer
  let u ← look
  write uartFcr 0
  write uartLcr (u.boot uartLcr ||| 0x80)
  write uartDll (u.boot savedDll)
  write uartDlm (u.boot savedDlm)
  write uartLcr (u.boot uartLcr)
  write uartMcr (u.boot uartMcr)
  write uartScr (u.boot uartScr)
  write uartIer (u.boot uartIer)
  setPower .down

def uartInterruptEnable : Drive Unit := do
  change fun u => { u with online := true, own := { u.own with power := .running } }
  uartInterruptMask

/-- Quiesces the source before the interrupt is disconnected. -/
def uartInterruptDisable : Drive Unit := do
  change fun u => { u with online := false, own := { u.own with power := .disabled } }
  write uartIer 0
  let _ ← read uartIer
  pure ()

/-! ### Files -/

/-- The context of a port that is opened. -/
def opened (u : Uart) : Uart :=
  { u with
    ring := u.ring.clear
    errors := 0
    events := 0
    waitMask := 0
    rx := u.rx.drop
    tx := u.tx.drop
    baud := 115200
    line := 3
    control := 0x2a
    flow := { Handflow.zero with controlHandShake := serialCtsHandshake, flowReplace := serialRtsHandshake }
    chars := Chars.zero
    isOpen := true
    own := { u.own with rxPaused := false, quirk := false, quirkPending := false } }

def uartOpen : Drive Unit := do
  let u ← look
  require (u.online = true ∧ u.isOpen = false) .deviceNotReady
  act opened .renewed
  -- Starts a new session from a disabled FIFO, as on a fresh D0 entry.
  write uartIer 0
  write uartFcr 0
  write uartFcr (uartFifo ||| 6)
  uartProgram

/-- `UartClose` under the lock; it has then to stop the timer. -/
def uartClose : Drive Unit := do
  change fun u => { u with
    isOpen := false
    own := { u.own with quirk := false, quirkPending := false, timerStops := u.own.timerStops + 1 } }
  uartInterruptMask
  clearRing
  change fun u => { u with waitMask := 0, events := 0 }

/-- `UartClose` after it released the lock. -/
def stopQuirkTimer : Drive Unit :=
  change fun u => { u with timer := false, own := { u.own with timerStops := u.own.timerStops - 1 } }

/-- The ACPI UART serial-bus descriptor. -/
structure UartDescriptor where
  serialBusType : UInt8
  typeSpecificFlags : BitVec 16
  baud : BitVec 32
  parity : UInt8
  lines : UInt8

/-- 8N1, hardware flow control, little endian; only CTS and RTS are routed. -/
def uartApply (properties : Option UartDescriptor) : Drive Unit :=
  match properties with
  | none => stop .invalidParameter
  | some d => do
    require (d.serialBusType = 3 ∧ d.typeSpecificFlags = 0x35 ∧ d.parity = 0 ∧ d.lines = 0xc0) .notSupported
    let u ← look
    let _ ← ofExcept (uartDivisor u.clockHz d.baud)
    change fun u => { u with
      baud := d.baud
      line := 3
      control := 0x2a
      flow := { u.flow with controlHandShake := serialCtsHandshake, flowReplace := serialRtsHandshake } }
    uartProgram

/-! ### Interrupts -/

/-- The empty receive timeout: stops the peer before a dummy byte is read, so an in-flight H4
byte cannot be lost. -/
def enterQuirk : Drive Unit := do
  change fun u => { u with own := { u.own with quirk := true, quirkPending := true } }
  uartInterruptMask

def transmitReady : Drive Unit := do
  change fun u => { u with
    tx := if u.tx.armed then u.tx.flag else u.tx
    mask := u.mask &&& ~~~uartTxIrq }
  let u ← look
  write uartIer u.mask

/-- A change of the modem lines. -/
def modemChanged : Drive Unit := do
  let state ← read uartMsr
  when (state &&& 1 ≠ 0) (change fun u => { u with events := u.events ||| serialEvCts })

/-- The receive timeout is pending, but there is no byte. -/
def emptyTimeout (pending : BitVec 32) : Drive Bool :=
  if pending &&& 14 = 12 then do
    let state ← read uartLsr
    pure (state &&& uartRxReady = 0)
  else pure false

/-- Serves what is pending, one cause after the other, and says whether there was any. -/
def serve : ℕ → Bool → Drive Bool
  | 0, handled => pure handled
  | n + 1, handled => do
    let pending ← read uartIir
    if pending &&& 1 ≠ 0 then pure handled
    else do
      let quirk ← emptyTimeout pending
      if quirk then do
        enterQuirk
        pure true
      else if pending &&& 14 = 4 ∨ pending &&& 14 = 6 ∨ pending &&& 14 = 12 then do
        uartCapture
        serve n true
      else if pending &&& 14 = 2 then do
        transmitReady
        serve n true
      else if pending &&& 14 = 0 then do
        modemChanged
        serve n true
      else pure true

def uartIsr : Drive Bool := do
  let u ← look
  if !u.online || !u.isOpen then pure false
  else do
    let handled ← serve 8 false
    flagReceive
    let u ← look
    when (u.rx.pending = true ∨ u.tx.pending = true ∨ u.own.quirkPending = true ∨ u.events &&& u.waitMask ≠ 0) queueDpc
    pure handled

/-- The delay after which the quirk is ended, in milliseconds. -/
def quirkDelay (baud : BitVec 32) : BitVec 32 := (30000 + baud - 1) / baud

/-- `UartDpc` under the lock. It starts the timer and calls the framework afterwards. -/
def uartDpc : Drive Unit := do
  commitReady
  change fun u => { u with own := { u.own with
    quirkPending := false
    timerStarts := if u.own.quirkPending then quirkDelay u.baud :: u.own.timerStarts else u.own.timerStarts } }

/-- The deferred procedure starts the timer. -/
def startQuirkTimer (delay : BitVec 32) : Drive Unit :=
  change fun u => { u with timer := true, own := { u.own with timerStarts := u.own.timerStarts.erase delay } }

/-- Reads the byte that is there, or a dummy. -/
def readTimeout (state : BitVec 32) : Drive Unit :=
  if state &&& uartRxReady = 0 then do
    let _ ← read uartRbr
    pure ()
  else uartCapture

/-- `UartQuirkTimer` under the lock. -/
def uartQuirkTimer : Drive Unit := do
  let u ← look
  when (u.online = true ∧ u.isOpen = true ∧ u.own.quirk = true) do
    let state ← read uartLsr
    readTimeout state
    change fun u => { u with own := { u.own with quirk := false } }
    uartInterruptMask
    let u ← look
    when (u.rx.armed = true ∧ u.ring.count ≠ 0) do
      change fun u => { u with rx := u.rx.flag }
      queueDpc

/-! ### Bytes -/

/-- Receives again once there is room. -/
def resume : Drive Unit := do
  let u ← look
  when (u.own.rxPaused = true ∧ u.ring.count < lowWater) do
    change fun u => { u with own := { u.own with rxPaused := false } }
    uartInterruptMask

def uartReceive (length : ℕ) : Drive Unit := do
  let u ← look
  when (u.online = true ∧ u.isOpen = true) do
    uartCapture
    hand length
    resume

def uartTransmit (bytes : List UInt8) : Drive Unit := do
  let u ← look
  when (u.online = true ∧ u.isOpen = true) do
    let state ← read uartLsr
    when (state &&& uartTxEmpty ≠ 0) do
      each (fun byte => write uartThr (BitVec.ofNat 32 byte.toNat)) (bytes.take 32)
    let _ ← read uartIer
    pure ()

def uartTxEnable : Drive Unit := do
  act (fun u => { u with tx := u.tx.arm }) (.asked .transmit)
  let state ← read uartLsr
  if state &&& uartTxEmpty = 0 then uartInterruptMask
  else do
    change fun u => { u with tx := u.tx.flag }
    queueDpc

def uartTxCancel : Drive Bool := do
  let cancelled ← cancel .transmit
  uartInterruptMask
  pure cancelled

/-! ### Requests -/

def uartPurge (rx tx : Bool) : Drive Unit := do
  write uartFcr (uartFifo ||| (if rx then 2 else 0) ||| (if tx then 4 else 0))
  when (rx = true) do
    act (fun u => { u with ring := u.ring.clear, own := { u.own with rxPaused := false } }) .cleared
  uartInterruptMask

def uartWait (mask : BitVec 32) : Drive Unit :=
  setWaitMask (serialEvRxchar ||| serialEvRxflag ||| serialEvTxempty ||| serialEvBreak ||| serialEvErr ||| serialEvCts) mask

/-- The line control that a value of the line register stands for. -/
def lineOf (line : BitVec 32) : LineControl where
  wordLength := UInt8.ofNat ((line &&& 3).toNat + 5)
  stopBits := if line &&& 4 = 0 then stopBit1 else stopBits2
  parity :=
    if line &&& 8 = 0 then noParity
    else if line &&& 0x20 = 0 then (if line &&& 0x10 = 0 then oddParity else evenParity)
    else if line &&& 0x10 = 0 then markParity
    else spaceParity

/-- Stops while the transmitter is busy. -/
def requireIdle : Drive Unit := do
  let state ← read uartLsr
  require (state &&& uartIdle ≠ 0) .deviceBusy

def setLine (f : BitVec 32 → BitVec 32) : Drive Unit := do
  change fun u => { u with line := f u.line }
  let u ← look
  write uartLcr u.line

/-- A request of an open port, under the lock. -/
def control : Code → Drive Answer
  | .setBaudRate baudRate => do
    let u ← look
    let _ ← ofExcept (uartDivisor u.clockHz baudRate)
    requireIdle
    change fun u => { u with baud := baudRate }
    uartProgram
    pure .nothing
  | .getBaudRate => do
    let u ← look
    pure (.baudRate u.baud)
  | .setLineControl line => do
    let value ← ofExcept (uartLine line)
    requireIdle
    change fun u => { u with line := value }
    uartProgram
    pure .nothing
  | .getLineControl => do
    let u ← look
    pure (.lineControl (lineOf u.line))
  | .setHandflow flow => do
    require (flow.controlHandShake = serialCtsHandshake ∧
      (flow.flowReplace = 0 ∨ flow.flowReplace = serialRtsControl ∨ flow.flowReplace = serialRtsHandshake)) .notSupported
    -- CTS remains automatic; RTS may be held deasserted while a client resets its controller.
    change fun u => { u with
      flow := flow
      control := if flow.flowReplace = 0 then (u.control ||| uartAfe) &&& ~~~uartRts else u.control ||| uartAfe ||| uartRts }
    uartInterruptMask
    pure .nothing
  | .getHandflow => do
    let u ← look
    pure (.handflow u.flow)
  | .setChars chars => do
    change fun u => { u with chars := chars }
    pure .nothing
  | .getChars => do
    let u ← look
    pure (.chars u.chars)
  | .getProperties => pure (.properties (properties (BitVec.ofNat 32 ringSize) 0xc2))
  | .getCommStatus => do
    let errors ← reportErrors
    let u ← look
    let state ← read uartLsr
    pure (.commStatus errors (BitVec.ofNat 32 u.ring.count) (if state &&& uartIdle = 0 then 1 else 0))
  | .getModemStatus => do
    let value ← read uartMsr
    pure (.word (value &&& 0xf0))
  | .getModemControl | .getDtrRts => do
    let u ← look
    pure (.word (if u.control &&& uartRts = 0 then 0 else serialRtsState))
  | .setBreakOn => do
    setLine (· ||| 0x40)
    pure .nothing
  | .setBreakOff => do
    setLine (· &&& ~~~0x40)
    pure .nothing
  | .setModemControl _ | .setDtr | .clrDtr | .setRts | .clrRts | .unknown => stop .notSupported
  -- Queue hints do not change the fixed bounded ring.
  | .setQueueSize _ _ => pure .nothing

def uartControl (code : Code) : Drive Answer := do
  require (code.known = true) .notSupported
  when (code.buffered = true) do
    let buffers ← ask fun world time => world.retrieve time
    ofExcept buffers
  let u ← look
  require (u.isOpen = true ∧ u.online = true) .deviceNotReady
  control code

end Pi5Drivers.BcmUart
