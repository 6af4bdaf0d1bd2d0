import Pi5Drivers.Lib.Common

/-! The control requests of a serial port, with what they bring and what they are
answered with. -/

namespace Pi5Drivers.Serial

inductive Status
  | invalidParameter
  | deviceNotReady
  | deviceBusy
  | notSupported
  | bufferTooSmall
  | insufficientResources
  | deviceConfigurationError
deriving DecidableEq

/-- `SERIAL_LINE_CONTROL`. -/
structure LineControl where
  stopBits : UInt8
  parity : UInt8
  wordLength : UInt8

def stopBit1 : UInt8 := 0
def stopBits2 : UInt8 := 2

def noParity : UInt8 := 0
def oddParity : UInt8 := 1
def evenParity : UInt8 := 2
def markParity : UInt8 := 3
def spaceParity : UInt8 := 4

/-- `SERIAL_HANDFLOW`. -/
structure Handflow where
  controlHandShake : BitVec 32
  flowReplace : BitVec 32
  xonLimit : BitVec 32
  xoffLimit : BitVec 32

def Handflow.zero : Handflow := ⟨0, 0, 0, 0⟩

/-- `SERIAL_CHARS`. -/
structure Chars where
  eofChar : UInt8
  errorChar : UInt8
  breakChar : UInt8
  eventChar : UInt8
  xonChar : UInt8
  xoffChar : UInt8

def Chars.zero : Chars := ⟨0, 0, 0, 0, 0, 0⟩

/-- The fields of `SERIAL_COMMPROP` that are not zero. -/
structure CommProp where
  packetLength : BitVec 16
  packetVersion : BitVec 16
  serviceMask : BitVec 32
  maxTxQueue : BitVec 32
  maxRxQueue : BitVec 32
  maxBaud : BitVec 32
  provSubType : BitVec 32
  provCapabilities : BitVec 32
  settableParams : BitVec 32
  settableBaud : BitVec 32
  settableData : BitVec 16
  settableStopParity : BitVec 16
  currentTxQueue : BitVec 32
  currentRxQueue : BitVec 32

/-- The requests, each with its input. -/
inductive Code
  | setBaudRate (baudRate : BitVec 32)
  | getBaudRate
  | setLineControl (line : LineControl)
  | getLineControl
  | setHandflow (flow : Handflow)
  | getHandflow
  | setChars (chars : Chars)
  | getChars
  | getProperties
  | getCommStatus
  | getModemStatus
  | getModemControl
  | getDtrRts
  | setModemControl (value : BitVec 32)
  | setQueueSize (inSize outSize : BitVec 32)
  | setBreakOn
  | setBreakOff
  | setDtr
  | clrDtr
  | setRts
  | clrRts
  | unknown

/-- Whether a request has an input or an output to retrieve. -/
def Code.buffered : Code → Bool
  | setBreakOn | setBreakOff | setDtr | clrDtr | setRts | clrRts | unknown => false
  | _ => true

def Code.known : Code → Bool
  | unknown => false
  | _ => true

inductive Answer
  | nothing
  | baudRate (value : BitVec 32)
  | lineControl (line : LineControl)
  | handflow (flow : Handflow)
  | chars (chars : Chars)
  | properties (properties : CommProp)
  | commStatus (errors amountInInQueue amountInOutQueue : BitVec 32)
  | word (value : BitVec 32)

/-! ### Errors and events -/

def serialErrorBreak : BitVec 32 := 0x01
def serialErrorFraming : BitVec 32 := 0x02
def serialErrorOverrun : BitVec 32 := 0x04
def serialErrorQueueoverrun : BitVec 32 := 0x08
def serialErrorParity : BitVec 32 := 0x10

def serialEvRxchar : BitVec 32 := 0x01
def serialEvRxflag : BitVec 32 := 0x02
def serialEvTxempty : BitVec 32 := 0x04
def serialEvCts : BitVec 32 := 0x08
def serialEvBreak : BitVec 32 := 0x40
def serialEvErr : BitVec 32 := 0x80

/-! ### Handshake -/

def serialDtrControl : BitVec 32 := 0x01
def serialCtsHandshake : BitVec 32 := 0x08
def serialRtsControl : BitVec 32 := 0x40
def serialRtsHandshake : BitVec 32 := 0x80

def serialDtrState : BitVec 32 := 0x01
def serialRtsState : BitVec 32 := 0x02

/-- What both ports say of themselves, but for what they are capable of. -/
def properties (ringSize provCapabilities : BitVec 32) : CommProp where
  packetLength := 64
  packetVersion := 2
  serviceMask := 1
  maxTxQueue := 32
  maxRxQueue := ringSize
  maxBaud := 0x10000000
  provSubType := 1
  provCapabilities := provCapabilities
  settableParams := 0x0f
  settableBaud := 0x10000000
  settableData := 0x0f
  settableStopParity := 0x1f05
  currentTxQueue := 32
  currentRxQueue := ringSize

end Pi5Drivers.Serial
