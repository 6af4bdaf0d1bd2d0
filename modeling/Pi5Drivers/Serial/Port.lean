import Mathlib.Data.Nat.Notation
import Pi5Drivers.Lib.Observed
import Pi5Drivers.Lib.Ring
import Pi5Drivers.Lib.Runs
import Pi5Drivers.Serial.Ioctl

/-! What the drivers of the two serial controllers have in common: the fields of their
context that both have, the notifications that the framework asks for, and the deferred
procedure and the timer that are still to run. -/

namespace Pi5Drivers.Serial

open Effect Recorded

def ringSize : ℕ := 16384

inductive Direction
  | receive
  | transmit
deriving DecidableEq

/-- A ready notification. The framework asks for it, and it is answered by a call or
cancelled. `asked` numbers the requests, the last one is the one that is armed; `committed`
are those whose call a deferred procedure has still to make. -/
structure Notice where
  armed : Bool
  pending : Bool
  asked : ℕ
  committed : List ℕ

namespace Notice

def arm (n : Notice) : Notice := { n with armed := true, asked := n.asked + 1 }

def flag (n : Notice) : Notice := { n with pending := true }

/-- Neither armed nor pending. -/
def drop (n : Notice) : Notice := { n with armed := false, pending := false }

/-- The number of the armed notification. -/
def last (n : Notice) : ℕ := n.asked - 1

/-- Takes an armed notification that is pending, to be called back. -/
def commit (n : Notice) : Notice :=
  if n.armed && n.pending then { n.drop with committed := n.last :: n.committed } else n

def called (k : ℕ) (n : Notice) : Notice := { n with committed := n.committed.erase k }

end Notice

/-- The common part of `UART_CONTEXT`, and the calls that are still to come: the deferred
procedure may be queued, or taken from its queue and not yet under the lock, and likewise
the timer. -/
structure Controller (κ : Type) where
  clockHz : BitVec 32
  baud : BitVec 32
  line : BitVec 32
  control : BitVec 32
  mask : BitVec 32
  waitMask : BitVec 32
  events : BitVec 32
  errors : BitVec 32
  ring : Ring UInt8
  flow : Handflow
  chars : Chars
  boot : ℕ → BitVec 32
  online : Bool
  isOpen : Bool
  rx : Notice
  tx : Notice
  own : κ
  dpcQueued : Bool
  dpcStarted : ℕ
  waits : List (BitVec 32)
  timer : Bool
  timerStarted : ℕ

/-- What the registers hold whenever they are read, and what the framework answers. -/
structure World where
  register : ℕ → ℕ → BitVec 32
  retrieve : ℕ → Except Status Unit
  resources : ℕ → Except Status Unit
  clock : ℕ → Except Status (BitVec 32)
  route : ℕ → Except Status Unit

inductive Event
  | wrote (offset : ℕ) (value : BitVec 32)
  /-- A byte was read out of the receive register. -/
  | took (byte : UInt8)
  | handed (byte : UInt8)
  /-- What waits in the ring is thrown away. -/
  | cleared
  /-- The port is opened, and starts without bytes and without errors. -/
  | renewed
  | reported (errors : BitVec 32)
  | asked (d : Direction)
  | ready (d : Direction) (k : ℕ)
  | cancelled (d : Direction) (k : ℕ)
  | waited (events : BitVec 32)
deriving DecidableEq

variable {κ ε α : Type}

abbrev Context (κ : Type) := Recorded World (Controller κ) Event

abbrev Drive (κ ε α : Type) := Effect (Context κ) ε α

namespace Controller

def notice (u : Controller κ) : Direction → Notice
  | .receive => u.rx
  | .transmit => u.tx

def setNotice (u : Controller κ) (d : Direction) (n : Notice) : Controller κ :=
  match d with
  | .receive => { u with rx := n }
  | .transmit => { u with tx := n }

/-- The deferred procedure is still to run. -/
def Due (u : Controller κ) : Prop := u.dpcQueued = true ∨ 0 < u.dpcStarted

instance (u : Controller κ) : Decidable u.Due := inferInstanceAs (Decidable (_ ∨ _))

end Controller

/-! ### Steps of the drivers -/

def read (offset : ℕ) : Drive κ ε (BitVec 32) := ask fun world time => world.register time offset

def write (offset : ℕ) (value : BitVec 32) : Drive κ ε Unit := record (.wrote offset value)

/-- Changes the state and notes it. -/
def act (f : Controller κ → Controller κ) (e : Event) : Drive κ ε Unit :=
  modify fun c => { c with state := f c.state, trace := e :: c.trace }

def queueDpc : Drive κ ε Unit := change fun u => { u with dpcQueued := true }

/-- Puts a byte into the ring. -/
def store (byte : UInt8) : Drive κ ε Unit :=
  change fun u => { u with
    ring := u.ring.push ringSize byte
    events := u.events ||| serialEvRxchar |||
      (if byte = u.chars.eventChar then serialEvRxflag else 0) }

/-- Takes a byte for which the ring has room. -/
def take (byte : UInt8) : Drive κ ε Unit := do
  record (.took byte)
  store byte

/-- Gives the reader what waits, but not more than asked for. -/
def hand : ℕ → Drive κ ε Unit
  | 0 => pure ()
  | n + 1 => do
    let u ← look
    when (u.ring.count ≠ 0) do
      act (fun u => { u with ring := u.ring.pop ringSize }) (.handed u.ring.first)
      hand n

def clearRing : Drive κ ε Unit := act (fun u => { u with ring := u.ring.clear }) .cleared

/-- Flags the receive notification where it is armed and bytes wait. -/
def flagReceive : Drive κ ε Unit :=
  change fun u => if u.rx.armed && u.ring.count != 0 then { u with rx := u.rx.flag } else u

/-- `UartRxEnable`. -/
def uartRxEnable : Drive κ ε Unit := do
  act (fun u => { u with rx := u.rx.arm }) (.asked .receive)
  let u ← look
  when (u.ring.count ≠ 0) do
    change fun u => { u with rx := u.rx.flag }
    queueDpc

def disarm (d : Direction) (n : Notice) : Drive κ ε Unit :=
  if n.armed then act (fun u => u.setNotice d (u.notice d).drop) (.cancelled d n.last)
  else change fun u => u.setNotice d (u.notice d).drop

/-- Takes the notification back, and says whether it was armed. -/
def cancel (d : Direction) : Drive κ ε Bool := do
  let u ← look
  disarm d (u.notice d)
  pure (u.notice d).armed

/-- `UartRxCancel`. -/
def uartRxCancel : Drive κ ε Bool := cancel .receive

/-- What the deferred procedures of both drivers do first under the lock. -/
def commitReady : Drive κ ε Unit := change fun u =>
  { u with
    rx := u.rx.commit
    tx := u.tx.commit
    waits := if u.events &&& u.waitMask = 0 then u.waits else (u.events &&& u.waitMask) :: u.waits
    events := 0 }

/-- `UartWait`, for a port that can wait for these events. -/
def setWaitMask (known mask : BitVec 32) : Drive κ Status Unit := do
  require (mask &&& ~~~known = 0) .invalidParameter
  change fun u => { u with waitMask := mask, events := 0 }

/-- Reports the errors and forgets them. -/
def reportErrors : Drive κ ε (BitVec 32) := do
  let u ← look
  act (fun u => { u with errors := 0 }) (.reported u.errors)
  pure u.errors

/-! ### Calls of the framework -/

def startDpc : Drive κ ε Unit := change fun u => { u with dpcQueued := false, dpcStarted := u.dpcStarted + 1 }

def enterDpc : Drive κ ε Unit := change fun u => { u with dpcStarted := u.dpcStarted - 1 }

def callReady (d : Direction) (k : ℕ) : Drive κ ε Unit :=
  act (fun u => u.setNotice d ((u.notice d).called k)) (.ready d k)

def callWait (events : BitVec 32) : Drive κ ε Unit :=
  act (fun u => { u with waits := u.waits.erase events }) (.waited events)

def startTimer : Drive κ ε Unit := change fun u => { u with timer := true }

def stopTimer : Drive κ ε Unit := change fun u => { u with timer := false }

def fireTimer : Drive κ ε Unit := change fun u => { u with timer := false, timerStarted := u.timerStarted + 1 }

def enterTimer : Drive κ ε Unit := change fun u => { u with timerStarted := u.timerStarted - 1 }

end Pi5Drivers.Serial
