import Mathlib.Tactic.Common
import Pi5Drivers.Ethernet.Transmit

/-! The interrupt of the Ethernet miniport: the interrupt routine, the deferred
procedures, and the callbacks that stop, start, mask and unmask the interrupt. Every
callback and every section that holds the lock is one step. -/

namespace Pi5Drivers.Ethernet

def gemIrqRx : BitVec 32 := 0x2
def gemIrqTx : BitVec 32 := 0x80
def gemIrqOverrun : BitVec 32 := 0x400
def gemIrqFatal : BitVec 32 := 0x870
def gemIrqMask : BitVec 32 := gemIrqRx ||| gemIrqTx ||| gemIrqOverrun ||| gemIrqFatal

structure Line where
  running : Bool
  speed : ℕ
  surpriseRemoved : Bool
  recoveryRequested : BitVec 32
  /-- A deferred procedure is between its first and its last section. -/
  dpcActive : Bool
  irqRunning : Bool
  irqDeferred : Bool
  irqSuppressed : Bool
  irqPending : BitVec 32
  phase : Phase
  /-- The device raises an interrupt for new work. -/
  enabled : Bool
  /-- The deferred procedures in the queue, those that were taken from it and did not yet
  get the lock, and those that NDIS was told to continue with. -/
  queued : ℕ
  entering : ℕ
  continued : ℕ

namespace Line

/-! ### Callbacks -/

/-- Masks the interrupt of a device that is there. -/
def mask (l : Line) : Line := if l.surpriseRemoved = false then { l with enabled := false } else l

def stopInterrupts (l : Line) : Line := { l with irqRunning := false, irqDeferred := false, irqPending := 0 }.mask

def startInterrupts (l : Line) : Line :=
  { l with
    irqPending := 0, irqDeferred := false, irqRunning := true
    enabled := if l.irqSuppressed = false then true else l.enabled }

def rearmInterrupts (l : Line) : Line :=
  { l with
    irqDeferred := false
    enabled := if l.irqRunning = true ∧ l.irqSuppressed = false ∧ l.surpriseRemoved = false then true else l.enabled }

/-- The status that was acknowledged, and what the device has besides. -/
def takeInterrupts (l : Line) (status : BitVec 32) : Line × BitVec 32 :=
  ({ l with irqPending := 0 },
    if l.irqRunning = true ∧ l.surpriseRemoved = false then l.irqPending ||| (status &&& gemIrqMask) else l.irqPending)

def removeInterrupts (l : Line) : Line := { l with irqRunning := false, surpriseRemoved := true }

def disableInterrupt (l : Line) : Line := { l with irqSuppressed := true }.mask

def enableInterrupt (l : Line) : Line :=
  { l with
    irqSuppressed := false
    enabled := if l.irqRunning = true ∧ l.irqDeferred = false ∧ l.surpriseRemoved = false then true else l.enabled }

/-- One more deferred procedure is queued, unless the queue takes one of a kind only. -/
def queueDpc (l : Line) (another : Bool) : Line :=
  { l with queued := if another = true then l.queued + 1 else max l.queued 1 }

/-- The interrupt routine; `status` is what the device has. -/
def interrupt (l : Line) (status : BitVec 32) (another : Bool) : Line :=
  if l.irqRunning = false ∨ l.irqDeferred = true ∨ l.irqSuppressed = true ∨ l.surpriseRemoved = true then l
  else if status &&& gemIrqMask = 0 then l
  else { l with
    enabled := false, irqDeferred := true, irqPending := l.irqPending ||| (status &&& gemIrqMask) }.queueDpc another

/-! ### The deferred procedure -/

/-- Work ends, and the maintenance thread is asked to recover. -/
def fail (l : Line) (reason : BitVec 32) : Line :=
  { { l with running := false }.stopInterrupts with recoveryRequested := l.recoveryRequested ||| reason }

/-- A deferred procedure has nothing to do, or leaves it to another one. -/
def Idle (l : Line) : Prop := l.running = false ∨ l.speed = 0 ∨ l.surpriseRemoved = true ∨ l.dpcActive = true

instance (l : Line) : Decidable l.Idle := inferInstanceAs (Decidable (_ ∨ _))

/-- The first section of a deferred procedure. -/
def enterDpc (l : Line) (status : BitVec 32) : Line :=
  let l := { l with entering := l.entering - 1 }
  if l.Idle then l
  else
    let (l, taken) := { l with dpcActive := true }.takeInterrupts status
    if taken &&& gemIrqFatal ≠ 0 then l.fail (taken &&& gemIrqFatal) else l

/-- What a deferred procedure finds when it is done: as many frames as it may indicate and
more, more frames or descriptors, or nothing. -/
inductive Found
  | more | again | nothing
deriving DecidableEq, Repr

/-- The last section. -/
def finishDpc (l : Line) (found : Found) (another : Bool) : Line :=
  if l.running = true ∧ l.surpriseRemoved = false then
    match found with
    | .more => { l with continued := l.continued + 1, dpcActive := false }
    | .again => { l.queueDpc another with dpcActive := false }
    | .nothing => { l.rearmInterrupts with dpcActive := false }
  else { l with dpcActive := false }

/-! ### Stop and start -/

def stopHardware (l : Line) : Line :=
  { l with running := false, speed := 0, recoveryRequested := 0, phase := .stopping }.stopInterrupts.mask

def startHardware (l : Line) (speed : ℕ) : Line :=
  let l := { l.mask with speed := speed, running := true, phase := .up }
  if speed ≠ 0 then l.startInterrupts else l

end Line

/-! ### Steps -/

inductive Signal
  | interrupt (status : BitVec 32) (another : Bool)
  | disableInterrupt
  | enableInterrupt
  /-- A deferred procedure is taken from the queue, or continued with. -/
  | dequeue
  | resume
  | enterDpc (status : BitVec 32)
  /-- A descriptor without a list is found. -/
  | corrupt
  | finishDpc (found : Line.Found) (another : Bool)
  | stopHardware
  /-- The stop has waited for the deferred procedure. -/
  | stopped
  | startHardware (speed : ℕ)
  | remove
deriving DecidableEq, Repr

namespace Line

/-- When a step is possible. -/
def Possible (l : Line) : Signal → Prop
  | .interrupt _ _ | .disableInterrupt | .enableInterrupt => True
  | .dequeue => 0 < l.queued
  | .resume => 0 < l.continued
  | .enterDpc _ => 0 < l.entering
  | .corrupt => l.dpcActive = true ∧ l.running = true
  | .finishDpc _ _ => l.dpcActive = true
  | .stopHardware | .remove => l.phase = .up ∨ l.phase = .down
  | .stopped => l.phase = .stopping ∧ l.dpcActive = false
  | .startHardware _ => l.phase = .down ∧ l.surpriseRemoved = false

instance (l : Line) : (e : Signal) → Decidable (l.Possible e)
  | .interrupt _ _ | .disableInterrupt | .enableInterrupt => .isTrue trivial
  | .dequeue | .resume | .enterDpc _ => inferInstanceAs (Decidable (_ < _))
  | .corrupt | .stopped | .startHardware _ => inferInstanceAs (Decidable (_ ∧ _))
  | .finishDpc _ _ => inferInstanceAs (Decidable (_ = _))
  | .stopHardware | .remove => inferInstanceAs (Decidable (_ ∨ _))

def step (l : Line) : Signal → Line
  | .interrupt status another => l.interrupt status another
  | .disableInterrupt => l.disableInterrupt
  | .enableInterrupt => l.enableInterrupt
  | .dequeue => { l with queued := l.queued - 1, entering := l.entering + 1 }
  | .resume => { l with continued := l.continued - 1, entering := l.entering + 1 }
  | .enterDpc status => l.enterDpc status
  | .corrupt => l.fail 0x40000000
  | .finishDpc found another => l.finishDpc found another
  | .stopHardware => l.stopHardware
  | .stopped => { l with phase := .down }
  | .startHardware speed => l.startHardware speed
  | .remove => { l.removeInterrupts with running := false }

end Line

/-- The interrupt of a miniport that was not started yet. -/
def line : System Line Signal where
  init :=
    { running := false, speed := 0, surpriseRemoved := false, recoveryRequested := 0, dpcActive := false, irqRunning := false
      irqDeferred := false, irqSuppressed := false, irqPending := 0, phase := .down, enabled := false
      queued := 0, entering := 0, continued := 0 }
  next l e := if l.Possible e then some (l.step e) else none

end Pi5Drivers.Ethernet
