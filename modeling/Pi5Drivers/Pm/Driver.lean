import Mathlib.Data.Nat.Notation
import Pi5Drivers.Lib.Observed

/-! The driver of the power manager. It lends the reset line of the graphics core to one
kernel client at a time, and touches nothing else of the power manager. What registers hold
is the choice of a world. -/

namespace Pi5Drivers.Pm

open Effect Recorded

/-! ### The driver and its world -/

inductive Status
  | invalidParameter | deviceHardwareError | deviceBusy | accessDenied | deviceNotReady | invalidDeviceState
  | deviceConfigurationError | insufficientResources | invalidDeviceRequest
  | other (code : ℕ)
deriving DecidableEq, Repr

inductive HwResult
  | notReady | fault | invalid
deriving DecidableEq, Repr

/-- What the driver does not decide. The first argument is the time. -/
structure World where
  register : ℕ → ℕ → BitVec 32
  lock : ℕ → Except Status Unit
  /-- The resources of the device, if there is nothing wrong with them. -/
  resources : ℕ → Except Status Unit
  mapRegisters : ℕ → Bool

structure Hw where
  legacyParent : BitVec 32
  initialV3d : BitVec 32
  expectedV3d : BitVec 32
  transitions : ℕ
  unsafeState : Bool
deriving DecidableEq, Repr

structure Driver where
  registers : Bool
  online : Bool
  owner : Option ℕ
  hw : Hw
  pinned : Bool
  bootUnsafe : Bool
deriving DecidableEq, Repr

inductive Event
  | read (offset : ℕ) (value : BitVec 32)
  /-- A read for the status that clients can ask for. -/
  | sampled (offset : ℕ) (value : BitVec 32)
  | wrote (offset : ℕ) (value : BitVec 32)
  /-- From here on the line counts as unsafe. -/
  | faulted
  /-- A file has become the owner, and the register held a value. -/
  | owned (file : ℕ) (value : BitVec 32)
  | released
  /-- The owner went away. -/
  | vanished
deriving DecidableEq, Repr

abbrev Context := Recorded World Driver Event

abbrev Drive := Effect Context

/-! ### The registers -/

def pmHwGrafx : ℕ := 0x10c

def pmHwV3d : ℕ := 0x304

def pmHwV3drstn : BitVec 32 := 0x40

def pmHwV3dEnab : BitVec 32 := 0x1000

def pmPassword : BitVec 32 := 0x5a000000

def pmDataMask : BitVec 32 := 0x00ffffff

def read (offset : ℕ) : Drive HwResult (BitVec 32) := do
  let value ← ask (·.register · offset)
  record (.read offset (value &&& pmDataMask))
  pure (value &&& pmDataMask)

def write (offset : ℕ) (value : BitVec 32) : Drive HwResult Unit :=
  record (.wrote offset (pmPassword ||| (value &&& pmDataMask)))

def setHw (f : Hw → Hw) : Drive HwResult Unit := change fun d => { d with hw := f d.hw }

def pmHwAcquire : Drive HwResult Unit := do
  let d ← look
  require (d.hw.unsafeState = false) .invalid
  let legacy ← read pmHwGrafx
  let v3d ← read pmHwV3d
  require (v3d &&& pmHwV3dEnab ≠ 0 ∧ v3d ≠ legacy) .notReady
  let legacyAgain ← read pmHwGrafx
  require (legacyAgain = legacy) .notReady
  let v3dAgain ← read pmHwV3d
  require (v3dAgain = v3d) .notReady
  setHw fun h => { h with legacyParent := legacy, initialV3d := v3d, expectedV3d := v3d }

def fail : Drive HwResult Unit := do
  record .faulted
  setHw fun h => { h with unsafeState := true }
  stop .fault

/-- Sets the reset line, and looks whether it is set. -/
def moveReset (before : BitVec 32) (release : Bool) : Drive HwResult Unit := do
  let expected := (before &&& ~~~pmHwV3drstn) ||| if release then pmHwV3drstn else 0
  write pmHwV3d expected
  let after ← read pmHwV3d
  if after ≠ expected then fail
  else do
    let legacy ← read pmHwGrafx
    let d ← look
    if legacy ≠ d.hw.legacyParent then fail
    else setHw fun h => { h with expectedV3d := after, transitions := h.transitions + 1 }

def pmHwSetV3dReset (release : Bool) : Drive HwResult Unit := do
  let d ← look
  require (d.hw.unsafeState = false) .invalid
  let before ← read pmHwV3d
  let legacy ← read pmHwGrafx
  if legacy ≠ d.hw.legacyParent ∨ before ≠ d.hw.expectedV3d ∨ before &&& pmHwV3dEnab = 0 then fail
  else if (before &&& pmHwV3drstn ≠ 0) = (release = true) then pure ()
  else moveReset before release

def pmHwRelease : Drive HwResult Unit := do
  let d ← look
  require (d.hw.unsafeState = false) .invalid
  pmHwSetV3dReset (decide (d.hw.initialV3d &&& pmHwV3drstn ≠ 0))
  let legacy ← read pmHwGrafx
  let d ← look
  if legacy ≠ d.hw.legacyParent then fail
  else do
    let v3d ← read pmHwV3d
    if v3d ≠ d.hw.initialV3d then fail else pure ()

/-! ### The lease -/

/-- The registers that are reported. -/
def sampledRegisters : List ℕ := [pmHwGrafx, pmHwV3d, 0x1c, 0x20, 0x24, 0x108, 0x58, 0x5c]

def pmSnapshot : Drive Status Unit := do
  let d ← look
  when (d.registers = true) (each (fun offset => do
    let value ← ask (·.register · offset)
    record (.sampled offset (value &&& pmDataMask))) sampledRegisters)

def pmFault : Drive Status Unit := do
  record .faulted
  change fun d => { d with bootUnsafe := true, pinned := true }

def pmResult (x : Drive HwResult Unit) : Drive Status Unit := do
  match ← x.attempt with
  | .ok _ => pmSnapshot
  | .error .notReady => stop .deviceNotReady
  | .error .invalid => stop .invalidDeviceState
  | .error .fault => do
    pmSnapshot
    pmFault
    stop .deviceHardwareError

structure LeaseRequest where
  version : BitVec 32
  domain : BitVec 32
  reset : BitVec 32
  reserved : BitVec 32
deriving DecidableEq, Repr

def LeaseRequest.Valid (r : LeaseRequest) : Prop := r.version = 1 ∧ r.domain = 1 ∧ r.reset = 0 ∧ r.reserved = 0

instance (r : LeaseRequest) : Decidable r.Valid := inferInstanceAs (Decidable (_ ∧ _))

structure Transition where
  version : BitVec 32
  domain : BitVec 32
  operation : BitVec 32
  reserved : BitVec 32
deriving DecidableEq, Repr

def pmAcquire (file : ℕ) (request : LeaseRequest) : Drive Status Unit := do
  require request.Valid .invalidParameter
  let d ← look
  require (d.registers = true ∧ d.bootUnsafe = false) .deviceHardwareError
  require (d.owner = none) .deviceBusy
  pmResult pmHwAcquire
  let d ← look
  record (.owned file d.hw.initialV3d)
  change fun d => { d with owner := some file, pinned := true }
  pmSnapshot

def pmTransition (file : ℕ) (request : Transition) : Drive Status Unit := do
  require (request.version = 1 ∧ request.domain = 1 ∧ request.reserved = 0) .invalidParameter
  let d ← look
  require (d.owner = some file) .accessDenied
  require (d.bootUnsafe = false) .deviceHardwareError
  if request.operation = 1 then pmResult (pmHwSetV3dReset true)
  else if request.operation = 2 then pmResult (pmHwSetV3dReset false)
  else if request.operation = 3 then do
    require (d.hw.expectedV3d &&& pmHwV3drstn ≠ 0) .invalidDeviceState
    pmResult do
      pmHwSetV3dReset false
      pmHwSetV3dReset true
  else stop .invalidParameter

def pmDropLease (file : ℕ) : Drive Status Unit := do
  let d ← look
  require (d.owner = some file) .accessDenied
  require (d.bootUnsafe = false) .deviceHardwareError
  pmResult pmHwRelease
  record .released
  change fun d => { d with owner := none, pinned := false }
  pmSnapshot

/-! ### Events of the device -/

def fromWorld (f : World → ℕ → Except Status Unit) : Drive Status Unit := do
  ofExcept (← ask f)

def pmPrepare : Drive Status Unit := do
  let d ← look
  require (d.bootUnsafe = false) .deviceHardwareError
  fromWorld (·.resources)
  let mapped ← ask (·.mapRegisters)
  require (mapped = true) .insufficientResources
  change fun d => { d with registers := true }
  pmSnapshot

def pmReleaseHardware : Drive Status Unit := do
  let d ← look
  when (d.owner ≠ none) do
    pmSnapshot
    pmFault
  change fun d => { d with online := false, registers := false }

def pmFileCleanup (file : ℕ) : Drive Status Unit := do
  let d ← look
  when (d.owner = some file) do
    when (d.registers = true) pmSnapshot
    pmFault
    record .vanished
    change fun d => { d with owner := none }

def pmD0Entry : Drive Status Unit := do
  change fun d => { d with online := d.registers && !d.bootUnsafe }
  pmSnapshot
  let d ← look
  require (d.bootUnsafe = false) .deviceHardwareError

def pmD0Exit : Drive Status Unit := do
  let d ← look
  change fun d => { d with online := false }
  if d.owner ≠ none then do
    pmSnapshot
    pmFault
    stop .deviceBusy
  else pure ()

/-- What a client asks for, with the buffer that holds it. -/
inductive Code
  | query (output : Except Status Unit)
  | acquire (input : Except Status LeaseRequest)
  | transition (input : Except Status Transition)
  | release (input : Except Status LeaseRequest)
  | unknown

/-- A request as it comes: whether its buffers have the right lengths, and from whom it is. -/
structure Request where
  code : Code
  sized : Bool
  kernelMode : Bool
  file : Option ℕ

/-- A request of a kernel client. -/
def lease (file : ℕ) : Code → Drive Status Unit
  | .acquire input => do
    let request ← ofExcept input
    pmAcquire file request
  | .transition input => do
    let request ← ofExcept input
    pmTransition file request
  | .release input => do
    let request ← ofExcept input
    require request.Valid .invalidParameter
    pmDropLease file
  | .query _ | .unknown => stop .invalidDeviceRequest

def pmControl (r : Request) : Drive Status Unit := do
  require (r.sized = true) .invalidParameter
  fromWorld (·.lock)
  let d ← look
  require (d.registers = true ∧ d.online = true) .deviceNotReady
  match r.code with
  | .query output => do
    ofExcept output
    pmSnapshot
  | code =>
    match r.kernelMode, r.file with
    | true, some file => lease file code
    | _, _ => stop .accessDenied

end Pi5Drivers.Pm
