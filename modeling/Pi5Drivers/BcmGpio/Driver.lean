import Pi5Drivers.BcmGpio.Layout
import Pi5Drivers.GpioClx
import Pi5Drivers.Lib.Effect
import Pi5Drivers.Lib.Pins

/-! The GPIO controllers of the BCM2712 and the requests of the class extension. The levels of the
first bank of the always-on controller belong to the firmware, which reads and writes them on
request, and may fail. -/

namespace Pi5Drivers.BcmGpio

open Effect GpioClx

/-! ### Registers -/

inductive Reg
  | oden | data | dir | edge | both | mask | level | status
deriving DecidableEq

structure Machine where
  /-- The registers of the two banks. -/
  gio : ℕ → Reg → BitVec 32
  /-- The words of functions and pulls. -/
  pinctrl : ℕ → BitVec 32
  /-- The levels that belong to the firmware. -/
  aml : BitVec 32
  /-- How many registers the driver has written. -/
  written : ℕ
  /-- How often the firmware was asked. -/
  clock : ℕ

namespace Machine

variable (m : Machine)

/-- Writing ones to a status word clears them. -/
def writeGio (bank : ℕ) (r : Reg) (v : BitVec 32) : Machine :=
  { m with
    gio := fun b s => if b = bank ∧ s = r then (if r = .status then m.gio b s &&& ~~~v else v) else m.gio b s
    written := m.written + 1 }

def writePinctrl (word : ℕ) (v : BitVec 32) : Machine :=
  { m with pinctrl := fun w => if w = word then v else m.pinctrl w, written := m.written + 1 }

def fieldRead (position : ℕ) (mask : BitVec 32) : BitVec 32 := (m.pinctrl (position / 32) >>> (position % 32)) &&& mask

def fieldWrite (position : ℕ) (mask value : BitVec 32) : Machine :=
  m.writePinctrl (position / 32)
    ((m.pinctrl (position / 32) &&& ~~~(mask <<< (position % 32))) ||| ((value &&& mask) <<< (position % 32)))

/-- The part of a mask that is in a bank. -/
def half (mask : BitVec 64) (bank : ℕ) : BitVec 32 := BitVec.setWidth 32 (mask >>> (bank * 32))

def updateBank (r : Reg) (mask value : BitVec 64) (bank : ℕ) : Machine :=
  let bits := half mask bank
  if bits ≠ 0 then m.writeGio bank r ((m.gio bank r &&& ~~~bits) ||| (half value bank &&& bits)) else m

def update (r : Reg) (mask value : BitVec 64) : Machine := (m.updateBank r mask value 0).updateBank r mask value 1

def readBanks (r : Reg) : BitVec 64 := m.gio 1 r ++ m.gio 0 r

/-- The level register of a bank, for pins to set and pins to clear. -/
def writeDataBank (set mask : BitVec 64) (bank : ℕ) : Machine :=
  let bits := half mask bank
  if bits ≠ 0 then m.writeGio bank .data ((m.gio bank .data &&& ~~~bits) ||| half set bank) else m

/-- The level registers. The first one of the always-on controller belongs to the firmware. -/
def writeData (aon : Bool) (set mask : BitVec 64) : Machine :=
  (if aon = true then m else m.writeDataBank set mask 0).writeDataBank set mask 1

/-- The bit of a pin. -/
def bit (r : Reg) (pin : ℕ) : Bool := (m.gio (pin / 32) r).getLsbD (pin % 32)

end Machine

/-! ### The driver -/

structure PinState where
  mux : BitVec 32
  pull : BitVec 32
  data : Bool
  input : Bool
  openDrain : Bool
  edge : Bool
  both : Bool
  level : Bool

structure Driver where
  revision : Bool
  /-- The second controller, which is always on. -/
  aon : Bool
  valid : BitVec 64
  ioOwned : BitVec 64
  outputOwned : BitVec 64
  irqOwned : BitVec 64
  functionOwned : BitVec 64
  touched : BitVec 64
  boot : ℕ → PinState
  started : Bool

inductive Status
  | invalidParameter | notSupported | deviceNotReady | deviceBusy | sharingViolation
  | acpiInvalidData | acpi (code : ℕ)
deriving DecidableEq

/-- What the firmware does when it is asked. -/
structure World where
  fails : ℕ → Option ℕ
  /-- The levels after a failure. -/
  torn : ℕ → BitVec 32
  /-- What it returns after a write. -/
  reply : ℕ → BitVec 32

structure Context where
  world : World
  driver : Driver
  machine : Machine

abbrev Drive (α : Type) := Effect Context Status α

def driver : Drive Driver := fun c => (.ok c.driver, c)

def machine : Drive Machine := fun c => (.ok c.machine, c)

def set (f : Driver → Driver) : Drive Unit := modify fun c => { c with driver := f c.driver }

def hw (f : Machine → Machine) : Drive Unit := modify fun c => { c with machine := f c.machine }

/-- The fields of a pin. Masks hold pins that have some. -/
def Driver.fields (d : Driver) (pin : ℕ) : PinFields := (bcmPinFields d.revision d.aon pin).getD ⟨0, none⟩

/-- Levels are read, or those of `mask` are written. -/
def bcmBroker (mask value : BitVec 32) : Drive (BitVec 32) := do
  let d ← driver
  require (d.aon = true ∧ mask &&& ~~~d.valid.setWidth 32 = 0) .invalidParameter
  let c ← get
  let t := c.machine.clock
  match c.world.fails t with
  | some e => do
    hw fun m => { m with aml := (m.aml &&& ~~~mask) ||| (c.world.torn t &&& mask), clock := t + 1 }
    stop (.acpi e)
  | none => do
    hw fun m => { m with aml := (m.aml &&& ~~~mask) ||| (value &&& mask), clock := t + 1 }
    let data := if mask = 0 then c.machine.aml else c.world.reply t
    require (data ≠ BitVec.allOnes 32) .acpiInvalidData
    pure data

def bcmReadData : Drive (BitVec 64) := do
  let d ← driver
  let m ← machine
  let low ← if d.aon = true then bcmBroker 0 0 else pure (m.gio 0 .data)
  let m ← machine
  pure (m.gio 1 .data ++ low)

def bcmWriteData (toSet toClear : BitVec 64) : Drive Unit := do
  let mask := toSet ||| toClear
  let d ← driver
  require (mask &&& ~~~d.valid = 0 ∧ toSet &&& toClear = 0) .invalidParameter
  when (d.aon = true ∧ mask.setWidth 32 ≠ 0) do
    let _ ← bcmBroker (mask.setWidth 32) (toSet.setWidth 32)
    pure ()
  hw (·.writeData d.aon toSet mask)

def Machine.snapshot (m : Machine) (f : PinFields) (pin : ℕ) (data : BitVec 64) : PinState where
  mux := m.fieldRead f.muxBit 15
  pull := f.pullBit.elim 0 fun p => m.fieldRead p 3
  data := data.getLsbD pin
  input := m.bit .dir pin
  openDrain := m.bit .oden pin
  edge := m.bit .edge pin
  both := m.bit .both pin
  level := m.bit .level pin

def pull (f : PinFields) (value : BitVec 32) : Drive Unit :=
  match f.pullBit with
  | none => pure ()
  | some p => hw (·.fieldWrite p 3 value)

/-- The bit of a pin in a register becomes `v`. -/
def put (r : Reg) (pin : ℕ) (v : Bool) : Drive Unit := hw (·.update r (pinBit pin) (if v then pinBit pin else 0))

def bcmRestore (pin : ℕ) (s : PinState) : Drive Unit := do
  let d ← driver
  let m ← machine
  let f := d.fields pin
  let hold := s.input = false ∧ s.mux = 0 ∧ m.fieldRead f.muxBit 15 = 0 ∧ m.bit .dir pin = false
  when (¬hold) (put .dir pin true)
  bcmWriteData (if s.data then pinBit pin else 0) (if s.data then 0 else pinBit pin)
  put .oden pin s.openDrain
  hw (·.fieldWrite f.muxBit 15 s.mux)
  pull f s.pull
  put .edge pin s.edge
  put .both pin s.both
  put .level pin s.level
  put .dir pin s.input

/-! ### Claims -/

/-- Established board supplies stay driven. -/
def bcmConfigure (function : BitVec 32) (output : Bool) (configuration : BitVec 8) (pin : ℕ) : Drive Unit := do
  let d ← driver
  let m ← machine
  let f := d.fields pin
  let hold := output = true ∧ function = 0 ∧ m.fieldRead f.muxBit 15 = 0 ∧ m.bit .dir pin = false
  when (¬hold) (put .dir pin true)
  hw (·.fieldWrite f.muxBit 15 function)
  pull f (if configuration = pullDefault then (d.boot pin).pull
    else if configuration = pullUp then 2 else if configuration = pullDown then 1 else 0)
  put .oden pin false
  when (output = true) (put .dir pin false)
  set fun d => { d with touched := d.touched ||| pinBit pin }

def bcmMask (bank : ℕ) (table : Option (List ℕ)) : Drive (BitVec 64) := do
  let d ← driver
  match table with
  | none => stop .invalidParameter
  | some l => do
    require (bank = 0 ∧ l ≠ [] ∧ l.length ≤ 64) .invalidParameter
    match gather 64 d.valid l 0 with
    | none => stop .invalidParameter
    | some mask => pure mask

/-- Pins that the firmware has given a function of its own are busy. -/
def canClaim (mask : BitVec 64) (function : BitVec 32) (configuration : BitVec 8) : Drive Unit := do
  let d ← driver
  require (d.started = true) .deviceNotReady
  require (configuration ≤ pullNone) .notSupported
  each (fun pin => do
    require ((d.fields pin).pullBit ≠ none ∨ configuration = pullDefault ∨ configuration = pullNone) .notSupported
    require ((d.boot pin).mux = 0 ∨ (d.boot pin).mux = function) .deviceBusy) (pinsFrom 0 64 mask)

def restoreFree (mask : BitVec 64) : Drive Unit := do
  let d ← driver
  each (fun pin => do
    bcmRestore pin (d.boot pin)
    set fun d => { d with touched := d.touched &&& ~~~pinBit pin })
    (pinsFrom 0 64 (mask &&& ~~~(d.ioOwned ||| d.irqOwned ||| d.functionOwned)))

def bcmTrigger (pin : ℕ) (mode : Mode) (polarity : Polarity) : Drive Unit := do
  require (mode ≠ .other ∧ (polarity = .activeLow ∨ polarity = .activeHigh ∨ polarity = .activeBoth ∧ mode = .latched)) .notSupported
  put .edge pin (polarity = .activeHigh)
  put .both pin (polarity = .activeBoth)
  put .level pin (mode = .levelSensitive)

/-! ### Requests -/

def bcmConnect (p : IoPins) : Drive Unit := do
  let mask ← bcmMask p.bank p.table
  require (p.mode ≠ .other ∧ p.driveStrength = 0 ∧ p.vendorDataLength = 0) .notSupported
  canClaim mask 0 p.pull
  let d ← driver
  require (mask &&& (d.ioOwned ||| d.functionOwned) = 0 ∧ (p.mode = .output → mask &&& d.irqOwned = 0)) .sharingViolation
  each (bcmConfigure 0 (p.mode = .output) p.pull) (pinsFrom 0 64 mask)
  set fun d => { d with ioOwned := d.ioOwned ||| mask }
  when (p.mode = .output) (set fun d => { d with outputOwned := d.outputOwned ||| mask })

def bcmDisconnect (bank : ℕ) (table : Option (List ℕ)) (preserve : Bool) : Drive Unit := do
  let mask ← bcmMask bank table
  set fun d => { d with ioOwned := d.ioOwned &&& ~~~mask, outputOwned := d.outputOwned &&& ~~~mask }
  when (preserve = false) (restoreFree mask)

def bcmReadPins (bank : ℕ) : Drive (BitVec 64) := do
  let d ← driver
  require (bank = 0 ∧ d.started = true) .invalidParameter
  let data ← bcmReadData
  pure (data &&& d.valid)

def bcmWritePins (bank : ℕ) (toSet toClear : BitVec 64) : Drive Unit := do
  let d ← driver
  require (bank = 0 ∧ d.started = true) .invalidParameter
  bcmWriteData toSet toClear

def bcmEnableInterrupt (p : IrqPin) : Drive Unit := do
  let d ← driver
  require (d.aon = false) .notSupported
  let mask ← bcmMask p.bank (some [p.pin])
  require (p.vendorDataLength = 0) .notSupported
  canClaim mask 0 p.pull
  let d ← driver
  require (mask &&& (d.functionOwned ||| d.outputOwned ||| d.irqOwned) = 0) .sharingViolation
  bcmTrigger p.pin p.mode p.polarity
  bcmConfigure 0 false p.pull p.pin
  hw (·.writeGio (p.pin / 32) .status (Machine.half mask (p.pin / 32)))
  set fun d => { d with irqOwned := d.irqOwned ||| mask }
  hw (·.update .mask mask mask)

def bcmDisableInterrupt (bank pin : ℕ) : Drive Unit := do
  let d ← driver
  require (d.aon = false) .notSupported
  let mask ← bcmMask bank (some [pin])
  hw (·.update .mask mask 0)
  set fun d => { d with irqOwned := d.irqOwned &&& ~~~mask }
  restoreFree mask

def bcmMaskInterrupts (bank : ℕ) (mask : BitVec 64) : Drive Unit := do
  let d ← driver
  require (bank = 0 ∧ d.aon = false ∧ mask &&& ~~~d.valid = 0) .invalidParameter
  hw (·.update .mask mask 0)

def bcmUnmaskInterrupt (bank pin : ℕ) : Drive Unit := do
  let d ← driver
  require (d.aon = false) .notSupported
  let mask ← bcmMask bank (some [pin])
  hw (·.update .mask mask mask)

def bcmQueryInterrupts (bank : ℕ) (enabled : BitVec 64) : Drive (BitVec 64) := do
  let d ← driver
  require (bank = 0 ∧ d.aon = false) .invalidParameter
  let m ← machine
  pure (m.readBanks .status &&& m.readBanks .mask &&& d.valid &&& enabled)

def bcmQueryEnabled (bank : ℕ) : Drive (BitVec 64) := do
  let d ← driver
  require (bank = 0 ∧ d.aon = false) .invalidParameter
  let m ← machine
  pure (m.readBanks .mask &&& d.valid)

def bcmClearInterrupts (bank : ℕ) (mask : BitVec 64) : Drive Unit := do
  let d ← driver
  require (bank = 0 ∧ d.aon = false ∧ mask &&& ~~~d.valid = 0) .invalidParameter
  hw (·.writeGio 0 .status (Machine.half mask 0))
  hw (·.writeGio 1 .status (Machine.half mask 1))

def bcmConnectFunction (p : FunctionPins) : Drive Unit := do
  let mask ← bcmMask p.bank p.table
  require (p.function ≠ 0 ∧ p.function ≤ 8 ∧ p.vendorDataLength = 0) .notSupported
  canClaim mask p.function p.pull
  let d ← driver
  require (mask &&& (d.ioOwned ||| d.irqOwned ||| d.functionOwned) = 0) .sharingViolation
  each (bcmConfigure p.function false p.pull) (pinsFrom 0 64 mask)
  set fun d => { d with functionOwned := d.functionOwned ||| mask }

def bcmDisconnectFunction (bank : ℕ) (table : Option (List ℕ)) : Drive Unit := do
  let mask ← bcmMask bank table
  set fun d => { d with functionOwned := d.functionOwned &&& ~~~mask }
  restoreFree mask

inductive Request
  | connect (p : IoPins)
  | disconnect (bank : ℕ) (table : Option (List ℕ)) (preserve : Bool)
  | readPins (bank : ℕ)
  | writePins (bank : ℕ) (toSet toClear : BitVec 64)
  | enableInterrupt (p : IrqPin)
  | disableInterrupt (bank pin : ℕ)
  | maskInterrupts (bank : ℕ) (mask : BitVec 64)
  | unmaskInterrupt (bank pin : ℕ)
  | queryInterrupts (bank : ℕ) (enabled : BitVec 64)
  | queryEnabled (bank : ℕ)
  | clearInterrupts (bank : ℕ) (mask : BitVec 64)
  | connectFunction (p : FunctionPins)
  | disconnectFunction (bank : ℕ) (table : Option (List ℕ))

/-- A request whose answer is not looked at. -/
def done {α : Type} (x : Drive α) : Drive Unit := do
  let _ ← x
  pure ()

def serve : Request → Drive Unit
  | .connect p => bcmConnect p
  | .disconnect bank table preserve => bcmDisconnect bank table preserve
  | .readPins bank => done (bcmReadPins bank)
  | .writePins bank toSet toClear => bcmWritePins bank toSet toClear
  | .enableInterrupt p => bcmEnableInterrupt p
  | .disableInterrupt bank pin => bcmDisableInterrupt bank pin
  | .maskInterrupts bank mask => bcmMaskInterrupts bank mask
  | .unmaskInterrupt bank pin => bcmUnmaskInterrupt bank pin
  | .queryInterrupts bank enabled => done (bcmQueryInterrupts bank enabled)
  | .queryEnabled bank => done (bcmQueryEnabled bank)
  | .clearInterrupts bank mask => bcmClearInterrupts bank mask
  | .connectFunction p => bcmConnectFunction p
  | .disconnectFunction bank table => bcmDisconnectFunction bank table

/-! ### Runs -/

/-- The levels as they are. -/
def Machine.data (m : Machine) (aon : Bool) : BitVec 64 := m.gio 1 .data ++ if aon then m.aml else m.gio 0 .data

/-- A controller that was prepared and started over the registers of the firmware. What it knows of pins
that are not valid is never looked up. -/
def start (world : World) (revision aon : Bool) (m : Machine) : Context where
  world := world
  driver :=
    { revision := revision, aon := aon, valid := bcmValidPins revision aon
      ioOwned := 0, outputOwned := 0, irqOwned := 0, functionOwned := 0, touched := 0
      boot := fun pin => m.snapshot ((bcmPinFields revision aon pin).getD ⟨0, none⟩) pin (m.data aon)
      started := true }
  machine := m

inductive Event
  | ask (r : Request)
  /-- Registers change from outside: interrupts come, levels of inputs change. -/
  | outside (gio : ℕ → Reg → BitVec 32) (pinctrl : ℕ → BitVec 32) (aml : BitVec 32)

def step (c : Context) : Event → Context
  | .ask r => ((serve r).run c).2
  | .outside gio pinctrl aml => { c with machine := { c.machine with gio := gio, pinctrl := pinctrl, aml := aml } }

def run (world : World) (revision aon : Bool) (m : Machine) (events : List Event) : Context :=
  events.foldl step (start world revision aon m)

end Pi5Drivers.BcmGpio
