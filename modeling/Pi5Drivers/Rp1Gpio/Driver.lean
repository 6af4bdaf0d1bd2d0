import Pi5Drivers.Lib.Effect
import Pi5Drivers.Rp1Gpio.Hardware

/-! The driver of the GPIO block of RP1: who owns which pins, what pins were like before they were
taken, and the requests of the class extension. -/

namespace Pi5Drivers.Rp1Gpio

open Effect GpioClx

structure Driver where
  boot : ℕ → PinState
  resume : ℕ → PinState
  ioOwned : BitVec 64
  outputOwned : BitVec 64
  functionOwned : BitVec 64
  touched : BitVec 64
  irqOwned : BitVec 32
  resumeInte : BitVec 32
  started : Bool

inductive Status
  | invalidParameter | notSupported | deviceNotReady | deviceBusy | sharingViolation
  /-- The interrupt was not routed to the driver. -/
  | route (code : ℕ)
deriving DecidableEq

structure Context where
  driver : Driver
  machine : Machine

abbrev Drive (α : Type) := Effect Context Status α

def set (f : Driver → Driver) : Drive Unit := modify fun c => { c with driver := f c.driver }

def hw (f : Machine → Machine) : Drive Unit := modify fun c => { c with machine := f c.machine }

/-- A register is written. -/
def write (block : Block) (offset : ℕ) (v : BitVec 32) : Drive Unit := hw (·.gpioWrite block offset v)

/-- The pins of the controller that are in a mask. -/
abbrev listed (mask : BitVec 64) : List ℕ := pinsFrom 2 rp1TotalPins mask

/-! ### Masks -/

def gpioPinMask (bank : ℕ) (table : Option (List ℕ)) : Drive (BitVec 64) :=
  match table with
  | none => stop .invalidParameter
  | some l => do
    require (bank = 0 ∧ l ≠ [] ∧ l.length ≤ rp1TotalPins) .invalidParameter
    match gather rp1TotalPins rp1AllowedMask l 0 with
    | none => stop .invalidParameter
    | some mask => pure mask

def gpioIrqPinMask (bank pin : ℕ) : Drive (BitVec 32) := do
  require (bank = 0 ∧ 2 ≤ pin ∧ pin < rp1HeaderPins) .invalidParameter
  pure (pinBit pin)

/-- Functions that the firmware selected are not handed over. -/
def gpioCanClaim (mask : BitVec 64) : Drive Unit := do
  let c ← get
  require (c.driver.started = true) .deviceNotReady
  require (mask &&& ~~~rp1AllowedMask = 0) .invalidParameter
  require (∀ pin ∈ listed mask, (c.driver.boot pin).control &&& 31 = 5 ∨ (c.driver.boot pin).control &&& 31 = 31) .deviceBusy

def gpioTrigger (mode : Mode) (polarity : Polarity) : Drive (BitVec 32) :=
  match mode, polarity with
  | .latched, .activeHigh => pure (1 <<< 21)
  | .latched, .activeLow => pure (1 <<< 20)
  | .latched, .activeBoth => pure (3 <<< 20)
  | .levelSensitive, .activeHigh => pure (1 <<< 23)
  | .levelSensitive, .activeLow => pure (1 <<< 22)
  | _, _ => stop .notSupported

def gpioConfigure (function : BitVec 32) (output : Bool) (configuration : BitVec 8) (strength pin : ℕ) : Drive Unit := do
  let c ← get
  hw (configure c.driver.boot (fun p => decide (c.driver.irqOwned.setWidth 64 &&& pinBit p ≠ 0)) function output configuration strength pin)
  set fun d => { d with touched := d.touched ||| pinBit pin }

/-! ### Power -/

/-- The states of the pins of a mask, over states that were saved before. -/
def save (r : Regs) (mask : BitVec 64) (old : ℕ → PinState) (pin : ℕ) : PinState :=
  if pin ∈ listed mask then gpioSnapshot r pin else old pin

def gpioPrepare : Drive Unit := do
  let c ← get
  require (c.machine.now.gpioRead .io rp1Inte = 0) .deviceBusy
  set fun d => { d with boot := save c.machine.now rp1AllowedMask d.boot }

/-- The pins that were touched are put back to some states. -/
def restoreTouched (states : ℕ → PinState) (touched : BitVec 64) : Drive Unit :=
  hw (·.rounds (fun pin => gpioRestore (states pin) pin) (listed touched))

def gpioStart (restore : Bool) (route : Option ℕ) : Drive Unit := do
  match route with
  | some code => stop (.route code)
  | none => do
    let c ← get
    when (restore = true) do
      restoreTouched c.driver.resume c.driver.touched
      write .io (rp1Set + rp1Inte) c.driver.resumeInte
    set fun d => { d with started := true }

def gpioStop (saves : Bool) : Drive Unit := do
  let c ← get
  when (saves = true) (set fun d => { d with
    resumeInte := c.machine.now.gpioRead .io rp1Inte &&& d.irqOwned
    resume := save c.machine.now d.touched d.resume })
  write .io (rp1Clear + rp1Inte) c.driver.irqOwned
  restoreTouched c.driver.boot c.driver.touched
  set fun d => { d with started := false }

/-! ### Requests -/

def restoreUnowned (mask : BitVec 64) : Drive Unit := do
  let c ← get
  each (fun pin => do
    hw (gpioRestore (c.driver.boot pin) pin)
    set fun d => { d with touched := d.touched &&& ~~~pinBit pin })
    (listed (mask &&& ~~~(c.driver.ioOwned ||| c.driver.irqOwned.setWidth 64 ||| c.driver.functionOwned)))

def gpioConnect (p : IoPins) : Drive Unit := do
  let mask ← gpioPinMask p.bank p.table
  require (mask &&& rp1BoardMask = 0 ∨ p.mode = .output) .notSupported
  require ((p.mode = .input ∨ p.mode = .output) ∧ p.pull ≤ pullNone ∧ p.vendorDataLength = 0 ∧
    (p.driveStrength = 0 ∨ p.driveStrength = 200 ∨ p.driveStrength = 400 ∨ p.driveStrength = 800 ∨ p.driveStrength = 1200)) .notSupported
  gpioCanClaim mask
  let c ← get
  require (mask &&& (c.driver.ioOwned ||| c.driver.functionOwned) = 0 ∧
    (p.mode = .output → mask &&& c.driver.irqOwned.setWidth 64 = 0)) .sharingViolation
  each (gpioConfigure 5 (p.mode = .output) p.pull p.driveStrength) (listed mask)
  set fun d => { d with ioOwned := d.ioOwned ||| mask }
  when (p.mode = .output) (set fun d => { d with outputOwned := d.outputOwned ||| mask })

def gpioDisconnect (bank : ℕ) (table : Option (List ℕ)) (preserve : Bool) : Drive Unit := do
  let mask ← gpioPinMask bank table
  set fun d => { d with ioOwned := d.ioOwned &&& ~~~mask, outputOwned := d.outputOwned &&& ~~~mask }
  when (preserve = false) (restoreUnowned mask)

def gpioReadPins (bank : ℕ) (written : Bool) : Drive (BitVec 64) := do
  let c ← get
  require (bank = 0 ∧ c.driver.started = true) .invalidParameter
  pure (gpioReadValues c.machine.now written)

/-- Pins may be written before they are connected. -/
def gpioWritePins (bank : ℕ) (toSet toClear : BitVec 64) : Drive Unit := do
  let c ← get
  require (bank = 0 ∧ c.driver.started = true ∧ (toSet ||| toClear) &&& ~~~rp1AllowedMask = 0 ∧ toSet &&& toClear = 0) .invalidParameter
  hw (gpioWriteValues toSet toClear)

def gpioEnableInterrupt (p : IrqPin) : Drive Unit := do
  let bit ← gpioIrqPinMask p.bank p.pin
  require (p.pull ≤ pullNone ∧ p.vendorDataLength = 0) .notSupported
  let events ← gpioTrigger p.mode p.polarity
  gpioCanClaim (bit.setWidth 64)
  let c ← get
  require (bit.setWidth 64 &&& (c.driver.functionOwned ||| c.driver.outputOwned ||| c.driver.irqOwned.setWidth 64) = 0) .sharingViolation
  write .io (rp1Clear + rp1Inte) bit
  gpioConfigure 5 false p.pull 0 p.pin
  write .io (rp1Set + rp1Ctrl p.pin) rp1IrqReset
  write .io (rp1Set + rp1Ctrl p.pin) events
  set fun d => { d with irqOwned := d.irqOwned ||| bit }
  write .io (rp1Set + rp1Inte) bit

def gpioDisableInterrupt (bank pin : ℕ) : Drive Unit := do
  let bit ← gpioIrqPinMask bank pin
  write .io (rp1Clear + rp1Inte) bit
  write .io (rp1Clear + rp1Ctrl pin) rp1IrqEvents
  write .io (rp1Set + rp1Ctrl pin) rp1IrqReset
  set fun d => { d with irqOwned := d.irqOwned &&& ~~~bit }
  restoreUnowned (bit.setWidth 64)

/-- Interrupts may be masked before they are enabled and after they are disabled. -/
def gpioMaskInterrupts (bank : ℕ) (mask : BitVec 64) : Drive Unit := do
  require (bank = 0) .invalidParameter
  write .io (rp1Clear + rp1Inte) (mask.setWidth 32 &&& rp1HeaderMask)

def gpioUnmaskInterrupt (bank pin : ℕ) : Drive Unit := do
  let bit ← gpioIrqPinMask bank pin
  write .io (rp1Set + rp1Inte) bit

def gpioQueryInterrupts (bank : ℕ) (enabled : BitVec 64) : Drive (BitVec 64) := do
  let c ← get
  require (bank = 0) .invalidParameter
  pure ((c.machine.now.gpioRead .io rp1Ints &&& rp1HeaderMask).setWidth 64 &&& enabled)

def gpioQueryEnabled (bank : ℕ) : Drive (BitVec 64) := do
  let c ← get
  require (bank = 0) .invalidParameter
  pure ((c.machine.now.gpioRead .io rp1Inte &&& rp1HeaderMask).setWidth 64)

def gpioClearInterrupts (bank : ℕ) (mask : BitVec 64) : Drive Unit := do
  require (bank = 0) .invalidParameter
  hw (·.rounds (fun pin (m : Machine) => m.gpioWrite .io (rp1Set + rp1Ctrl pin) rp1IrqReset) (pinsFrom 2 rp1HeaderPins mask))

def gpioReconfigureInterrupt (bank pin : ℕ) (mode : Mode) (polarity : Polarity) : Drive Unit := do
  let bit ← gpioIrqPinMask bank pin
  let events ← gpioTrigger mode polarity
  let c ← get
  write .io (rp1Clear + rp1Inte) bit
  write .io (rp1Clear + rp1Ctrl pin) rp1IrqEvents
  write .io (rp1Set + rp1Ctrl pin) rp1IrqReset
  write .io (rp1Set + rp1Ctrl pin) events
  write .io (rp1Set + rp1Inte) (c.machine.now.gpioRead .io rp1Inte &&& bit)

def gpioConnectFunction (p : FunctionPins) : Drive Unit := do
  let mask ← gpioPinMask p.bank p.table
  require (mask &&& rp1BoardMask = 0 ∧ p.function ≤ 8 ∧ p.function ≠ 5 ∧ p.pull ≤ pullNone ∧ p.vendorDataLength = 0) .notSupported
  gpioCanClaim mask
  let c ← get
  require (mask &&& (c.driver.ioOwned ||| c.driver.irqOwned.setWidth 64 ||| c.driver.functionOwned) = 0) .sharingViolation
  each (gpioConfigure (BitVec.ofNat 32 p.function) false p.pull 0) (pinsFrom 2 rp1HeaderPins mask)
  set fun d => { d with functionOwned := d.functionOwned ||| mask }

def gpioDisconnectFunction (bank : ℕ) (table : Option (List ℕ)) : Drive Unit := do
  let mask ← gpioPinMask bank table
  set fun d => { d with functionOwned := d.functionOwned &&& ~~~mask }
  restoreUnowned mask

inductive Request
  /-- `route` is the failure to route the interrupt, if there is one. -/
  | start (restore : Bool) (route : Option ℕ)
  | stop (saves : Bool)
  | connect (p : IoPins)
  | disconnect (bank : ℕ) (table : Option (List ℕ)) (preserve : Bool)
  | readPins (bank : ℕ) (written : Bool)
  | writePins (bank : ℕ) (toSet toClear : BitVec 64)
  | enableInterrupt (p : IrqPin)
  | disableInterrupt (bank pin : ℕ)
  | maskInterrupts (bank : ℕ) (mask : BitVec 64)
  | unmaskInterrupt (bank pin : ℕ)
  | queryInterrupts (bank : ℕ) (enabled : BitVec 64)
  | queryEnabled (bank : ℕ)
  | clearInterrupts (bank : ℕ) (mask : BitVec 64)
  | reconfigureInterrupt (bank pin : ℕ) (mode : Mode) (polarity : Polarity)
  | connectFunction (p : FunctionPins)
  | disconnectFunction (bank : ℕ) (table : Option (List ℕ))

/-- The caller is given the result. -/
def done {α : Type} (x : Drive α) : Drive Unit := do
  let _ ← x
  pure ()

def serve : Request → Drive Unit
  | .start restore route => gpioStart restore route
  | .stop saves => gpioStop saves
  | .connect p => gpioConnect p
  | .disconnect bank table preserve => gpioDisconnect bank table preserve
  | .readPins bank written => done (gpioReadPins bank written)
  | .writePins bank toSet toClear => gpioWritePins bank toSet toClear
  | .enableInterrupt p => gpioEnableInterrupt p
  | .disableInterrupt bank pin => gpioDisableInterrupt bank pin
  | .maskInterrupts bank mask => gpioMaskInterrupts bank mask
  | .unmaskInterrupt bank pin => gpioUnmaskInterrupt bank pin
  | .queryInterrupts bank enabled => done (gpioQueryInterrupts bank enabled)
  | .queryEnabled bank => done (gpioQueryEnabled bank)
  | .clearInterrupts bank mask => gpioClearInterrupts bank mask
  | .reconfigureInterrupt bank pin mode polarity => gpioReconfigureInterrupt bank pin mode polarity
  | .connectFunction p => gpioConnectFunction p
  | .disconnectFunction bank table => gpioDisconnectFunction bank table

/-! ### Runs -/

/-- A driver that knows nothing yet. -/
def blank : Driver where
  boot _ := ⟨0, 0, 0, 0⟩
  resume _ := ⟨0, 0, 0, 0⟩
  ioOwned := 0
  outputOwned := 0
  functionOwned := 0
  touched := 0
  irqOwned := 0
  resumeInte := 0
  started := false

/-- A driver that has prepared over some registers. -/
def prepared (r : Regs) : Context := ⟨{ blank with boot := save r rp1AllowedMask blank.boot }, ⟨r, []⟩⟩

inductive Event
  | ask (r : Request)
  /-- Registers change from outside, as when power is lost. -/
  | outside (r : Regs)

def step (c : Context) : Event → Context
  | .ask r => ((serve r).run c).2
  | .outside r => { c with machine := { c.machine with now := r } }

def run (r : Regs) (events : List Event) : Context := events.foldl step (prepared r)

end Pi5Drivers.Rp1Gpio
