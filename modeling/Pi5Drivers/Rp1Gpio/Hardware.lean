import Pi5Drivers.GpioClx
import Pi5Drivers.Lib.Journal
import Pi5Drivers.Lib.Pins

/-! The registers of the GPIO block of RP1, in three banks. Every register is also at two other
offsets, where writing ones sets or clears bits and leaves the others alone. -/

namespace Pi5Drivers.Rp1Gpio

open GpioClx

/-! ### Registers -/

inductive Block
  | io | rio | pads
deriving DecidableEq

def rp1Set : ℕ := 0x2000
def rp1Clear : ℕ := 0x3000
def rp1Ctrl (n : ℕ) : ℕ := 4 + 8 * n
def rp1Pad (n : ℕ) : ℕ := 4 + 4 * n
def rp1Inte : ℕ := 0x11c
def rp1Ints : ℕ := 0x124
def rp1Out : ℕ := 0
def rp1Oe : ℕ := 4
def rp1In : ℕ := 8

def rp1HeaderPins : ℕ := 28
def rp1TotalPins : ℕ := 54
def rp1HeaderMask : BitVec 32 := 0x0ffffffc
def rp1BoardMask : BitVec 64 := 1 <<< 32 ||| 1 <<< 34 ||| 1 <<< 44 ||| 1 <<< 46
/-- The pins that there are for callers. -/
def rp1AllowedMask : BitVec 64 := rp1HeaderMask.setWidth 64 ||| rp1BoardMask

def rp1IrqReset : BitVec 32 := 1 <<< 28
def rp1IrqEvents : BitVec 32 := 0x0ff00000
def rp1ControlOverrides : BitVec 32 := 0xc003f000
def rp1PadPull : BitVec 32 := 0x0c
def rp1PadIe : BitVec 32 := 0x40
def rp1PadOd : BitVec 32 := 0x80

/-- The registers of a block, by offset. -/
abbrev Regs := Block → ℕ → BitVec 32

/-- The register that an offset stands for. -/
def home (offset : ℕ) : ℕ := offset / 0x4000 * 0x4000 + offset % 0x1000

/-- What a write at an offset makes of the register. -/
def written (offset : ℕ) (old v : BitVec 32) : BitVec 32 :=
  if offset / 0x1000 % 4 = 2 then old ||| v else if offset / 0x1000 % 4 = 3 then old &&& ~~~v else v

def Regs.write (r : Regs) (block : Block) (offset : ℕ) (v : BitVec 32) : Regs := fun b a =>
  if b = block ∧ a = home offset then written offset (r b a) v else r b a

/-- The registers, and what they were after every write. -/
abbrev Machine := Journal Regs

def Machine.gpioWrite (m : Machine) (block : Block) (offset : ℕ) (v : BitVec 32) : Machine := m.write (·.write block offset v)

def Regs.gpioRead (r : Regs) (block : Block) (offset : ℕ) : BitVec 32 := r block (home offset)

/-! ### Pins -/

def bankOffset (pin : ℕ) : ℕ := if pin < 28 then 0 else if pin < 34 then 0x4000 else 0x8000

def bankPin (pin : ℕ) : ℕ := if pin < 28 then pin else if pin < 34 then pin - 28 else pin - 34

def localBit (pin : ℕ) : BitVec 32 := pinBit (bankPin pin)

structure PinState where
  control : BitVec 32
  pad : BitVec 32
  output : BitVec 32
  enable : BitVec 32
deriving DecidableEq

/-- An output that is driven and not overridden. -/
def PinState.Live (s : PinState) : Prop :=
  s.control &&& (31 ||| rp1ControlOverrides) = 5 ∧ s.enable ≠ 0 ∧ s.pad &&& rp1PadOd = 0

instance (s : PinState) : Decidable s.Live := inferInstanceAs (Decidable (_ ∧ _))

def gpioSnapshot (r : Regs) (pin : ℕ) : PinState where
  control := r.gpioRead .io (bankOffset pin + rp1Ctrl (bankPin pin)) &&& ~~~rp1IrqReset
  pad := r.gpioRead .pads (bankOffset pin + rp1Pad (bankPin pin))
  output := r.gpioRead .rio (bankOffset pin + rp1Out) &&& localBit pin
  enable := r.gpioRead .rio (bankOffset pin + rp1Oe) &&& localBit pin

/-- A pin stops driving before anything else is changed. -/
def Machine.float (m : Machine) (pin : ℕ) : Machine :=
  (m.gpioWrite .pads (bankOffset pin + rp1Set + rp1Pad (bankPin pin)) rp1PadOd).gpioWrite
    .rio (bankOffset pin + rp1Clear + rp1Oe) (localBit pin)

def gpioRestore (state : PinState) (pin : ℕ) (m : Machine) : Machine :=
  let bank := bankOffset pin
  let hold := rp1HeaderPins ≤ pin ∧ state.enable ≠ 0 ∧ state.pad &&& rp1PadOd = 0 ∧
    state.control &&& (31 ||| rp1ControlOverrides) = 5 ∧
    m.now.gpioRead .io (bank + rp1Ctrl (bankPin pin)) &&& (31 ||| rp1ControlOverrides) = 5 ∧
    m.now.gpioRead .rio (bank + rp1Oe) &&& localBit pin ≠ 0 ∧ m.now.gpioRead .pads (bank + rp1Pad (bankPin pin)) &&& rp1PadOd = 0
  let m := if hold then m else m.float pin
  let m := m.gpioWrite .rio (bank + (if state.output ≠ 0 then rp1Set else rp1Clear) + rp1Out) (localBit pin)
  let m := m.gpioWrite .io (bank + rp1Ctrl (bankPin pin)) state.control
  let m := m.gpioWrite .rio (bank + (if state.enable ≠ 0 then rp1Set else rp1Clear) + rp1Oe) (localBit pin)
  m.gpioWrite .pads (bank + rp1Pad (bankPin pin)) state.pad

/-- The control word of a pin that is claimed. -/
def claimedControl (interrupts : Bool) (function ctrl : BitVec 32) : BitVec 32 :=
  let ctrl := ctrl &&& ~~~(31 ||| rp1ControlOverrides ||| rp1IrqReset)
  let ctrl := if interrupts then ctrl else ctrl &&& ~~~rp1IrqEvents
  ctrl ||| function

/-- The pad of a pin that is claimed. -/
def claimedPad (boot : BitVec 32) (function : BitVec 32) (output : Bool) (configuration : BitVec 8) (strength : ℕ)
    (pad : BitVec 32) : BitVec 32 :=
  let pad := (pad &&& ~~~rp1PadPull) ||| rp1PadIe
  let pad := if configuration = pullDefault then pad ||| (boot &&& rp1PadPull)
    else if configuration = pullUp then pad ||| 8 else if configuration = pullDown then pad ||| 4 else pad
  let pad := if strength = 0 then pad
    else (pad &&& ~~~(0x30 : BitVec 32)) ||| ((if strength = 200 then 0 else if strength = 400 then 1 else if strength = 800 then 2 else 3) <<< 4)
  if output = true ∨ function ≠ 5 then pad &&& ~~~rp1PadOd else pad ||| rp1PadOd

/-- What claiming a pin does to the registers. `interrupts` says that it is owned for interrupts. -/
def configure (boot : ℕ → PinState) (interrupts : ℕ → Bool) (function : BitVec 32) (output : Bool) (configuration : BitVec 8)
    (strength : ℕ) (pin : ℕ) (m : Machine) : Machine :=
  let bank := bankOffset pin
  let ctrl := m.now.gpioRead .io (bank + rp1Ctrl (bankPin pin))
  let pad := m.now.gpioRead .pads (bank + rp1Pad (bankPin pin))
  let hold := rp1HeaderPins ≤ pin ∧ output = true ∧ function = 5 ∧ ctrl &&& (31 ||| rp1ControlOverrides) = 5 ∧
    m.now.gpioRead .rio (bank + rp1Oe) &&& localBit pin ≠ 0 ∧ pad &&& rp1PadOd = 0
  let m := if hold then m else m.float pin
  let m := m.gpioWrite .io (bank + rp1Ctrl (bankPin pin)) (claimedControl (interrupts pin) function ctrl)
  let m := if output then m.gpioWrite .rio (bank + rp1Set + rp1Oe) (localBit pin) else m
  m.gpioWrite .pads (bank + rp1Pad (bankPin pin)) (claimedPad (boot pin).pad function output configuration strength pad)

/-! ### Levels -/

/-- The first pin of a bank, and those of its pins that callers have. -/
def starts (bank : ℕ) : ℕ := if bank = 0 then 0 else if bank = 1 then 28 else 34

def masks (bank : ℕ) : BitVec 32 :=
  if bank = 0 then rp1HeaderMask else if bank = 1 then 1 <<< 4 else 1 <<< 0 ||| 1 <<< 10 ||| 1 <<< 12

def writeBank (set clear : BitVec 64) (bank : ℕ) (m : Machine) : Machine :=
  let toSet := BitVec.setWidth 32 (set >>> starts bank) &&& masks bank
  let toClear := BitVec.setWidth 32 (clear >>> starts bank) &&& masks bank
  if toSet ||| toClear = 0 then m
  else (m.gpioWrite .rio (bank * 0x4000 + (rp1Clear + rp1Out)) toClear).gpioWrite .rio (bank * 0x4000 + (rp1Set + rp1Out)) toSet

def gpioWriteValues (set clear : BitVec 64) (m : Machine) : Machine := m.rounds (writeBank set clear) [0, 1, 2]

def gpioReadValues (r : Regs) (output : Bool) : BitVec 64 :=
  let offset := if output then rp1Out else rp1In
  (r.gpioRead .rio offset &&& rp1HeaderMask).setWidth 64 |||
    ((r.gpioRead .rio (0x4000 + offset) &&& 1 <<< 4).setWidth 64 <<< 28) |||
    ((r.gpioRead .rio (0x8000 + offset) &&& (1 <<< 0 ||| 1 <<< 10 ||| 1 <<< 12)).setWidth 64 <<< 34)

end Pi5Drivers.Rp1Gpio
