import Pi5Drivers.Lib.Common
import Mathlib.Data.Finset.Erase
import Mathlib.Data.Finset.Insert
import Mathlib.Data.Nat.Notation
import Mathlib.Logic.Function.Basic

/-! The driver of the RP1 clocks. Files lease the clock of the UARTs and the clock of the
DMA engine. A clock that was disabled when its first lease began runs from the crystal
while leases last; a clock that was enabled is left alone. -/

namespace Pi5Drivers.Clocks

/-! ### Rates -/

/-- What the registers hold, by offset. -/
abbrev Registers := ℕ → BitVec 32

def clkSys : ℕ := 0x14

def clkEnable : BitVec 32 := 0x800

/-- The frequency of a PLL, zero while it is not locked or does not fit a word. -/
def pll (r : Registers) (base : ℕ) : ℕ :=
  let cs := r base
  let power := r (base + 4)
  let prim := r (base + 0x10)
  let ref := (cs &&& 0x3f).toNat
  let d1 := (prim >>> 16 &&& 7).toNat
  let d2 := (prim >>> 12 &&& 7).toNat
  if cs &&& 0x80000000 = 0 ∨ power &&& 0x29 ≠ 0 ∨ ref = 0 ∨ d1 = 0 ∨ d2 = 0 then 0
  else
    let whole := (r (base + 8) &&& 0xfff).toNat * 2 ^ 24
    let feedback := if power &&& 4 = 0 then whole + (r (base + 12) &&& 0xffffff).toNat else whole
    let rate := 50000000 * feedback / (ref * d1 * d2 * 2 ^ 24)
    if rate ≤ 0xffffffff then rate else 0

/-- The crystal, a PLL, or nothing that the driver knows. -/
def parent (r : Registers) (control : BitVec 32) (gated : Bool) : Option ℕ :=
  if gated = true then
    match (control >>> 5 &&& 0x1f).toNat with
    | 0 => some (if r 0x8010 &&& 0x10 ≠ 0 then pll r 0x8000 / 2 else 0)
    | 1 => some (pll r 0x10000)
    | 2 => some 50000000
    | _ => none
  else
    match (control &&& 3).toNat with
    | 0 => some 50000000
    | 2 => some (pll r 0x8000)
    | _ => none

/-- The frequency of a clock, zero for a gated clock that is disabled. -/
def clockRate (r : Registers) (base : ℕ) (gated : Bool) : ℕ :=
  if gated = true ∧ r base &&& clkEnable = 0 then 0
  else
    match parent r (r base) gated with
    | none => 0
    | some parent =>
      let divider := (r (base + 4) &&& if gated = true then 0xff else 0xffffff).toNat
      parent / if divider = 0 then 65536 else divider

/-! ### The device -/

inductive Clock
  | uart | dma
deriving DecidableEq, Repr

/-- The control register of a clock; its divider follows. -/
def Clock.base : Clock → ℕ
  | .uart => 0x54
  | .dma => 0x44

def rp1ClockRate (r : Registers) (uart : Bool) : ℕ := clockRate r (if uart = true then Clock.uart.base else clkSys) uart

def rp1DmaClockRate (r : Registers) : ℕ := clockRate r Clock.dma.base true

/-- The two registers of a clock. -/
structure Setting where
  control : BitVec 32
  divider : BitVec 32
deriving DecidableEq, Repr

def Setting.Enabled (s : Setting) : Prop := s.control &&& clkEnable ≠ 0

instance (s : Setting) : Decidable s.Enabled := inferInstanceAs (Decidable (_ ≠ _))

/-- What the driver remembers of a clock. -/
structure Lease where
  users : ℕ
  saved : Setting
  changed : Bool
deriving DecidableEq, Repr

/-- The context of the device, its registers, the files whose flag is set, and every
register write, the last one first. -/
structure Device where
  registers : Registers
  online : Bool
  lease : Clock → Lease
  holders : Clock → Finset ℕ
  written : List (ℕ × BitVec 32)

/-! ### Requests -/

inductive Status
  | success | invalidDeviceRequest | deviceNotReady | deviceConfigurationError | deviceBusy
  /-- What the framework returns for a buffer. -/
  | other (code : ℕ)
deriving DecidableEq, Repr

inductive Code
  | query | uart | dma
deriving DecidableEq, Repr

structure Request where
  code : Option Code
  file : Option ℕ
  kernelMode : Bool
  /-- The output buffer, or why there is none. -/
  output : Except Status Unit

inductive Reply
  | dma (online : Bool) (systemHz dmaHz dmaUsers : ℕ) (control divider : BitVec 32)
  | uart (online : Bool) (systemHz uartHz uartUsers : ℕ)
      (systemControl systemDivider uartControl uartDivider : BitVec 32)

/-- How a request ends. -/
structure Answer where
  status : Status
  reply : Option Reply

def refusal (s : Status) : Answer := ⟨s, none⟩

namespace Device

def setting (d : Device) (c : Clock) : Setting := ⟨d.registers c.base, d.registers (c.base + 4)⟩

def write (d : Device) (offset : ℕ) (value : BitVec 32) : Device :=
  { d with
    registers := Function.update d.registers offset value
    written := (offset, value) :: d.written }

def setLease (d : Device) (c : Clock) (l : Lease) : Device := { d with lease := Function.update d.lease c l }

def setHolders (d : Device) (c : Clock) (files : Finset ℕ) : Device :=
  { d with holders := Function.update d.holders c files }

/-- The crystal, undivided. -/
def running : Setting := ⟨2 <<< 5 ||| clkEnable, 1⟩

def enable (c : Clock) (d : Device) : Device :=
  ((d.write c.base (2 <<< 5)).write (c.base + 4) running.divider).write c.base running.control

def enableUart : Device → Device := enable .uart

def enableDma : Device → Device := enable .dma

/-- The registers get back what they held, the enable bit last. -/
def restoreClock (c : Clock) (d : Device) : Device :=
  let l := d.lease c
  if l.changed = true then
    ((d.write c.base (d.registers c.base &&& ~~~clkEnable)).write (c.base + 4) l.saved.divider).write c.base l.saved.control
  else d

def restore : Device → Device := restoreClock .uart

def restoreDma : Device → Device := restoreClock .dma

/-! ### Power -/

/-- Clocks that were changed run again while they have users. -/
def reenable (c : Clock) (d : Device) : Device :=
  if (d.lease c).users ≠ 0 ∧ (d.lease c).changed = true then enable c d else d

def clockStart (d : Device) : Device := { reenable .dma (reenable .uart d) with online := true }

def clockStop (d : Device) : Device := { restoreDma (restore d) with online := false }

/-! ### Files -/

/-- The users of a clock are counted in a word. -/
def countUp (n : ℕ) : ℕ := (n + 1) % 0x100000000

def countDown (n : ℕ) : ℕ := (0xffffffff + n) % 0x100000000

/-- What the driver remembers of a clock without users. -/
def forget (c : Clock) (d : Device) : Device := d.setLease c { d.lease c with changed := false }

/-- The last user has gone. -/
def retire (c : Clock) (d : Device) : Device := forget c (if d.online = true then restoreClock c d else d)

/-- A file that goes away gives up a clock. -/
def leave (c : Clock) (file : ℕ) (d : Device) : Device :=
  if file ∈ d.holders c then
    let users := countDown (d.lease c).users
    let d := (d.setHolders c ((d.holders c).erase file)).setLease c { d.lease c with users := users }
    if users = 0 then retire c d else d
  else d

def clockCleanup (file : ℕ) (d : Device) : Device := leave .dma file (leave .uart file d)

/-- The first user saves the registers, and enables the clock if it is disabled. -/
def firstUse (c : Clock) (d : Device) : Device :=
  if (d.lease c).users = 0 then
    let saved := d.setting c
    let d := d.setLease c { d.lease c with saved := saved, changed := decide ¬saved.Enabled }
    if ¬saved.Enabled then enable c d else d
  else d

/-- A file becomes a user. -/
def join (c : Clock) (file : ℕ) (d : Device) : Device :=
  (d.setLease c { d.lease c with users := countUp (d.lease c).users }).setHolders c (insert file (d.holders c))

/-- A file becomes a user if the clock then has a rate that it can use. -/
def acquire (c : Clock) (usable : Registers → Bool) (file : ℕ) (d : Device) : Status × Device :=
  if d.online = false then (.deviceNotReady, d)
  else if file ∈ d.holders c then (.success, d)
  else
    let begun := firstUse c d
    if usable begun.registers = false then
      (.deviceConfigurationError, if (d.lease c).users = 0 then forget c (restoreClock c begun) else begun)
    else (.success, join c file begun)

/-! ### Answers -/

def dmaReply (d : Device) : Reply :=
  .dma d.online (rp1ClockRate d.registers false) (rp1DmaClockRate d.registers) (d.lease .dma).users
    (d.setting .dma).control (d.setting .dma).divider

def uartReply (d : Device) : Reply :=
  .uart d.online (rp1ClockRate d.registers false) (rp1ClockRate d.registers true) (d.lease .uart).users
    (d.registers clkSys) (d.registers (clkSys + 4)) (d.setting .uart).control (d.setting .uart).divider

/-- The DMA engine takes up to 100 MHz. -/
def dmaUsable (r : Registers) : Bool := decide (rp1DmaClockRate r ≠ 0 ∧ rp1DmaClockRate r ≤ 100000000)

def uartUsable (r : Registers) : Bool := decide (rp1ClockRate r true ≠ 0)

def answer (reply : Device → Reply) (result : Status × Device) : Answer × Device :=
  (⟨result.1, if result.1 = .success then some (reply result.2) else none⟩, result.2)

def dmaClockIo (d : Device) (r : Request) : Answer × Device :=
  match r.file, r.kernelMode, r.output with
  | some file, true, .ok () => answer dmaReply (acquire .dma dmaUsable file d)
  | some _, true, .error s => (refusal s, d)
  | _, _, _ => (refusal .invalidDeviceRequest, d)

def clockIo (d : Device) (r : Request) : Answer × Device :=
  match r.code, r.file with
  | some .dma, _ => dmaClockIo d r
  | some code, some file =>
    if code = .uart ∧ r.kernelMode = false then (refusal .invalidDeviceRequest, d)
    else
      match r.output with
      | .error s => (refusal s, d)
      | .ok () =>
        if d.online = false then (refusal .deviceNotReady, d)
        else if code = .uart then answer uartReply (acquire .uart uartUsable file d)
        else answer uartReply (.success, d)
  | _, _ => (refusal .invalidDeviceRequest, d)

/-- The device may not go away while a clock has users. -/
def clockQueryRemove (d : Device) : Status :=
  if (d.lease .uart).users ≠ 0 ∨ (d.lease .dma).users ≠ 0 then .deviceBusy else .success

end Device

end Pi5Drivers.Clocks
