import Pi5Drivers.Lib.Effect
import Mathlib.Data.Fintype.Basic
import Mathlib.Logic.Function.Basic

/-! What an observer of the V3D driver sees, and what it may see next: the
register accesses, the interrupts the interrupt routine recorded, the checks of
the engine that succeeded, and what the driver did with memory, leases, owners
and fences. -/

namespace Pi5Drivers.V3d

/-- The register blocks of the GPU. -/
inductive Block
  | hub | core | sms
deriving DecidableEq, Repr

/-- The two interrupts. -/
inductive Irq
  | hub | core
deriving DecidableEq, Repr

/-- The buffers every session has. -/
inductive Fixed
  | table | trap | source | destination | code | uniform | tile | tileState
deriving DecidableEq, Repr

/-- The memory of a session. -/
inductive Slot
  | fixed (b : Fixed)
  | object (i : Fin 256)
deriving DecidableEq, Repr

/-- The leases of the session. -/
inductive Lease
  | pm | clock
deriving DecidableEq, Repr

inductive Job
  | transfer | compute | bin | render
deriving DecidableEq, Repr

/-- The three sequences of completed submissions. -/
inductive Series
  | memory | compute | render
deriving DecidableEq, Repr

inductive Event
  | read (block : Block) (off : ℕ) (value : BitVec 32)
  | write (block : Block) (off : ℕ) (value : BitVec 32)
  /-- The interrupt routine added bits to the pending word. -/
  | interrupt (u : Irq) (bits : BitVec 32)
  /-- The pending word was exchanged for zero. -/
  | forgotten (u : Irq)
  /-- The pending word was looked at. -/
  | inspected (u : Irq)
  -- These functions of the hardware returned success.
  | idle | drained | smsReset | pulsed | flushed | invalidated
  /-- Memory was allocated, or the pages of an import were taken. -/
  | allocated (s : Slot)
  /-- Table entries of the buffer, or its address in the unit, were written. -/
  | mapped (s : Slot)
  | cleared (s : Slot)
  /-- Memory was freed, or the pages of an import were given up. -/
  | freed (s : Slot)
  | owner (file : ℕ)
  | released (l : Lease)
  /-- The handle of a new object was given out. -/
  | created (handle : ℕ)
  | fence (r : Series) (job : Job) (n : ℕ)
  | fault
deriving DecidableEq, Repr

namespace V3D

abbrev intSts := 0x50
abbrev intSet := 0x54
abbrev intClr := 0x58
abbrev intMaskSet := 0x60
abbrev intMaskClr := 0x64
abbrev csdStatus := 0x900
abbrev gmpStatus := 0x600
abbrev gmpConfig := 0x604
abbrev tfuCs := 0x700
abbrev tfuIcfg := 0x708
abbrev mmuc := 0x1000
abbrev mmuCtl := 0x1200
abbrev mmuPt := 0x1204
abbrev mmuTrap := 0x1230

end V3D

/-- The write that starts a job. -/
def launch : Block → ℕ → Option Job
  | .hub, 0x708 => some .transfer
  | .core, 0x930 => some .compute
  | .core, 0x168 => some .bin
  | .core, 0x16c => some .render
  | _, _ => none

/-- The bits the interrupt routine keeps. -/
def irqs : Irq → BitVec 32
  | .hub => 0x7a
  | .core => 0x47

/-- The pending word of an interrupt: the bits recorded since it was last exchanged. -/
def recorded (u : Irq) : List Event → BitVec 32
  | [] => 0
  | .interrupt v bits :: older => if v = u then recorded u older ||| bits else recorded u older
  | .forgotten v :: older => if v = u then 0 else recorded u older
  | _ :: older => recorded u older

/-- The pending words after a job that ended well. -/
def Job.done : Job → Irq → BitVec 32
  | .transfer, .hub => 2
  | .transfer, .core => 0
  | .compute, .hub => 0
  | .compute, .core => 0x40
  | .bin, .hub => 0
  | .bin, .core => 2
  | .render, .hub => 0
  | .render, .core => 1

/-- The faults of the MMU in its control register. -/
def mmuFaults : BitVec 32 := 0x08101000

/-- Where a buffer is between its allocation and its end. -/
inductive Life
  | free | held | mapped | cleared | flushed | retired
deriving DecidableEq, Repr

/-- How far the core is on its way to rest. -/
inductive Quiet
  | running | drained | reset | pulsed | idle | off
deriving DecidableEq, Repr

/-- What the observer remembers. -/
structure Watch where
  faulted : Bool
  /-- The engine was seen idle since the last job started. -/
  idle : Bool
  quiet : Quiet
  job : Option Job
  /-- The pending words and the MMU control last seen since the job started. -/
  seen : Irq → Option (BitVec 32)
  mmu : Option (BitVec 32)
  /-- A binning job was not seen to end well before its rendering started. -/
  unproved : Bool
  life : Slot → Life
  /-- The last handle and the last fences that were given out. -/
  handle : ℕ
  fence : Series → ℕ

namespace Watch

def start : Watch where
  faulted := false
  idle := false
  quiet := .running
  job := none
  seen := fun _ => none
  mmu := none
  unproved := false
  life := fun _ => .free
  handle := 0
  fence := fun _ => 0

/-- The interrupts of the last job are exactly its own. -/
def Ended (w : Watch) (j : Job) : Prop :=
  w.job = some j ∧ ∀ u, w.seen u = some (j.done u)

instance (w : Watch) (j : Job) : Decidable (w.Ended j) :=
  decidable_of_iff (w.job = some j ∧ w.seen .hub = some (j.done .hub) ∧ w.seen .core = some (j.done .core))
    ⟨fun h => ⟨h.1, fun u => by cases u; exacts [h.2.1, h.2.2]⟩, fun h => ⟨h.1, h.2 _, h.2 _⟩⟩

/-- The last look at the MMU showed no fault. -/
def Unfaulted (w : Watch) : Prop := ∃ v, w.mmu = some v ∧ v &&& mmuFaults = 0

def sawIdle (w : Watch) : Watch :=
  { w with idle := true, quiet := if w.quiet = .pulsed then .idle else w.quiet }

/-- A look at the MMU after the reset core was seen idle. -/
def sawMmu (w : Watch) (v : BitVec 32) : Watch :=
  { w with mmu := some v, quiet := if w.quiet = .idle ∧ v &&& 1 = 0 then .off else w.quiet }

/-- Every buffer that is in one state goes on to the next. -/
def advance (w : Watch) (a b : Life) : Watch :=
  { w with life := fun s => if w.life s = a then b else w.life s }

/-- The table entries that were zeroed are out of the unit's own memory. -/
def flush (w : Watch) : Watch := if w.idle then w.advance .cleared .flushed else w

def invalidate (w : Watch) : Watch := if w.idle then w.advance .flushed .retired else w

def setLife (w : Watch) (s : Slot) (l : Life) : Watch := { w with life := Function.update w.life s l }

def launched (w : Watch) (j : Job) : Watch :=
  { w with
    idle := false, quiet := .running, job := some j, seen := fun _ => none, mmu := none
    unproved := j = .bin ∨ (w.unproved ∧ ¬w.Ended .bin) }

def saw (older : List Event) (w : Watch) : Event → Watch
  | .read .hub 0x1200 v => w.sawMmu v
  | .read .. => w
  | .write b off v =>
    match launch b off with
    | some j => w.launched j
    | none => if b = .hub ∧ off = V3D.mmuCtl ∧ v &&& 1 = 1 then { w with quiet := .running } else w
  | .interrupt .. => w
  | .forgotten _ => w
  | .inspected u => { w with seen := Function.update w.seen u (some (recorded u older)) }
  | .idle => w.sawIdle
  | .drained => { w with quiet := .drained }
  | .smsReset => { w with quiet := if w.quiet = .drained then .reset else w.quiet }
  | .pulsed => { w with quiet := if w.quiet = .reset then .pulsed else w.quiet }
  | .flushed => w.flush
  | .invalidated => w.invalidate
  | .allocated s => w.setLife s .held
  | .mapped s => w.setLife s .mapped
  | .cleared s => w.setLife s .cleared
  | .freed s => w.setLife s .free
  | .owner _ => w
  | .released _ => w
  | .created h => { w with handle := h }
  | .fence r _ n => { w with fence := Function.update w.fence r n }
  | .fault => { w with faulted := true }

/-- What may happen next. -/
def Allows (w : Watch) : Event → Prop
  | .write b off _ => ∀ j ∈ launch b off, w.faulted = false ∧ w.idle = true
  | .allocated s => w.faulted = false ∧ w.life s = .free
  | .freed s => w.faulted = false ∧ (w.life s = .held ∨ w.life s = .retired ∨ w.quiet = .off)
  | .owner _ => w.faulted = false
  | .released _ => w.faulted = false ∧ ∀ s, w.life s = .free
  | .created h => w.faulted = false ∧ w.handle < h
  | .fence r j n =>
    w.faulted = false ∧ w.Ended j ∧ w.Unfaulted ∧ w.unproved = false ∧ w.fence r < n
  | _ => True

end Watch

/-- What the observer remembers of a trace, the newest event first. -/
def watch : List Event → Watch
  | [] => Watch.start
  | e :: older => (watch older).saw older e

/-- Every event was allowed by what the observer remembered. -/
def Contained : List Event → Prop := Admissible fun older => (watch older).Allows

end Pi5Drivers.V3d
