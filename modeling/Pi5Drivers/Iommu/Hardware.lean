import Mathlib.Data.Fin.VecNotation
import Pi5Drivers.Lib.Observed

/-! The state of the IOMMU driver, the events it leaves behind, and the register
sequences by which the unit is staged, flushed, switched on and off. -/

namespace Pi5Drivers.Iommu

open Effect Recorded

/-! ### Memory and registers -/

def mmuPage : ℕ := 4096
def mmuSlots : ℕ := 16
def mmuMaxPages : ℕ := 16
def mmuSlotPages : ℕ := mmuMaxPages + 2
def mmuIovaBase : ℕ := 0xa00000000
def mmuDmaLimit : ℕ := 0xfffffffff
def mmuPteValid : BitVec 32 := 0x10000000
def mmuPteWrite : BitVec 32 := 0x20000000
def mmuPollLimit : ℕ := 1000
def mmuActiveControl : BitVec 32 := 0x04090803
def mmuFaultFlags : BitVec 32 := 0x08101000

/-- The memory the driver allocates: the tables, the trap page and the buffers of the slots. -/
inductive Memory
  | root | l2 | trap
  | buffer (slot : Fin 16)
deriving DecidableEq, Repr

structure Buffer where
  dma : ℕ
  length : ℕ
  pages : ℕ
  writable : Bool
  mapped : Bool
  token : ℕ
deriving DecidableEq, Repr

/-- What the driver knows of the unit. The registers are those of three units and the cache. -/
structure Hw where
  baseline : Fin 3 → Fin 9 → BitVec 32
  expected : Fin 9 → BitVec 32
  cache : BitVec 32
  staged : Bool
  fault : Bool
  active : Bool
  faultFlags : BitVec 32
  violationAddress : BitVec 32
  hits : BitVec 32
  misses : BitVec 32
  stalls : BitVec 32

/-- The registers of a unit that are watched. -/
def offsets : Fin 9 → ℕ := ![0, 4, 0x14, 0x1c, 0x20, 0x24, 0x30, 0x34, 0x38]

/-- The registers among them that point the unit to its table and its trap page. -/
def tableRegisters : List (Fin 9) := [1, 2, 3, 4, 5, 6]

/-- The status codes of the driver, and what a consumer returns. -/
inductive Status
  | invalidParameter | insufficientResources | deviceBusy | ioTimeout | deviceHardwareError | dataError
  | accessDenied | deviceNotReady | invalidDeviceState | deviceConfigurationError | deviceProtocolError
  | notFound
  | other (code : BitVec 32)
deriving DecidableEq, Repr

structure Driver where
  online : Bool
  bootFault : Bool
  owner : Option ℕ
  hw : Hw
  memory : Memory → Option Buffer
  /-- The words of the second-level table, and the entry of the root that leads to it. -/
  table : ℕ → BitVec 32
  rootEntry : BitVec 32
  nextToken : ℕ
  activeBuffers : ℕ
  executions : ℕ
  lastStatus : Option Status

inductive Callback
  | prepare | transfer | quiesce
deriving DecidableEq, Repr

/-- What the driver does not decide. The first argument is the time. -/
structure World where
  register : ℕ → ℕ → ℕ → BitVec 32
  /-- The address of new memory, and whether its pages are aligned for the CPU. -/
  allocate : ℕ → ℕ → Option (ℕ × Bool)
  /-- Whether the guard pages of a buffer are as they were filled. -/
  intact : ℕ → Fin 16 → Bool
  callback : ℕ → Callback → BitVec 32
  trapWords : ℕ → ℕ

/-- What the driver does. `flushed` is an invalidation of the caches that succeeded. -/
inductive Event
  | read (unit off : ℕ) (v : BitVec 32)
  | write (unit off : ℕ) (v : BitVec 32)
  | store (k : ℕ) (v : BitVec 32)
  | flushed
  | allocated (m : Memory)
  | freed (m : Memory)
  | owner (file : ℕ)
  | fault
deriving DecidableEq, Repr

/-! ### The sequences -/

abbrev Program (ε α : Type) := Effect (Recorded World Driver Event) ε α

inductive Result
  | invalid | busy | timeout | drift | deviceFault
deriving DecidableEq, Repr

abbrev Mmu (α : Type) := Program Result α

variable {ε α : Type}

def read (unit off : ℕ) : Program ε (BitVec 32) := do
  let v ← ask fun w t => w.register t unit off
  record (.read unit off v)
  pure v

def write (unit off : ℕ) (v : BitVec 32) : Program ε Unit := record (.write unit off v)

/-- A word of the second-level table. -/
def store (k : ℕ) (v : BitVec 32) : Program ε Unit := do
  record (.store k v)
  change fun d => { d with table := Function.update d.table k v }

def setHw (f : Hw → Hw) : Program ε Unit := change fun d => { d with hw := f d.hw }

/-- The fault is latched. -/
def fault (r : Result) : Mmu α := do
  setHw fun h => { h with fault := true }
  stop r

/-- Faults unless the condition holds. -/
def demand (c : Prop) [Decidable c] (r : Result) : Mmu Unit := if c then pure () else fault r

def Address (dma pages : ℕ) : Prop :=
  pages ≠ 0 ∧ pages ≤ mmuMaxPages ∧ dma % mmuPage = 0 ∧ dma ≤ mmuDmaLimit ∧ pages * mmuPage - 1 ≤ mmuDmaLimit - dma

instance (dma pages : ℕ) : Decidable (Address dma pages) := inferInstanceAs (Decidable (_ ∧ _))

/-- The value a watched register should have. -/
def Hw.wanted (h : Hw) (i : Fin 3) (j : Fin 9) : BitVec 32 := if i = 1 then h.expected j else h.baseline i j

def agree (i : Fin 3) (j : Fin 9) (v : BitVec 32) : Mmu Unit := do
  let found ← read i (offsets j)
  demand (found = v) .drift

def mmuCheck : Mmu Unit := do
  let d ← look
  require (d.hw.fault = false) .drift
  require (d.hw.staged = true) .invalid
  require (d.hw.active = false) .busy
  each (fun i => each (fun j => agree i j (d.hw.wanted i j)) (List.finRange 9)) [0, 1, 2]
  let cache ← read 3 0
  demand (cache = d.hw.cache) .drift

def pollFor (unit : ℕ) (mask : BitVec 32) : ℕ → Mmu Unit
  | 0 => fault .timeout
  | n + 1 => do
    let v ← read unit 0
    if v &&& mask = 0 then pure () else pollFor unit mask n

def poll (unit : ℕ) (mask : BitVec 32) : Mmu Unit := pollFor unit mask mmuPollLimit

def mmuInvalidate : Mmu Unit := do
  let d ← look
  mmuCheck
  write 3 0 (d.hw.cache ||| 3)
  poll 3 4
  write 3 0 d.hw.cache
  write 1 0 4
  poll 1 0x80
  write 1 0 0
  mmuCheck
  record .flushed

/-- The registers of a unit as they were found; the unit must be off. -/
def saveUnit (i : Fin 3) : Mmu Unit := do
  each (fun j => do
    let v ← read i (offsets j)
    setHw fun h => { h with baseline := Function.update h.baseline i (Function.update (h.baseline i) j v) })
    (List.finRange 9)
  let d ← look
  require (d.hw.baseline i 0 = 0) .busy

/-- The unit is one the driver knows. -/
def Supported (debug : BitVec 32) : Prop :=
  4 ≤ (debug &&& 15).toNat ∧ 6 ≤ (debug >>> 4 &&& 15).toNat ∧ 6 ≤ (debug >>> 8 &&& 15).toNat ∧ debug &&& 0x20000000 ≠ 0

instance (debug : BitVec 32) : Decidable (Supported debug) := inferInstanceAs (Decidable (_ ∧ _))

/-- The registers with which the unit translates through the table. -/
def Hw.installed (h : Hw) (table trap : ℕ) : Fin 9 → BitVec 32 := ![
  h.expected 0,
  BitVec.ofNat 32 (table / 2 ^ 12) - BitVec.ofNat 32 (mmuIovaBase / 2 ^ 32),
  0x80000000 ||| BitVec.ofNat 32 (mmuIovaBase / 2 ^ 28),
  0,
  0x80000000 ||| BitVec.ofNat 32 (mmuIovaBase / 2 ^ (if h.baseline 1 8 &&& 0x10000000 ≠ 0 then 22 else 28)),
  h.expected 5 &&& ~~~0x80000000,
  0x80000000 ||| BitVec.ofNat 32 (trap / 2 ^ 12),
  h.expected 7,
  h.expected 8]

/-- A table register gets the value it should have. -/
def install (j : Fin 9) : Mmu Unit := do
  let d ← look
  write 1 (offsets j) (d.hw.expected j)

def mmuBegin (table trap : ℕ) : Mmu Unit := do
  let d ← look
  require (d.hw.staged = false ∧ d.hw.fault = false) .busy
  require (Address table 1 ∧ Address trap 1 ∧ mmuIovaBase / 2 ^ 20 ≤ table) .invalid
  each saveUnit [0, 1, 2]
  let d ← look
  require (Supported (d.hw.baseline 1 8)) .invalid
  let cache ← read 3 0
  setHw fun h => { h with cache := cache }
  require (cache &&& 6 = 0) .busy
  setHw fun h => { h with expected := h.baseline 1, staged := true }
  mmuCheck.mapError fun _ => .drift
  setHw fun h => { h with expected := h.installed table trap }
  each install tableRegisters
  mmuInvalidate

/-- A table register gets the value it was found with. -/
def restore (j : Fin 9) : Mmu Unit := do
  setHw fun h => { h with expected := Function.update h.expected j (h.baseline 1 j) }
  install j

def mmuEnd : Mmu Unit := do
  mmuInvalidate
  each restore tableRegisters
  mmuInvalidate
  setHw fun h => { h with staged := false }

def mmuActivate : Mmu Unit := do
  mmuInvalidate
  let d ← look
  write 3 0 (d.hw.cache ||| 1)
  setHw fun h => { h with active := true }
  write 1 0 mmuActiveControl
  let cache ← read 3 0
  demand (cache = d.hw.cache ||| 1) .drift
  let control ← read 1 0
  demand (control = mmuActiveControl) .drift

/-- The unit tells what it saw while it was on. -/
def snapFaults : Mmu Unit := do
  let control ← read 1 0
  let violation ← read 1 0x34
  let hits ← read 1 8
  let misses ← read 1 12
  let stalls ← read 1 16
  setHw fun h =>
    { h with
      faultFlags := control &&& mmuFaultFlags, violationAddress := violation
      hits := hits, misses := misses, stalls := stalls }

/-- The control register, and after a fault the violation address, are not compared. -/
def Skipped (h : Hw) (i : Fin 3) (j : Fin 9) : Prop := i = 1 ∧ (j = 0 ∨ (j = 7 ∧ h.faultFlags ≠ 0))

instance (h : Hw) (i : Fin 3) (j : Fin 9) : Decidable (Skipped h i j) := inferInstanceAs (Decidable (_ ∧ _))

def mmuDeactivate (quiesced : Bool) : Mmu Unit := do
  let d ← look
  require (d.hw.active = true) .invalid
  snapFaults
  demand (quiesced = true) .busy
  let d ← look
  require (d.hw.fault = false) .drift
  let control ← read 1 0
  demand (control &&& ~~~mmuFaultFlags = mmuActiveControl) .drift
  let cache ← read 3 0
  demand (cache = d.hw.cache ||| 1) .drift
  each (fun i => each (fun j => when (¬Skipped d.hw i j) (agree i j (d.hw.wanted i j))) (List.finRange 9)) [0, 1, 2]
  write 1 0 0
  let control ← read 1 0
  demand (control = d.hw.faultFlags) .drift
  setHw fun h => { h with active := false }
  write 3 0 d.hw.cache
  let cache ← read 3 0
  demand (cache = d.hw.cache) .drift
  demand (d.hw.faultFlags = 0) .deviceFault
  mmuInvalidate

/-! ### The second-level table -/

def pte (dma i : ℕ) (writable : Bool) : BitVec 32 :=
  BitVec.ofNat 32 (dma / 2 ^ 12 + i) ||| mmuPteValid ||| (if writable then mmuPteWrite else 0)

/-- The first entry of a slot. -/
def first (slot : Fin 16) : ℕ := slot * mmuSlotPages

def mmuMap (slot : Fin 16) (dma pages : ℕ) (writable : Bool) : Mmu Unit := do
  require (Address dma pages) .invalid
  let d ← look
  require (∀ i < mmuSlotPages, d.table (first slot + i) = 0) .busy
  each (fun i => store (first slot + 1 + i) (pte dma i writable)) (List.range pages)

def mmuUnmap (slot : Fin 16) (pages : ℕ) : Mmu Unit := do
  require (pages ≠ 0 ∧ pages ≤ mmuMaxPages) .invalid
  let d ← look
  require (d.table (first slot) = 0) .drift
  require (∀ i < pages, d.table (first slot + 1 + i) &&& mmuPteValid ≠ 0) .drift
  require (∀ i < mmuSlotPages, pages < i → d.table (first slot + i) = 0) .drift
  each (fun i => store (first slot + 1 + i) 0) (List.range pages)

/-- Where an address of the aperture leads. -/
def mmuWalk (table : ℕ → BitVec 32) (iova : ℕ) (write : Bool) : Except Result ℕ :=
  if iova < mmuIovaBase ∨ mmuPage * 1024 ≤ iova - mmuIovaBase then .error .invalid
  else
    let entry := table ((iova - mmuIovaBase) / 2 ^ 12)
    if entry &&& mmuPteValid = 0 ∨ (write = true ∧ entry &&& mmuPteWrite = 0) then .error .invalid
    else .ok ((entry &&& 0x0fffffff).toNat * 2 ^ 12 + iova % mmuPage)

end Pi5Drivers.Iommu
