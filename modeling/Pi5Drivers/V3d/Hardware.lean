import Pi5Drivers.V3d.Watch

/-! The register sequences of the V3D driver. A register may return any value and
an interrupt may come before any access: both are the choice of a world that the
program asks by the count of what it has asked before. -/

namespace Pi5Drivers.V3d

open Effect

/-! ### The machine -/

inductive Provider
  | graph | openClock | openPm | acquirePm | releasePm | pulse
deriving DecidableEq, Repr

inductive ClockCode
  | acquire | release | setState | setRate
deriving DecidableEq, Repr

/-- What the clock provider returns. -/
structure ClockStatus where
  version : BitVec 32
  id : BitVec 32
  flags : BitVec 32
  maxHz : BitVec 32
  rateHz : BitVec 32

/-- The status codes of the driver, and whatever else a provider returns. -/
inductive Status
  | invalidParameter | insufficientResources | deviceBusy | ioTimeout | deviceHardwareError | dataError
  | notSupported | integerOverflow | accessDenied | deviceNotReady | invalidDeviceState
  | invalidDeviceRequest | deviceConfigurationError | deviceProtocolError
  | other (code : ℕ)
deriving DecidableEq, Repr

/-- What the driver does not decide. The first argument is the time. -/
structure World where
  register : ℕ → Block → ℕ → BitVec 32
  /-- The interrupt status bits raised before an access. -/
  raised : ℕ → Irq → BitVec 32
  provider : ℕ → Provider → Except Status Unit
  clock : ℕ → ClockCode → BitVec 32 → Except Status ClockStatus
  /-- The address of new memory and whether its pages are aligned for the CPU. -/
  allocate : ℕ → ℕ → Option (ℕ × Bool)
  /-- New guard words that are wrong, and new words in the trap page. -/
  damage : ℕ → BitVec 32 × BitVec 32
  /-- How often a waiter wakes before its deadline. -/
  rounds : ℕ → ℕ
  /-- Whether the memory a job wrote is what it should be. -/
  verified : ℕ → Bool

/-- The latches of the engine's queues. -/
structure Io where
  csdIdle : BitVec 32
  renderStart : BitVec 32
  renderEnd : BitVec 32
  binStart : BitVec 32
  binEnd : BitVec 32

structure Machine where
  world : World
  clock : ℕ
  trace : List Event
  irqLive : Irq → Bool
  io : Io

namespace Machine

def note (m : Machine) (e : Event) : Machine := { m with trace := e :: m.trace }

/-- The interrupt routine of one interrupt, if the driver listens to it. -/
def isr (m : Machine) (u : Irq) : Machine :=
  let bits := m.world.raised m.clock u &&& irqs u
  if m.irqLive u = true ∧ bits ≠ 0 then m.note (.interrupt u bits) else m

/-- Time passes, and interrupts may come. -/
def tick (m : Machine) : Machine := { (m.isr .hub).isr .core with clock := m.clock + 1 }

def pending (m : Machine) (u : Irq) : BitVec 32 := recorded u m.trace

end Machine

variable {ε α : Type}

def note (e : Event) : Effect Machine ε Unit := modify (·.note e)

def read (b : Block) (off : ℕ) : Effect Machine ε (BitVec 32) := fun m =>
  let v := m.world.register m.clock b off
  (.ok v, m.tick.note (.read b off v))

def write (b : Block) (off : ℕ) (v : BitVec 32) : Effect Machine ε Unit := modify fun m => m.tick.note (.write b off v)

/-- Looks at the pending word. -/
def inspect (u : Irq) : Effect Machine ε (BitVec 32) := fun m =>
  (.ok (m.tick.pending u), m.tick.note (.inspected u))

/-- Asks the world for something that is neither a register nor a word of memory. -/
def ask (f : World → ℕ → α) : Effect Machine ε α := fun m => (.ok (f m.world m.clock), m.tick)

def io : Effect Machine ε Io := fun m => (.ok m.io, m)

def latch (f : Io → Io) : Effect Machine ε Unit := modify fun m => { m with io := f m.io }

/-! ### Looks at the registers -/

inductive Result
  | timeout | busy | invalid
deriving DecidableEq, Repr

def pollFor (b : Block) (off : ℕ) (mask expected : BitVec 32) : ℕ → Effect Machine Result Unit
  | 0 => stop .timeout
  | n + 1 => do
    let v ← read b off
    if v &&& mask = expected then pure () else pollFor b off mask expected n

def v3dPoll (b : Block) (off : ℕ) (mask expected : BitVec 32) : Effect Machine Result Unit :=
  pollFor b off mask expected 10000

/-- A register of the core has its idle value. -/
def expect (off : ℕ) (value : BitVec 32) : Effect Machine Result Unit := do
  let v ← read .core off
  require (v = value) .busy

/-! ### What they do to the observer -/

/-- The trace is as it should be and the observer remembers `w`. -/
def At (w : Watch) (m : Machine) : Prop := Contained m.trace ∧ watch m.trace = w

/-- What is left of a sequence that failed. -/
def Ill {ε : Type} (_ : ε) (m : Machine) : Prop := Contained m.trace

variable {w : Watch} {E : ε → Machine → Prop}

theorem At.note {m : Machine} {e : Event} (h : At w m) (he : w.Allows e) : At (w.saw m.trace e) (m.note e) := by
  obtain ⟨trace, rfl⟩ := h
  exact ⟨⟨he, trace⟩, rfl⟩

theorem At.isr {m : Machine} (h : At w m) (u : Irq) : At w (m.isr u) := by
  unfold Machine.isr
  dsimp only
  split
  · exact h.note trivial
  · exact h

theorem At.tick {m : Machine} (h : At w m) : At w m.tick := (h.isr .hub).isr .core

theorem At.ill {e : ε} {m : Machine} (h : At w m) : Ill e m := h.1

theorem note_at {e : Event} {w' : Watch} (h : ∀ older, w.saw older e = w') (he : w.Allows e) :
    Triple (At w) (note e) (fun _ => At w') E :=
  Triple.modify fun m hm => h m.trace ▸ hm.note he

theorem read_at (b : Block) (off : ℕ) (h : (b, off) ≠ (.hub, V3D.mmuCtl)) :
    Triple (At w) (read b off) (fun _ => At w) E := by
  intro m hm
  have next := hm.tick.note (e := .read b off (m.world.register m.clock b off)) trivial
  have same : w.saw m.tick.trace (.read b off (m.world.register m.clock b off)) = w := by
    unfold Watch.saw
    split <;> simp_all
  rwa [same] at next

theorem readMmu_at : Triple (At w) (read .hub V3D.mmuCtl) (fun v => At (w.sawMmu v)) E :=
  fun _ hm => hm.tick.note trivial

theorem write_at (b : Block) (off : ℕ) (v : BitVec 32) (h : launch b off = none)
    (quiet : (b, off) ≠ (.hub, V3D.mmuCtl)) :
    Triple (At w) (write b off v) (fun _ => At w) E := by
  refine Triple.modify fun m hm => ?_
  have next := hm.tick.note (e := .write b off v) (by simp [Watch.Allows, h])
  have same : w.saw m.tick.trace (.write b off v) = w := by
    simp only [Watch.saw, h]
    split <;> simp_all
  rwa [same] at next

theorem writeMmu_at (v : BitVec 32) (h : v &&& 1 = 1) :
    Triple (At w) (write .hub V3D.mmuCtl v) (fun _ => At { w with quiet := .running }) E := by
  refine Triple.modify fun m hm => ?_
  have next := hm.tick.note (e := .write .hub V3D.mmuCtl v) (by simp [Watch.Allows, launch])
  rwa [show w.saw m.tick.trace (.write .hub V3D.mmuCtl v) = { w with quiet := .running } from
    if_pos ⟨rfl, rfl, h⟩] at next

theorem launch_at {b : Block} {off : ℕ} {j : Job} (v : BitVec 32) (h : launch b off = some j)
    (allowed : w.faulted = false ∧ w.idle = true) :
    Triple (At w) (write b off v) (fun _ => At (w.launched j)) E := by
  refine Triple.modify fun m hm => ?_
  have next := hm.tick.note (e := .write b off v) (by simp [Watch.Allows, h, allowed])
  rwa [show w.saw m.tick.trace (.write b off v) = w.launched j from by simp [Watch.saw, h]] at next

theorem inspect_at (u : Irq) :
    Triple (At w) (inspect u) (fun v => At { w with seen := Function.update w.seen u (some v) }) E :=
  fun _ hm => hm.tick.note trivial

theorem ask_at (f : World → ℕ → α) : Triple (At w) (ask f) (fun _ => At w) E := fun _ hm => hm.tick

theorem io_at : Triple (At w) io (fun _ => At w) E := fun _ hm => hm

theorem latch_at (f : Io → Io) : Triple (At w) (latch f) (fun _ => At w) E := fun _ hm => hm

theorem pollFor_at (b : Block) (off : ℕ) (mask expected : BitVec 32) (n : ℕ)
    (h : (b, off) ≠ (.hub, V3D.mmuCtl)) :
    Triple (At w) (pollFor b off mask expected n) (fun _ => At w) Ill := by
  induction n with
  | zero => exact Triple.stop fun _ hm => hm.ill
  | succ n ih =>
    exact Triple.bind (read_at b off h) fun v => Triple.ite (fun _ => Triple.pure fun _ hm => hm) fun _ => ih

theorem v3dPoll_at (b : Block) (off : ℕ) (mask expected : BitVec 32)
    (h : (b, off) ≠ (.hub, V3D.mmuCtl)) :
    Triple (At w) (v3dPoll b off mask expected) (fun _ => At w) Ill :=
  pollFor_at b off mask expected _ h

theorem require_at {c : Prop} [Decidable c] {e : ε} : Triple (At w) (require c e) (fun _ => At w) Ill :=
  Triple.require (fun _ hm _ => hm) fun _ hm _ => hm.ill

theorem expect_same (off : ℕ) (value : BitVec 32) : Triple (At w) (expect off value) (fun _ => At w) fun _ => At w :=
  Triple.bind (read_at .core off (by simp)) fun _ => Triple.require (fun _ hm _ => hm) fun _ hm _ => hm

/-! ### The sequences, and what they do to the observer -/

def v3dIdle : Effect Machine Result Unit := do
  let tfu ← read .hub V3D.tfuCs
  require (tfu &&& 1 = 0 ∧ tfu &&& 0x3f00 = 0x2000) .busy
  let io ← io
  expect V3D.csdStatus io.csdIdle
  expect 0x100 0
  expect 0x110 io.binEnd
  expect 0x108 io.binEnd
  expect 0x104 0
  let current ← read .core 0x114
  expect 0x10c current
  expect 0x10c io.renderEnd
  expect 0x160 io.binStart
  expect 0x168 io.binEnd
  expect 0x164 io.renderStart
  expect 0x16c io.renderEnd
  note .idle

/-- An engine that is not idle is only looked at. -/
theorem v3dIdle_same : Triple (At w) v3dIdle (fun _ => At w.sawIdle) fun _ => At w := by
  refine Triple.bind (read_at .hub V3D.tfuCs (by decide)) fun tfu => ?_
  refine Triple.bind (Q := fun _ => At w) (Triple.require (fun _ hm _ => hm) fun _ hm _ => hm) fun _ => ?_
  refine Triple.bind io_at fun io => ?_
  iterate 5 refine Triple.bind (expect_same _ _) fun _ => ?_
  refine Triple.bind (read_at .core 0x114 (by decide)) fun current => ?_
  iterate 6 refine Triple.bind (expect_same _ _) fun _ => ?_
  exact note_at (fun _ => rfl) trivial

theorem v3dIdle_at : Triple (At w) v3dIdle (fun _ => At w.sawIdle) Ill :=
  v3dIdle_same.mono (fun _ hm => hm) (fun _ _ hm => hm) fun _ _ hm => hm.ill

def v3dDrain : Effect Machine Result Unit := do
  v3dIdle
  write .core 0x34 0
  write .core 0x38 0xffffffff
  write .core 0x30 0x100
  v3dPoll .core 0x30 0x100 0
  write .core 0x30 5
  v3dPoll .core 0x30 1 0
  write .hub V3D.gmpConfig 2
  v3dPoll .hub V3D.gmpStatus 0x7f7f0008 0
  note .drained

theorem v3dDrain_at :
    Triple (At w) v3dDrain (fun _ => At { w.sawIdle with quiet := .drained }) Ill := by
  refine Triple.bind v3dIdle_at fun _ => ?_
  iterate 3 refine Triple.bind (write_at _ _ _ (by rfl) (by decide)) fun _ => ?_
  refine Triple.bind (v3dPoll_at .core 0x30 _ _ (by decide)) fun _ => ?_
  refine Triple.bind (write_at _ _ _ (by rfl) (by decide)) fun _ => ?_
  refine Triple.bind (v3dPoll_at .core 0x30 _ _ (by decide)) fun _ => ?_
  refine Triple.bind (write_at _ _ _ (by rfl) (by decide)) fun _ => ?_
  refine Triple.bind (v3dPoll_at .hub V3D.gmpStatus _ _ (by decide)) fun _ => ?_
  exact note_at (fun _ => rfl) trivial

def v3dSmsReset : Effect Machine Result Unit := do
  write .sms 0 4
  v3dPoll .sms 0 15 0
  note .smsReset

theorem v3dSmsReset_at :
    Triple (At w) v3dSmsReset (fun _ => At { w with quiet := if w.quiet = .drained then .reset else w.quiet })
      Ill := by
  refine Triple.bind (write_at _ _ _ (by rfl) (by decide)) fun _ => ?_
  refine Triple.bind (v3dPoll_at .sms 0 _ _ (by decide)) fun _ => ?_
  exact note_at (fun _ => rfl) trivial

def v3dInvalidate : Effect Machine Result Unit := do
  v3dIdle
  write .core 0x34 0
  write .core 0x38 0xffffffff
  write .core 0x30 1
  v3dPoll .core 0x30 1 0
  write .core 0x24 0x0f0f0f0f
  note .invalidated

theorem v3dInvalidate_at : Triple (At w) v3dInvalidate (fun _ => At w.sawIdle.invalidate) Ill := by
  refine Triple.bind v3dIdle_at fun _ => ?_
  iterate 3 refine Triple.bind (write_at _ _ _ (by rfl) (by decide)) fun _ => ?_
  refine Triple.bind (v3dPoll_at .core 0x30 _ _ (by decide)) fun _ => ?_
  refine Triple.bind (write_at _ _ _ (by rfl) (by decide)) fun _ => ?_
  exact note_at (fun _ => rfl) trivial

def mmuOn : BitVec 32 := 0x060d0c03

def v3dMmuFlush : Effect Machine Result Unit := do
  write .hub V3D.mmuc 3
  v3dPoll .hub V3D.mmuc 4 0
  write .hub V3D.mmuCtl (mmuOn ||| 4)
  v3dPoll .hub V3D.mmuCtl 0x80 0
  note .flushed

/-- The unit with its MMU on, and some look at the MMU. -/
def On (w : Watch) (m : Machine) : Prop := ∃ v, At { w with quiet := .running, mmu := v } m

theorem pollMmu_at (mask expected : BitVec 32) (n : ℕ) :
    Triple (On w) (pollFor .hub V3D.mmuCtl mask expected n) (fun _ => On w) Ill := by
  induction n with
  | zero => exact Triple.stop fun _ ⟨_, hm⟩ => hm.ill
  | succ n ih =>
    refine Triple.of_exists fun old => Triple.bind readMmu_at fun v => ?_
    have running : (Watch.sawMmu { w with quiet := .running, mmu := old } v) =
        { w with quiet := .running, mmu := some v } := by simp [Watch.sawMmu]
    rw [running]
    exact Triple.ite (fun _ => Triple.pure fun _ hm => ⟨_, hm⟩) fun _ =>
      ih.mono (fun _ hm => ⟨_, hm⟩) (fun _ _ hm => hm) fun _ _ hm => hm

theorem v3dMmuFlush_at : Triple (At w) v3dMmuFlush (fun _ => On w.flush) Ill := by
  refine Triple.bind (write_at _ _ _ (by rfl) (by decide)) fun _ => ?_
  refine Triple.bind (v3dPoll_at .hub V3D.mmuc _ _ (by decide)) fun _ => ?_
  refine Triple.bind (writeMmu_at _ (by decide)) fun _ => ?_
  refine Triple.bind ((pollMmu_at 0x80 0 10000).mono (fun _ hm => ⟨_, hm⟩) (fun _ _ hm => hm) fun _ _ hm => hm)
    fun _ => ?_
  refine Triple.of_exists fun v => ?_
  have flushed : (Watch.flush { w with quiet := .running, mmu := v }) = { w.flush with quiet := .running, mmu := v } := by
    simp only [Watch.flush, Watch.advance]
    split <;> rfl
  exact (note_at (e := .flushed) (fun _ => flushed) trivial).mono (fun _ hm => hm) (fun _ _ hm => ⟨v, hm⟩) fun _ _ hm => hm

def page : ℕ := 4096

def tableBytes : ℕ := 0x400000

def pteValid : BitVec 32 := 0x10000000

def pteWrite : BitVec 32 := 0x20000000

/-- The table entry of a page, or zero where the page is out of reach. -/
def v3dPte (address : ℕ) (writable : Bool) : BitVec 32 :=
  if address % page ≠ 0 ∨ 2 ^ 36 ≤ address then 0
  else BitVec.ofNat 32 (address / page) ||| pteValid ||| (if writable then pteWrite else 0)

def v3dMmuStart (table trap : ℕ) : Effect Machine Result Unit := do
  require (v3dPte table false ≠ 0 ∧ v3dPte trap false ≠ 0 ∧ table ≤ 2 ^ 36 - tableBytes) .invalid
  write .hub V3D.mmuPt (BitVec.ofNat 32 (table / page))
  write .hub V3D.mmuTrap (BitVec.ofNat 32 (trap / page) ||| 0x80000000)
  write .hub V3D.mmuCtl mmuOn
  v3dMmuFlush

theorem v3dMmuStart_at (table trap : ℕ) : Triple (At w) (v3dMmuStart table trap) (fun _ => On w.flush) Ill := by
  refine Triple.bind require_at fun _ => ?_
  iterate 2 refine Triple.bind (write_at _ _ _ (by rfl) (by decide)) fun _ => ?_
  refine Triple.bind (writeMmu_at _ (by decide)) fun _ => ?_
  refine v3dMmuFlush_at.mono (fun _ hm => hm) (fun _ m hm => ?_) fun _ _ hm => hm
  obtain ⟨v, hm⟩ := hm
  refine ⟨v, ?_⟩
  have : ({ Watch.flush { w with quiet := .running } with quiet := .running, mmu := v } : Watch) =
      { w.flush with quiet := .running, mmu := v } := by
    simp only [Watch.flush, Watch.advance]
    split <;> rfl
  rwa [this] at hm

/-! ### The launches -/

/-- The registers of the transfer unit, the launch last. -/
def v3dSubmitTransferAt (width height source destination sourceStride outputConfig : BitVec 32) :
    Effect Machine ε Unit := do
  write .hub 0x704 0
  write .hub 0x70c source
  write .hub 0x710 0
  write .hub 0x714 sourceStride
  write .hub 0x718 0
  write .hub 0x71c outputConfig
  write .hub 0x720 destination
  write .hub 0x724 (height <<< 16 ||| width)
  write .hub 0x728 0
  write .hub 0x72c 0
  write .hub 0x730 0
  write .hub 0x734 0
  write .hub V3D.tfuIcfg (29 <<< 16 ||| 1)

def v3dSubmitCopyAt (width height source destination : BitVec 32) : Effect Machine ε Unit :=
  v3dSubmitTransferAt width height source destination width (width <<< 16)

def sourceVa : BitVec 32 := 0x10000
def destVa : BitVec 32 := 0x20000
def codeVa : BitVec 32 := 0x30000
def uniformVa : BitVec 32 := 0x40000
def tileVa : BitVec 32 := 0x50000
def tileStateVa : BitVec 32 := 0x60000
def tileBytes : ℕ := 16384
def dataBytes : ℕ := 8192

def v3dSubmitCopy (width height : BitVec 32) : Effect Machine ε Unit := v3dSubmitCopyAt width height sourceVa destVa

def v3dSubmitCompute (revision : BitVec 32) : Effect Machine ε Unit := do
  write .core 0x934 (1 <<< 16)
  write .core 0x938 (1 <<< 16)
  write .core 0x93c 0x110
  write .core 0x940 (if 6 ≤ revision.toNat then 1 else 0)
  write .core 0x944 (codeVa ||| 1)
  write .core 0x948 uniformVa
  write .core 0x94c 0
  write .core 0x930 (1 <<< 16)

def v3dSubmitRenderAt (start finish : BitVec 32) : Effect Machine ε Unit := do
  latch fun io => { io with renderStart := start, renderEnd := finish }
  write .core 0x164 start
  write .core 0x16c finish

def v3dSubmitRender (bytes : BitVec 32) : Effect Machine ε Unit := v3dSubmitRenderAt codeVa (codeVa + bytes)

def v3dSubmitBinAt (start finish tile bytes state : BitVec 32) : Effect Machine ε Unit := do
  latch fun io => { io with binStart := start, binEnd := finish }
  write .core 0x30c 0
  write .core 0x170 tile
  write .core 0x174 bytes
  write .core 0x15c (state ||| 2)
  write .core 0x160 start
  write .core 0x168 finish

/-- The lengths of the built-in command lists of the triangle. -/
def v3dTriangleRclBytes : BitVec 32 := 96

def v3dTriangleBclBytes : BitVec 32 := 86

/-- The length of the list that clears a picture, zero for a picture that does not fit. -/
def v3dBuildClear (width height : BitVec 32) : BitVec 32 :=
  if width = 0 ∨ 64 < width ∨ height = 0 ∨ 32 < height then 0 else 87

def v3dSubmitBin : Effect Machine ε Unit :=
  v3dSubmitBinAt (codeVa + 0x100) (codeVa + 0x100 + v3dTriangleBclBytes) tileVa (BitVec.ofNat 32 tileBytes) tileStateVa

section Launches

variable (allowed : w.faulted = false ∧ w.idle = true)
include allowed

theorem v3dSubmitTransferAt_at (width height source destination sourceStride outputConfig : BitVec 32) :
    Triple (At w) (v3dSubmitTransferAt width height source destination sourceStride outputConfig)
      (fun _ => At (w.launched .transfer)) E := by
  unfold v3dSubmitTransferAt
  iterate 12 refine Triple.bind (write_at _ _ _ (by rfl) (by decide)) fun _ => ?_
  exact launch_at _ rfl allowed

theorem v3dSubmitCompute_at (revision : BitVec 32) :
    Triple (At w) (v3dSubmitCompute revision) (fun _ => At (w.launched .compute)) E := by
  unfold v3dSubmitCompute
  iterate 7 refine Triple.bind (write_at _ _ _ (by rfl) (by decide)) fun _ => ?_
  exact launch_at _ rfl allowed

theorem v3dSubmitRenderAt_at (start finish : BitVec 32) :
    Triple (At w) (v3dSubmitRenderAt start finish) (fun _ => At (w.launched .render)) E := by
  refine Triple.bind (latch_at _) fun _ => ?_
  refine Triple.bind (write_at _ _ _ (by rfl) (by decide)) fun _ => ?_
  exact launch_at _ rfl allowed

theorem v3dSubmitBinAt_at (start finish tile bytes state : BitVec 32) :
    Triple (At w) (v3dSubmitBinAt start finish tile bytes state) (fun _ => At (w.launched .bin)) E := by
  refine Triple.bind (latch_at _) fun _ => ?_
  iterate 5 refine Triple.bind (write_at _ _ _ (by rfl) (by decide)) fun _ => ?_
  exact launch_at _ rfl allowed

end Launches

end Pi5Drivers.V3d
