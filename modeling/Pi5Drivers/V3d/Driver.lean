import Pi5Drivers.V3d.Space
import Pi5Drivers.Texture.Provider

/-! The V3D driver: the functions behind its requests. Each runs under the lock of
the device, so a request is one step; only interrupts come in between. -/

namespace Pi5Drivers.V3d

open Effect

/-! ### The state -/

/-- What `Snapshot` reads that the driver looks at later. -/
structure Idents where
  smsTee : BitVec 32
  hubIdent : ℕ → BitVec 32
  coreIdent : ℕ → BitVec 32
  techVersion : BitVec 32
  ipRevision : BitVec 32
  paBits : BitVec 32
  vaBits : BitVec 32

structure Driver where
  online : Bool
  bootFault : Bool
  owner : Option ℕ
  clockOpen : Bool
  pmOpen : Bool
  clockLease : Bool
  pmLease : Bool
  powered : Bool
  claimed : Bool
  woke : Bool
  memorySession : Bool
  guardsClean : Bool
  fixed : Fixed → Option Buffer
  space : AddressSpace
  tableDma : ℕ
  memorySubmitted : ℕ
  memoryCompleted : ℕ
  computeSubmitted : ℕ
  computeCompleted : ℕ
  renderSubmitted : ℕ
  renderCompleted : ℕ
  guardFailures : BitVec 32
  scratchWrites : BitVec 32
  idents : Idents
  lastStatus : Option Status

structure Context where
  machine : Machine
  driver : Driver

abbrev Drive (α : Type) := Effect Context Status α

variable {α : Type}

def driver : Drive Driver := fun c => (.ok c.driver, c)

def set (f : Driver → Driver) : Drive Unit := modify fun c => { c with driver := f c.driver }

def Hw : Result → Status
  | .timeout => .ioTimeout
  | .busy => .deviceBusy
  | .invalid => .invalidParameter

/-- Works on the machine. -/
def on (x : Effect Machine Status α) : Drive α :=
  x.zoom Context.machine fun m c => { c with machine := m }

def hw (x : Effect Machine Result α) : Drive α := on (x.mapError Hw)

/-- Records the fault for good. -/
def fault (s : Status) : Drive α := do
  set fun d => { d with bootFault := true, lastStatus := some s }
  on (note .fault)
  stop s

/-- Any failure here is a fault. -/
def contain (x : Drive α) : Drive α := x.orElse fault

/-! ### Providers and registers -/

def provider (p : Provider) : Drive Unit := do
  let r ← on (ask fun w t => w.provider t p)
  ofExcept r

/-- A request of the clock provider, with its answer checked. -/
def clockRequest (code : ClockCode) (value : BitVec 32) : Drive ClockStatus := do
  let r ← on (ask fun w t => w.clock t code value)
  let out ← ofExcept r
  require (out.version = 1 ∧ out.id = 5 ∧ out.flags &&& 1 = 0) .deviceProtocolError
  pure out

/-- A clock that is switched on also goes to its highest rate. -/
def clock (code : ClockCode) (value : BitVec 32) : Drive Unit := do
  let out ← clockRequest code value
  when (code = .setState ∧ value ≠ 0 ∧ out.rateHz < out.maxHz) do
    let _ ← clockRequest .setRate out.maxHz
    pure ()

def pulse : Drive Unit := do
  provider .pulse
  on (note .pulsed)

def identify (status : Idents) (hub core : ℕ → BitVec 32) (mmuInfo : BitVec 32) : Idents where
  smsTee := status.smsTee
  hubIdent := hub
  coreIdent := core
  techVersion := (hub 1 &&& 15) * 10 + ((hub 1 >>> 4) &&& 15)
  ipRevision := (hub 3 >>> 8) &&& 255
  paBits := 30 + ((mmuInfo >>> 8) &&& 15)
  vaBits := 30 + ((mmuInfo >>> 4) &&& 15)

/-- The values of a few words. -/
def words (values : List (BitVec 32)) (i : ℕ) : BitVec 32 := values.getD i 0

/-- The rest of a snapshot, once the core can be read. -/
def snapshotCore : Drive Unit := do
  let h0 ← on (read .hub 8)
  let h1 ← on (read .hub 12)
  let h2 ← on (read .hub 16)
  let h3 ← on (read .hub 20)
  let c0 ← on (read .core 0)
  let c1 ← on (read .core 4)
  let c2 ← on (read .core 8)
  let mmuInfo ← on (read .hub 0x1238)
  set fun d => { d with idents := identify d.idents (words [h0, h1, h2, h3]) (words [c0, c1, c2]) mmuInfo }
  let _ ← on (read .hub V3D.tfuCs)
  let _ ← on (read .core V3D.csdStatus)
  let _ ← on (read .core 0x100)
  let _ ← on (read .core 0x104)
  let _ ← on (read .hub V3D.gmpStatus)
  let _ ← on (read .hub V3D.mmuCtl)
  let _ ← on (read .hub V3D.mmuc)
  let _ ← on (read .hub 0x122c)
  let _ ← on (read .hub 0x1234)
  let _ ← on (read .hub 0x1208)
  let _ ← on (read .hub 0x120c)
  pure ()

def snapshot : Drive Unit := do
  let d ← driver
  when d.powered do
    let _ ← on (read .sms 0)
    let smsTee ← on (read .sms 0x400)
    set fun d => { d with idents := { d.idents with smsTee := smsTee } }
    when (smsTee &&& 15 = 0) snapshotCore

/-! ### Memory -/

def Driver.buffer (d : Driver) : Slot → Option Buffer
  | .fixed b => d.fixed b
  | .object i => (d.space.objects i).buffer

def Driver.setBuffer (d : Driver) (s : Slot) (b : Option Buffer) : Driver :=
  match s with
  | .fixed f => { d with fixed := Function.update d.fixed f b }
  | .object i =>
    { d with
      space := { d.space with
        objects := Function.update d.space.objects i { d.space.objects i with buffer := b } } }

def freeBuffer (s : Slot) : Drive Unit := do
  set fun d => { d with guardsClean := false }
  let d ← driver
  when (d.buffer s).isSome do
    on (note (.freed s))
    set fun d => d.setBuffer s none

/-- Memory for a buffer and its two guard pages. -/
def allocate (s : Slot) (bytes : ℕ) : Drive Unit := do
  set fun d => { d with guardsClean := false }
  let r ← on (ask fun w t => w.allocate t (bytes + 2 * page))
  match r with
  | none => stop .insufficientResources
  | some (dma, aligned) => do
    on (note (.allocated s))
    set fun d => d.setBuffer s (some ⟨dma, bytes + 2 * page⟩)
    when (dma % page ≠ 0 ∨ aligned = false ∨ 2 ^ 36 - (bytes + 2 * page) < dma) do
      freeBuffer s
      stop .deviceConfigurationError

/-- Notes what happens to a buffer, if it is there. -/
def mark (e : Slot → Event) (s : Slot) : Drive Unit := do
  let d ← driver
  when (d.buffer s).isSome (on (note (e s)))

/-- The scan of the guard words, unless nothing can have changed them. -/
def guards : Drive Unit := do
  let d ← driver
  when (d.guardsClean = false) do
    let found ← on (ask fun w t => w.damage t)
    set fun d =>
      { d with guardFailures := d.guardFailures + found.1, scratchWrites := d.scratchWrites + found.2 }
    let d ← driver
    require (d.guardFailures = 0 ∧ d.scratchWrites = 0) .dataError
    set fun d => { d with guardsClean := true }

/-! ### Interrupts -/

def maskOne (u : Irq) (b : Block) (enable : Bool) : Drive Unit := do
  on (write b V3D.intMaskSet 0xffffffff)
  on (modify fun m => { m with irqLive := Function.update m.irqLive u enable })
  when (enable = true) do
    on (write b V3D.intClr 0xffffffff)
    on (write b V3D.intMaskClr (irqs u))

def mask (enable : Bool) : Drive Unit := do
  maskOne .hub .hub enable
  maskOne .core .core enable

/-- Both pending words are exchanged for zero. -/
def forget : Drive Unit := do
  on (note (.forgotten .hub))
  on (note (.forgotten .core))

def arm : Drive Unit := do
  set fun d => { d with guardsClean := d.guardsClean && d.memorySession }
  mask false
  forget
  mask true

/-- No sign of a fault, in the pending words or the MMU. -/
def faultless : Effect Machine Status Unit := do
  let hub ← inspect .hub
  require (hub &&& 0x78 = 0) .deviceHardwareError
  let core ← inspect .core
  require (core &&& 4 = 0) .deviceHardwareError
  let mmu ← read .hub V3D.mmuCtl
  require (mmu &&& mmuFaults = 0) .deviceHardwareError

def arrived (hub core : BitVec 32) : Effect Machine Status Bool := do
  let p ← inspect .hub
  if p &&& hub = hub then do
    let q ← inspect .core
    pure (q &&& core = core)
  else pure false

/-- Looks for the interrupts, and again after each time the waiter wakes before its deadline. -/
def waitFor (hub core : BitVec 32) : ℕ → Effect Machine Status Unit
  | 0 => do
    faultless
    let there ← arrived hub core
    require (there = true) .ioTimeout
  | n + 1 => do
    faultless
    let there ← arrived hub core
    if there = true then pure () else waitFor hub core n

def wait (hub core : BitVec 32) : Effect Machine Status Unit := do
  let rounds ← ask fun w t => w.rounds t
  waitFor hub core rounds

/-- A wait that failed leaves the interrupts masked. -/
def settle (s : Except Status Unit) : Drive Unit :=
  match s with
  | .ok _ => pure ()
  | .error e => do
    mask false
    fault e

/-- The pending words are exactly the job's. -/
def exact (j : Job) : Effect Machine Status Unit := do
  let hub ← inspect .hub
  require (hub = j.done .hub) .deviceHardwareError
  let core ← inspect .core
  require (core = j.done .core) .deviceHardwareError

/-- The MMU shows no fault. -/
def mmuFine : Effect Machine Status Unit := do
  let mmu ← read .hub V3D.mmuCtl
  require (mmu &&& mmuFaults = 0) .deviceHardwareError

/-! ### Sessions -/

def clearLatches : Effect Machine Status Unit := latch fun _ => ⟨0, 0, 0, 0, 0⟩

/-- The way to a core that is reset and at rest. -/
def quiesce : Drive Unit := do
  mask false
  contain (hw v3dDrain)
  contain (hw v3dSmsReset)
  contain pulse
  on clearLatches

/-- The reset core is idle and its MMU off. -/
def atRest : Drive Unit := do
  (hw v3dIdle).orElse fun _ => stop .deviceHardwareError
  let mmu ← on (read .hub V3D.mmuCtl)
  require (mmu &&& 1 = 0) .deviceHardwareError

def Driver.trapDma (d : Driver) : ℕ := ((d.fixed .trap).elim 0 Buffer.dma) + page

def reset : Drive Unit := do
  set fun d => { d with guardsClean := false }
  quiesce
  contain atRest
  on (write .core 0x34 0)
  on (write .core 0x38 0xffffffff)
  let d ← driver
  when (d.fixed .table).isSome do
    mark .mapped (.fixed .table)
    mark .mapped (.fixed .trap)
    contain (hw (v3dMmuStart d.tableDma d.trapDma))
  forget
  mask true

def dropProviders : Drive Unit := do
  let d ← driver
  when (d.pmLease = true) do
    on (note (.released .pm))
    contain (provider .releasePm)
    set fun d => { d with pmLease := false }
  when (d.clockLease = true) do
    on (note (.released .clock))
    contain (clock .release 0)
    set fun d => { d with clockLease := false }
  set fun d => { d with pmOpen := false, clockOpen := false, owner := none }

/-- The registers of the MMU are back at their reset values. -/
def unmapped : Drive Unit := do
  let table ← on (read .hub V3D.mmuPt)
  require (table = 0) .deviceHardwareError
  let trap ← on (read .hub V3D.mmuTrap)
  require (trap = 0) .deviceHardwareError

def Driver.emptied (d : Driver) (i : Fin 256) : Driver :=
  { d with space := { d.space with objects := Function.update d.space.objects i Object.empty } }

/-- An object gives up its memory and its slot. -/
def dropObject (i : Fin 256) : Drive Unit := do
  freeBuffer (.object i)
  let d ← driver
  when (d.space.objects i).importedMdl.isSome (on (note (.freed (.object i))))
  set fun d => d.emptied i

/-- The order in which a session frees its buffers. -/
def lastBuffers : List Fixed := [.tileState, .tile, .uniform, .code, .destination, .source, .trap, .table]

/-- A claimed core goes to rest before its memory does. -/
def retire : Drive Unit := do
  quiesce
  contain do
    atRest
    unmapped
  mask false
  contain guards
  set fun d => { d with claimed := false }

def sleep : Drive Unit := do
  on (write .sms 0x400 (1 <<< 30))
  contain (hw (v3dPoll .sms 0x400 15 13))
  set fun d => { d with woke := false }

def finish : Drive Unit := do
  set fun d => { d with guardsClean := false }
  let d ← driver
  require (d.bootFault = false) .deviceHardwareError
  when (d.claimed = true) retire
  snapshot
  let d ← driver
  when (d.woke = true) sleep
  snapshot
  set fun d => { d with powered := false }
  each dropObject slots
  set fun d =>
    { d with space := { d.space with objectBytes := 0, importedBytes := 0 }, memorySession := false }
  each (fun b => freeBuffer (.fixed b)) lastBuffers
  dropProviders

/-- Wakes a core that the firmware left asleep. -/
def wake : Drive Unit := do
  set fun d => { d with woke := true }
  on (write .sms 0x400 (1 <<< 29))
  contain (hw (v3dPoll .sms 0x400 15 0))

/-- The GPU is the one this driver is for. -/
def Idents.Supported (s : Idents) : Prop :=
  s.techVersion = 71 ∧ (s.hubIdent 1 >>> 8) &&& 15 = 1 ∧ s.hubIdent 0 = 0x42554856 ∧
    s.coreIdent 0 &&& 0xffffff = 0x443356 ∧ s.hubIdent 2 &&& 0x100 ≠ 0 ∧
      s.paBits = 36 ∧ 32 ≤ s.vaBits ∧ s.vaBits ≤ 36

instance (s : Idents) : Decidable s.Supported := inferInstanceAs (Decidable (_ ∧ _))

def openTarget (p : Provider) (already : Bool) : Drive Unit := when (already = false) (provider p)

/-- Leases, power and a look at the core before the driver claims it. -/
def acquire (file : ℕ) : Drive Unit := do
  set fun d => { d with owner := some file }
  on (note (.owner file))
  provider .graph
  let d ← driver
  openTarget .openClock d.clockOpen
  set fun d => { d with clockOpen := true }
  openTarget .openPm d.pmOpen
  set fun d => { d with pmOpen := true }
  clock .acquire 0
  set fun d => { d with clockLease := true }
  provider .acquirePm
  set fun d => { d with pmLease := true }
  clock .setState 1
  set fun d => { d with powered := true }
  let sms ← on (read .sms 0x400)
  require (sms &&& 0x100000f0 = 0x50) .deviceBusy
  let ree ← on (read .sms 0)
  require (ree &&& 0x100000f0 = 0) .deviceBusy
  require (sms &&& 15 = 0 ∨ sms &&& 15 = 13) .deviceBusy
  when (sms &&& 15 = 13) wake
  snapshot
  let d ← driver
  require d.idents.Supported .notSupported
  hw v3dIdle
  let mmu ← on (read .hub V3D.mmuCtl)
  require (mmu &&& 1 = 0) .deviceBusy
  let gmp ← on (read .hub V3D.gmpStatus)
  require (gmp &&& 0x7f7f0008 = 0) .deviceBusy
  let config ← on (read .hub V3D.gmpConfig)
  require (config &&& 1 = 0) .deviceBusy

/-- The buffers of a session in the order they are allocated. -/
def firstBuffers : List (Fixed × ℕ) :=
  [(.table, tableBytes), (.trap, page), (.source, dataBytes), (.destination, dataBytes), (.code, page),
    (.uniform, page), (.tile, tileBytes), (.tileState, page)]

/-- The address of the payload of a buffer. -/
def Driver.payload (d : Driver) (b : Fixed) : ℕ := (d.fixed b).elim 0 Buffer.dma + page

/-- The entries of a fixed buffer at its address. -/
def mapFixed (b : Fixed) (va : BitVec 32) (bytes : ℕ) (writable : Bool) : Drive Unit := do
  mark .mapped (.fixed b)
  set fun d =>
    { d with
      space := { d.space with
        table := AddressSpace.setEntries d.space.table (va.toNat / page) (bytes / page) fun k =>
          v3dPte (d.payload b + k * page) writable } }

def mapAll : Drive Unit := do
  mapFixed .code codeVa page false
  mapFixed .uniform uniformVa page false
  mapFixed .tileState tileStateVa page true
  mapFixed .tile tileVa tileBytes true
  mapFixed .source sourceVa dataBytes false
  mapFixed .destination destVa dataBytes true

/-- A new table is all zero. -/
def clearTable : Drive Unit := set fun d => { d with space := { d.space with table := fun _ => 0 } }

def establish : Drive Unit := do
  set fun d => { d with claimed := true }
  each (fun b => allocate (.fixed b.1) b.2) firstBuffers
  clearTable
  set fun d => { d with tableDma := d.payload .table }
  mapAll
  reset
  snapshot

def begin (file : ℕ) : Drive Unit := do
  let d ← driver
  require (d.bootFault = false) .deviceHardwareError
  require (d.owner = none) .deviceBusy
  let attempted : Drive Unit := do
    acquire file
    establish
  attempted.orElse fun s => do
    set fun d => { d with lastStatus := some s }
    let d ← driver
    when (d.bootFault = false) finish
    stop s

def memoryBegin (file : ℕ) : Drive Unit := do
  begin file
  contain (hw v3dDrain)
  each (fun b => mark .cleared (.fixed b)) [.code, .uniform, .tileState, .tile, .source, .destination]
  clearTable
  contain (hw v3dMmuFlush)
  set fun d => { d with memorySession := true }

end Pi5Drivers.V3d
