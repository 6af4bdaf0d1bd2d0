import Pi5Drivers.V3d.Mapping

/-! The requests of a memory session once more, over the words of memory. A scan finds what is there, the
CPU writes what the driver writes, and a job writes through the page table. A write that the table does
not permit goes to the trap page, and from the end of the job on the MMU shows a fault. -/

namespace Pi5Drivers.V3d

open Effect AddressSpace

/-- The words of memory, by address divided by four. -/
abbrev Words := ℕ → BitVec 32

def guard : BitVec 32 := 0xbadc0ffe

/-- `Cpu[i]`. -/
def Buffer.word (b : Buffer) (i : ℕ) : ℕ := b.dma / 4 + i

/-- The first word of the last page, counted from the start of the buffer. -/
def Buffer.tail (b : Buffer) : ℕ := (b.bytes - page) / 4

def Words.store (m : Words) (first count : ℕ) (value : ℕ → BitVec 32) : Words := fun w =>
  if first ≤ w ∧ w < first + count then value (w - first) else m w

/-- What the CPU writes to a new buffer. -/
def Buffer.fresh (b : Buffer) (i : ℕ) : BitVec 32 := if i < 1024 ∨ b.tail ≤ i then guard else 0

/-- The pairs of guard words of which one is wrong. -/
def Buffer.damaged (b : Buffer) (m : Words) : ℕ :=
  (List.range 1024).countP fun j => m (b.word j) ≠ guard ∨ m (b.word (b.tail + j)) ≠ guard

/-- The words of the trap page that were written. -/
def Buffer.scratched (b : Buffer) (m : Words) : ℕ := (List.range' 1024 1024).countP fun j => m (b.word j) ≠ 0

def everySlot : List Slot :=
  [.table, .trap, .source, .destination, .code, .uniform, .tile, .tileState].map Slot.fixed ++ slots.map Slot.object

/-- What a scan of all buffers finds. -/
def Driver.scan (d : Driver) (m : Words) : ℕ × ℕ :=
  (((everySlot.filterMap d.buffer).map (·.damaged m)).sum, (d.fixed .trap).elim 0 (·.scratched m))

/-- The word of memory that the GPU reaches by a word of its address space, if it may write there. -/
def AddressSpace.reaches (a : AddressSpace) (w : ℕ) : Option ℕ :=
  if a.table (w / 1024) &&& pteValid ≠ 0 ∧ a.table (w / 1024) &&& pteWrite ≠ 0 then some (a.target (w / 1024) / 4 + w % 1024)
  else none

/-- What is decided outside of the driver. -/
structure Platform where
  /-- The words a job writes, by the time of its launch. -/
  writes : ℕ → List (ℕ × BitVec 32)
  /-- What the MMU shows after a write that went to the trap page. -/
  fault : ℕ → BitVec 32
  shown : ∀ t, fault t &&& mmuFaults ≠ 0
  /-- The pages of which common buffers are made. -/
  common : ℕ → Bool

/-- A scan that was left out: what it would have found, and the counters. -/
structure Skip where
  found : ℕ × ℕ
  guardFailures : BitVec 32
  scratchWrites : BitVec 32

structure Physical where
  platform : Platform
  memory : Words
  /-- A write has gone to the trap page. -/
  trapped : Bool
  skipped : List Skip

/-- A write of the GPU. -/
def Physical.write (d : Driver) (p : Physical) (x : ℕ × BitVec 32) : Physical :=
  match d.space.reaches x.1 with
  | some w => { p with memory := Function.update p.memory w x.2 }
  | none => { p with memory := Function.update p.memory (d.trapDma / 4 + x.1 % 1024) x.2, trapped := true }

namespace Paged

structure Context where
  base : V3d.Context
  physical : Physical

abbrev Drive (α : Type) := Effect Context Status α

variable {α : Type}

/-- Works on the driver and its machine, and leaves memory alone. -/
def base (x : V3d.Drive α) : Drive α := x.zoom Context.base fun b c => { c with base := b }

def driver : Drive Driver := fun c => (.ok c.base.driver, c)

def physical : Drive Physical := fun c => (.ok c.physical, c)

def change (f : Physical → Physical) : Drive Unit := modify fun c => { c with physical := f c.physical }

def contain (x : Drive α) : Drive α := x.orElse fun s => base (fault s)

def hw (x : Effect Machine Result α) : Drive α := base (V3d.contain (V3d.hw x))

/-! ### Memory -/

/-- Memory that is free: no buffer has it, and buffers are made of it. -/
def unused (d : Driver) (p : Platform) (dma bytes : ℕ) : Bool :=
  (everySlot.filterMap d.buffer).all (fun b => dma + bytes ≤ b.dma ∨ b.dma + b.bytes ≤ dma) &&
    (List.range (bytes / page)).all fun k => p.common (dma / page + k)

def allocate (s : Slot) (bytes : ℕ) : Drive Unit := do
  base (set fun d => { d with guardsClean := false })
  let r ← base (on (ask fun w t => w.allocate t (bytes + 2 * page)))
  let d ← driver
  let p ← physical
  match r.filter fun x => unused d p.platform x.1 (bytes + 2 * page) with
  | none => stop .insufficientResources
  | some (dma, aligned) => do
    let b : Buffer := ⟨dma, bytes + 2 * page⟩
    base (set fun d => d.setBuffer s (some b))
    if dma % page ≠ 0 ∨ aligned = false ∨ 2 ^ 36 - (bytes + 2 * page) < dma then do
      base (freeBuffer s)
      stop .deviceConfigurationError
    else change fun p => { p with memory := p.memory.store (b.word 0) (b.bytes / 4) b.fresh }

def guards : Drive Unit := do
  let d ← driver
  let p ← physical
  let found := d.scan p.memory
  if d.guardsClean = true then
    change fun p => { p with skipped := ⟨found, d.guardFailures, d.scratchWrites⟩ :: p.skipped }
  else do
    base (set fun d =>
      { d with
        guardFailures := d.guardFailures + BitVec.ofNat 32 found.1
        scratchWrites := d.scratchWrites + BitVec.ofNat 32 found.2 })
    let d ← driver
    require (d.guardFailures = 0 ∧ d.scratchWrites = 0) .dataError
    base (set fun d => { d with guardsClean := true })

/-- Entries of the page table are in memory too. -/
def storeTable (first count : ℕ) : Drive Unit := do
  let d ← driver
  match d.fixed .table with
  | none => pure ()
  | some b => change fun p => { p with memory := p.memory.store (b.word (1024 + first)) count fun k => d.space.table (first + k) }

/-! ### Objects -/

def objectPlacement (size : ℕ) : Drive (Fin 256 × ℕ) := base (V3d.objectPlacement size)

def objectCreate (r : BufferRequest) : Drive Unit := do
  require r.Creates .invalidParameter
  let size := r.bytes.toNat
  let d ← driver
  require (size ≤ memoryMaxBytes - d.space.objectBytes) .insufficientResources
  let place ← objectPlacement size
  hw v3dDrain
  contain guards
  allocate (.object place.1) size
  base (set fun d =>
    d.enter place.1 ⟨d.buffer (.object place.1), none, d.space.objectSerial + 1, place.2, size, r.flags⟩)
  storeTable (place.2 / page) (size / page)
  hw v3dMmuFlush

def objectImportOf (r : BufferImport) (mdl : Mdl) : Drive Unit := do
  require (r.Imports mdl) .invalidParameter
  let size := mdl.byteCount
  let d ← driver
  require (size ≤ importTotalBytes - d.space.importedBytes) .insufficientResources
  require mdl.InReach .invalidParameter
  let place ← objectPlacement size
  hw v3dDrain
  contain guards
  base (set fun d =>
    d.enter place.1 ⟨d.buffer (.object place.1), some mdl, d.space.objectSerial + 1, place.2, size, r.flags⟩)
  storeTable (place.2 / page) (size / page)
  hw v3dMmuFlush

def objectImport (r : BufferImport) : Drive Unit :=
  match r.mdl with
  | none => stop .invalidParameter
  | some mdl => objectImportOf r mdl

def objectDestroyAt (i : Fin 256) : Drive Unit := do
  hw v3dDrain
  contain guards
  let d ← driver
  let o := d.space.objects i
  base (set fun d => d.unmap o)
  storeTable (o.address / page) (o.bytes / page)
  hw v3dMmuFlush
  hw v3dInvalidate
  base (set fun d => d.discount o)
  base (V3d.freeBuffer (.object i))
  base (set fun d => d.emptied i)

def objectDestroy (r : BufferRequest) : Drive Unit := do
  let i ← base (V3d.found r.handle (r.address = 0 ∧ r.bytes = 0 ∧ r.flags = 0 ∧ r.reserved = 0))
  objectDestroyAt i

/-- A CPU copy to an object, or from it. -/
def objectTransfer (r : Transfer) (words : ℕ → BitVec 32) (toObject : Bool) : Drive Unit := do
  let i ← base (V3d.found r.handle (r.bytes ≠ 0 ∧ r.bytes.toNat ≤ 65536 ∧ (r.offset ||| r.bytes) &&& 3 = 0))
  let d ← driver
  let o := d.space.objects i
  require (o.importedMdl.isNone ∧ r.offset.toNat ≤ o.bytes ∧ r.bytes.toNat ≤ o.bytes - r.offset.toNat) .invalidParameter
  hw v3dDrain
  contain guards
  match o.buffer with
  | none => pure ()
  | some b =>
    when (toObject = true)
      (change fun p => { p with memory := p.memory.store (b.word (1024 + r.offset.toNat / 4)) (r.bytes.toNat / 4) words })

/-! ### Jobs -/

/-- Starts a job, which writes what it writes. -/
def launch (submit : Effect Machine Status Unit) : Drive Unit := do
  base (on submit)
  let c : Context ← get
  change fun p => (p.platform.writes c.base.machine.clock).foldl (Physical.write c.base.driver) p

/-- The MMU shows no fault. -/
def mmuFine : Drive Unit := do
  let c : Context ← get
  let mmu ← base (on (read .hub V3D.mmuCtl))
  require ((if c.physical.trapped = true then mmu ||| c.physical.platform.fault c.base.machine.clock else mmu) &&& mmuFaults = 0)
    .deviceHardwareError

/-- Waits for a job, looks at the device, and stops if the wait failed. -/
def await (hub core : BitVec 32) (looks : V3d.Drive α) : Drive α := base do
  let s ← attempt (on (wait hub core))
  let seen ← looks
  snapshot
  settle s
  pure seen

def objectTfu (width height source destination stride config : BitVec 32) : Drive Unit := do
  let d ← driver
  require (d.memorySubmitted ≠ 2 ^ 64 - 1) .integerOverflow
  hw v3dDrain
  contain guards
  hw v3dInvalidate
  base (on (write .hub V3D.gmpConfig 0))
  base arm
  base (set fun d => { d with memorySubmitted := d.memorySubmitted + 1 })
  launch (v3dSubmitTransferAt width height source destination stride config)
  await 2 0 (pure ())
  hw v3dDrain
  base (V3d.contain (on (exact .transfer)))
  contain mmuFine
  contain guards
  base (set fun d => { d with memoryCompleted := d.memorySubmitted })

def objectCopy (r : BufferCopy) : Drive Unit := do
  let source ← base (V3d.found r.source True)
  let destination ← base (V3d.found r.destination True)
  let d ← driver
  require ((d.space.objects destination).flags &&& writable ≠ 0 ∧ r.width ≠ 0 ∧ r.width.toNat ≤ 4096 ∧
    r.height ≠ 0 ∧ r.height.toNat ≤ 4096 ∧ (r.sourceOffset ||| r.destinationOffset) &&& 63 = 0 ∧
      r.reserved = 0 ∧ r.fence = 0) .invalidParameter
  let bytes := r.width.toNat * r.height.toNat * 4
  require (Transferable d source destination r.sourceOffset.toNat bytes r.destinationOffset.toNat bytes) .invalidParameter
  objectTfu r.width r.height (gpuAddress d source r.sourceOffset) (gpuAddress d destination r.destinationOffset)
    r.width (r.width <<< 16)

def objectTile (r : BufferTile) : Drive Unit := do
  let source ← base (V3d.found r.source True)
  let destination ← base (V3d.found r.destination True)
  let d ← driver
  require ((d.space.objects destination).flags &&& writable ≠ 0 ∧
    (r.sourceOffset ||| r.destinationOffset) &&& 63 = 0 ∧ r.fence = 0) .invalidParameter
  match Texture.v3dTextureLayout r.width.toNat r.height.toNat r.sourcePitch.toNat r.layout.toNat r.outputRows.toNat with
  | none => stop .invalidParameter
  | some l => do
    require (Transferable d source destination r.sourceOffset.toNat l.sourceBytes r.destinationOffset.toNat
      l.destinationBytes) .invalidParameter
    objectTfu r.width r.height (gpuAddress d source r.sourceOffset) (gpuAddress d destination r.destinationOffset)
      (r.sourcePitch / 4) (BitVec.ofNat 32 l.outputConfig)

def binJob (submit : Effect Machine Status Unit) : Drive Unit := do
  let before ← base (on (read .core 0x134))
  base arm
  launch submit
  let after ← await 0 2 do
    let after ← on (read .core 0x134)
    let _ ← on (read .core 0x110)
    let _ ← on (read .core 0x108)
    pure after
  base (V3d.contain (require (after ≠ before) .deviceHardwareError))
  base (V3d.contain (on (exact .bin)))

def renderJob (submit : Effect Machine Status Unit) : Drive Unit := do
  let _ ← base (on (read .core 0x104))
  let before ← base (on (read .core 0x138))
  base arm
  launch submit
  let after ← await 0 1 do
    let _ ← on (read .core 0x104)
    let _ ← on (read .core 0x114)
    let _ ← on (read .core 0x10c)
    let _ ← on (read .core 0x164)
    let _ ← on (read .core 0x16c)
    on (read .core 0x138)
  base (V3d.contain (require (after ≠ before) .deviceHardwareError))
  hw v3dDrain
  base (V3d.contain (on (exact .render)))
  contain mmuFine

def objectSubmit (r : SubmitCl) : Drive Unit := do
  let d ← driver
  require (r.Acceptable d) .invalidParameter
  require (d.memorySubmitted ≠ 2 ^ 64 - 1 ∧ d.renderSubmitted ≠ 2 ^ 64 - 1) .integerOverflow
  hw v3dDrain
  contain guards
  hw v3dInvalidate
  base (on (write .hub V3D.gmpConfig 0))
  base (set fun d => { d with memorySubmitted := d.memorySubmitted + 1, renderSubmitted := d.renderSubmitted + 1 })
  when r.Bins do
    binJob (v3dSubmitBinAt r.bclStart r.bclEnd r.tileAddress r.tileBytes r.stateAddress)
    hw v3dDrain
    hw v3dInvalidate
    base (on (write .hub V3D.gmpConfig 0))
  renderJob (v3dSubmitRenderAt r.rclStart r.rclEnd)
  contain guards
  base (set fun d => { d with memoryCompleted := d.memorySubmitted, renderCompleted := d.renderSubmitted })

/-! ### Sessions -/

/-- The MMU is started again. -/
def reset : Drive Unit := do
  base V3d.reset
  change fun p => { p with trapped := false }

def retire : Drive Unit := do
  base do
    quiesce
    V3d.contain do
      atRest
      unmapped
    mask false
  contain guards
  base (set fun d => { d with claimed := false })

def finish : Drive Unit := do
  base (set fun d => { d with guardsClean := false })
  let d ← driver
  require (d.bootFault = false) .deviceHardwareError
  when (d.claimed = true) retire
  base snapshot
  let d ← driver
  base (when (d.woke = true) sleep)
  base snapshot
  base (set fun d => { d with powered := false })
  base (each dropObject slots)
  base (set fun d =>
    { d with space := { d.space with objectBytes := 0, importedBytes := 0 }, memorySession := false })
  base (each (fun b => freeBuffer (.fixed b)) lastBuffers)
  base dropProviders

def establish : Drive Unit := do
  base (set fun d => { d with claimed := true })
  each (fun b => allocate (.fixed b.1) b.2) firstBuffers
  base clearTable
  base (set fun d => { d with tableDma := d.payload .table })
  base mapAll
  storeTable 0 (tableBytes / 4)
  reset
  base snapshot

def begin (file : ℕ) : Drive Unit := do
  let d ← driver
  require (d.bootFault = false) .deviceHardwareError
  require (d.owner = none) .deviceBusy
  let attempted : Drive Unit := do
    base (acquire file)
    establish
  attempted.orElse fun s => do
    base (set fun d => { d with lastStatus := some s })
    let d ← driver
    when (d.bootFault = false) finish
    stop s

def memoryBegin (file : ℕ) : Drive Unit := do
  begin file
  hw v3dDrain
  base clearTable
  storeTable 0 (tableBytes / 4)
  hw v3dMmuFlush
  base (set fun d => { d with memorySession := true })

def interruptCheck : Drive Unit := base do
  arm
  on (write .hub V3D.intSet 2)
  on (write .core V3D.intSet 1)
  V3d.contain (on (wait 2 1))

def query : Drive Unit := do
  let d ← driver
  when (d.claimed = true ∧ d.bootFault = false) do
    base (set fun d => { d with guardsClean := false })
    let _ ← attempt (contain guards)
    pure ()
  base snapshot

/-! ### Requests -/

/-- What is asked of the driver, by those who may. -/
inductive Ask
  | memoryBegin (file : ℕ)
  | bufferCreate (r : BufferRequest)
  | bufferImport (r : BufferImport)
  | bufferDestroy (r : BufferRequest)
  | transfer (r : Transfer) (words : ℕ → BitVec 32) (toObject : Bool)
  | bufferCopy (r : BufferCopy)
  | bufferTile (r : BufferTile)
  | submitCl (r : SubmitCl)
  | reset | interruptCheck | query | finish

/-- A request of a memory session. -/
def session (x : Drive Unit) : Drive Unit := do
  let d ← driver
  require (d.bootFault = false) .deviceHardwareError
  require (d.memorySession = true) .accessDenied
  x

def serve : Ask → Drive Unit
  | .memoryBegin file => memoryBegin file
  | .bufferCreate r => session (objectCreate r)
  | .bufferImport r => session (objectImport r)
  | .bufferDestroy r => session (objectDestroy r)
  | .transfer r words toObject => session (objectTransfer r words toObject)
  | .bufferCopy r => session (objectCopy r)
  | .bufferTile r => session (objectTile r)
  | .submitCl r => session (objectSubmit r)
  | .reset => session reset
  | .interruptCheck => session interruptCheck
  | .query => query
  | .finish => session finish

def step (c : Context) (a : Ask) : Context := ((serve a).run c).2

def start (world : World) (platform : Platform) (memory : Words) : Context := ⟨V3d.start world, ⟨platform, memory, false, []⟩⟩

def run (world : World) (platform : Platform) (memory : Words) (asks : List Ask) : Context :=
  asks.foldl step (start world platform memory)

/-- The pages of an import are somebody's, not of the memory that common buffers are made of. -/
def Ask.Foreign (p : Platform) : Ask → Prop
  | .bufferImport r => ∀ mdl, r.mdl = some mdl → ∀ k < mdl.byteCount / page, p.common (mdl.pages k) = false
  | _ => True

end Paged

end Pi5Drivers.V3d
