import Pi5Drivers.V3d.Driver

/-! The requests of the V3D driver: the objects of a memory session, the jobs, and
the dispatch of what a file may ask for. -/

namespace Pi5Drivers.V3d

open Effect

/-! ### Requests -/

structure BufferRequest where
  version : BitVec 32
  handle : BitVec 32
  address : BitVec 32
  bytes : BitVec 32
  flags : BitVec 32
  reserved : BitVec 32

structure BufferImport where
  version : BitVec 32
  flags : BitVec 32
  reserved0 : BitVec 32
  reserved1 : BitVec 32
  /-- The list of locked pages, unless the pointer is null. -/
  mdl : Option Mdl

structure Transfer where
  version : BitVec 32
  handle : BitVec 32
  offset : BitVec 32
  bytes : BitVec 32

structure BufferCopy where
  version : BitVec 32
  source : BitVec 32
  destination : BitVec 32
  width : BitVec 32
  height : BitVec 32
  sourceOffset : BitVec 32
  destinationOffset : BitVec 32
  reserved : BitVec 32
  fence : BitVec 64

structure BufferTile where
  version : BitVec 32
  source : BitVec 32
  destination : BitVec 32
  sourceOffset : BitVec 32
  destinationOffset : BitVec 32
  width : BitVec 32
  height : BitVec 32
  sourcePitch : BitVec 32
  layout : BitVec 32
  outputRows : BitVec 32
  fence : BitVec 64

structure SubmitCl where
  version : BitVec 32
  bclStart : BitVec 32
  bclEnd : BitVec 32
  rclStart : BitVec 32
  rclEnd : BitVec 32
  tileAddress : BitVec 32
  tileBytes : BitVec 32
  stateAddress : BitVec 32
  stateBytes : BitVec 32
  reserved : BitVec 32
  fence : BitVec 64

structure Image where
  version : BitVec 32
  width : BitVec 32
  height : BitVec 32
  reserved : BitVec 32

structure ComputeRequest where
  version : BitVec 32
  operation : BitVec 32
  fence : BitVec 64

structure RenderRequest where
  version : BitVec 32
  width : BitVec 32
  height : BitVec 32
  color : BitVec 32
  fence : BitVec 64

/-- What a request returns besides its status. -/
inductive Reply
  | done
  | object (handle address bytes : ℕ) (flags : BitVec 32)
  | fence (r : Series) (n : ℕ)
deriving DecidableEq, Repr

/-! ### Objects -/

def writable : BitVec 32 := 1

def BufferRequest.Creates (r : BufferRequest) : Prop :=
  r.bytes ≠ 0 ∧ r.bytes.toNat ≤ bufferMaxBytes ∧ r.bytes &&& 4095 = 0 ∧ r.flags &&& ~~~writable = 0 ∧
    r.handle = 0 ∧ r.address = 0 ∧ r.reserved = 0

instance (r : BufferRequest) : Decidable r.Creates := inferInstanceAs (Decidable (_ ∧ _))

/-- A place for a new object. -/
def objectPlacement (size : ℕ) : Drive (Fin 256 × ℕ) := do
  let d ← driver
  match d.space.objectPlacement size with
  | some place => pure place
  | none => stop .insufficientResources

/-- The new object is entered in the slot, the byte counts and the table. -/
def Driver.enter (d : Driver) (i : Fin 256) (o : Object) : Driver := { d with space := d.space.insert i o }

/-- The handle of a new object is given out. -/
def announce (place : Fin 256 × ℕ) (size : ℕ) (flags : BitVec 32) : Drive Reply := do
  let d ← driver
  on (note (.created (d.space.objects place.1).handle))
  pure (.object (d.space.objects place.1).handle place.2 size flags)

def objectCreate (r : BufferRequest) : Drive Reply := do
  require r.Creates .invalidParameter
  let size := r.bytes.toNat
  let d ← driver
  require (size ≤ memoryMaxBytes - d.space.objectBytes) .insufficientResources
  let place ← objectPlacement size
  contain (hw v3dDrain)
  contain guards
  allocate (.object place.1) size
  on (note (.mapped (.object place.1)))
  set fun d =>
    d.enter place.1 ⟨d.buffer (.object place.1), none, d.space.objectSerial + 1, place.2, size, r.flags⟩
  contain (hw v3dMmuFlush)
  announce place size r.flags

/-- The list describes locked pages that start and end at page boundaries. -/
def Mdl.Importable (m : Mdl) (systemRangeStart : ℕ) : Prop :=
  systemRangeStart ≤ m.pointer ∧ m.pointer % 8 = 0 ∧ m.flags &&& 6 ≠ 0 ∧ m.flags &&& 0x10 = 0 ∧
    m.byteOffset = 0 ∧ m.byteCount ≠ 0 ∧ m.byteCount % page = 0 ∧ m.byteCount ≤ importMaxBytes

instance (m : Mdl) (n : ℕ) : Decidable (m.Importable n) := inferInstanceAs (Decidable (_ ∧ _))

/-- Every page is one the table can name. -/
def Mdl.InReach (m : Mdl) : Prop := ∀ k < m.byteCount / page, m.pages k < 2 ^ 24

instance (m : Mdl) : Decidable m.InReach := inferInstanceAs (Decidable (∀ k < _, _))

/-- The first address of the system's part of the address space. -/
def systemRangeStart : ℕ := 0xffff800000000000

def BufferImport.Imports (r : BufferImport) (m : Mdl) : Prop :=
  r.flags &&& ~~~writable = 0 ∧ r.reserved0 = 0 ∧ r.reserved1 = 0 ∧ m.Importable systemRangeStart

instance (r : BufferImport) (m : Mdl) : Decidable (r.Imports m) := inferInstanceAs (Decidable (_ ∧ _))

def objectImportOf (r : BufferImport) (mdl : Mdl) : Drive Reply := do
  require (r.Imports mdl) .invalidParameter
  let size := mdl.byteCount
  let d ← driver
  require (size ≤ importTotalBytes - d.space.importedBytes) .insufficientResources
  require mdl.InReach .invalidParameter
  let place ← objectPlacement size
  contain (hw v3dDrain)
  contain guards
  on (note (.allocated (.object place.1)))
  on (note (.mapped (.object place.1)))
  set fun d =>
    d.enter place.1
      ⟨d.buffer (.object place.1), some mdl, d.space.objectSerial + 1, place.2, size, r.flags⟩
  contain (hw v3dMmuFlush)
  announce place size r.flags

def objectImport (r : BufferImport) : Drive Reply :=
  match r.mdl with
  | none => stop .invalidParameter
  | some mdl => objectImportOf r mdl

/-- The table entries of an object are zeroed. -/
def Driver.unmap (d : Driver) (o : Object) : Driver :=
  { d with
    space := { d.space with
      table := AddressSpace.setEntries d.space.table (o.address / page) (o.bytes / page) fun _ => 0 } }

/-- The object is taken out of the byte counts. -/
def Driver.discount (d : Driver) (o : Object) : Driver :=
  { d with
    space := { d.space with
      objectBytes := d.space.objectBytes - (if o.importedMdl.isSome then 0 else o.bytes)
      importedBytes := d.space.importedBytes - (if o.importedMdl.isSome then o.bytes else 0) } }

def objectDestroyAt (i : Fin 256) : Drive Reply := do
  contain (hw v3dDrain)
  contain guards
  on (note (.cleared (.object i)))
  set fun d => d.unmap (d.space.objects i)
  contain (hw v3dMmuFlush)
  contain (hw v3dInvalidate)
  set fun d => d.discount (d.space.objects i)
  dropObject i
  pure .done

/-- The object of a handle, if the request names one and nothing else. -/
def found (handle : BitVec 32) (c : Prop) [Decidable c] : Drive (Fin 256) := do
  let d ← driver
  match d.space.object handle.toNat with
  | none => stop .invalidParameter
  | some i => do
    require c .invalidParameter
    pure i

def objectDestroy (r : BufferRequest) : Drive Reply := do
  let i ← found r.handle (r.address = 0 ∧ r.bytes = 0 ∧ r.flags = 0 ∧ r.reserved = 0)
  objectDestroyAt i

/-- A CPU copy from or to an object: the words themselves are not part of the state. -/
def objectTransfer (r : Transfer) : Drive Reply := do
  let i ← found r.handle (r.bytes ≠ 0 ∧ r.bytes.toNat ≤ 65536 ∧ (r.offset ||| r.bytes) &&& 3 = 0)
  let d ← driver
  let o := d.space.objects i
  require (o.importedMdl.isNone ∧ r.offset.toNat ≤ o.bytes ∧ r.bytes.toNat ≤ o.bytes - r.offset.toNat)
    .invalidParameter
  contain (hw v3dDrain)
  contain guards
  pure .done

/-! ### Jobs of a memory session -/

/-- One conversion by the transfer unit. -/
def objectTfu (width height source destination stride config : BitVec 32) : Drive Reply := do
  let d ← driver
  require (d.memorySubmitted ≠ 2 ^ 64 - 1) .integerOverflow
  contain (hw v3dDrain)
  contain guards
  contain (hw v3dInvalidate)
  on (write .hub V3D.gmpConfig 0)
  arm
  set fun d => { d with memorySubmitted := d.memorySubmitted + 1 }
  on (v3dSubmitTransferAt width height source destination stride config)
  let s ← attempt (on (wait 2 0))
  snapshot
  settle s
  contain (hw v3dDrain)
  contain (on (exact .transfer))
  contain (on mmuFine)
  contain guards
  set fun d => { d with memoryCompleted := d.memorySubmitted }
  let d ← driver
  on (note (.fence .memory .transfer d.memoryCompleted))
  pure (.fence .memory d.memoryCompleted)

/-- A range of bytes lies inside an object. -/
def Object.Holds (o : Object) (offset bytes : ℕ) : Prop := offset ≤ o.bytes ∧ bytes ≤ o.bytes - offset

instance (o : Object) (offset bytes : ℕ) : Decidable (o.Holds offset bytes) := inferInstanceAs (Decidable (_ ∧ _))

/-- Source and destination of a conversion inside their objects, and not the same bytes. -/
def Transferable (d : Driver) (s t : Fin 256) (sourceOffset sourceBytes destinationOffset destinationBytes : ℕ) : Prop :=
  (d.space.objects s).Holds sourceOffset sourceBytes ∧ (d.space.objects t).Holds destinationOffset destinationBytes ∧
    ¬(s = t ∧ sourceOffset < destinationOffset + destinationBytes ∧ destinationOffset < sourceOffset + sourceBytes)

instance (d : Driver) (s t : Fin 256) (a b x y : ℕ) : Decidable (Transferable d s t a b x y) :=
  inferInstanceAs (Decidable (_ ∧ _))

def gpuAddress (d : Driver) (i : Fin 256) (offset : BitVec 32) : BitVec 32 :=
  BitVec.ofNat 32 (d.space.objects i).address + offset

def objectCopy (r : BufferCopy) : Drive Reply := do
  let source ← found r.source True
  let destination ← found r.destination True
  let d ← driver
  require ((d.space.objects destination).flags &&& writable ≠ 0 ∧ r.width ≠ 0 ∧ r.width.toNat ≤ 4096 ∧
    r.height ≠ 0 ∧ r.height.toNat ≤ 4096 ∧ (r.sourceOffset ||| r.destinationOffset) &&& 63 = 0 ∧
      r.reserved = 0 ∧ r.fence = 0) .invalidParameter
  let bytes := r.width.toNat * r.height.toNat * 4
  require (Transferable d source destination r.sourceOffset.toNat bytes r.destinationOffset.toNat bytes)
    .invalidParameter
  objectTfu r.width r.height (gpuAddress d source r.sourceOffset) (gpuAddress d destination r.destinationOffset)
    r.width (r.width <<< 16)

def objectTile (r : BufferTile) : Drive Reply := do
  let source ← found r.source True
  let destination ← found r.destination True
  let d ← driver
  require ((d.space.objects destination).flags &&& writable ≠ 0 ∧
    (r.sourceOffset ||| r.destinationOffset) &&& 63 = 0 ∧ r.fence = 0) .invalidParameter
  match Texture.v3dTextureLayout r.width.toNat r.height.toNat r.sourcePitch.toNat r.layout.toNat r.outputRows.toNat with
  | none => stop .invalidParameter
  | some l => do
    require (Transferable d source destination r.sourceOffset.toNat l.sourceBytes r.destinationOffset.toNat
      l.destinationBytes) .invalidParameter
    objectTfu r.width r.height (gpuAddress d source r.sourceOffset) (gpuAddress d destination r.destinationOffset)
      (r.sourcePitch / 4) (BitVec.ofNat 32 l.outputConfig)

/-- A range of the address space lies inside an object of the given permission. -/
def ObjectRange (d : Driver) (address bytes : BitVec 32) (mayWrite : Bool) : Prop :=
  bytes ≠ 0 ∧ ∃ i ∈ slots, (d.space.objects i).Live ∧ decide ((d.space.objects i).flags &&& writable ≠ 0) = mayWrite ∧
    (d.space.objects i).address ≤ address.toNat ∧
      address.toNat - (d.space.objects i).address < (d.space.objects i).bytes ∧
        bytes.toNat ≤ (d.space.objects i).bytes - (address.toNat - (d.space.objects i).address)

instance (d : Driver) (address bytes : BitVec 32) (mayWrite : Bool) : Decidable (ObjectRange d address bytes mayWrite) :=
  inferInstanceAs (Decidable (_ ∧ _))

/-- The request asks for binning. -/
def SubmitCl.Bins (r : SubmitCl) : Prop := r.bclStart ≠ r.bclEnd

instance (r : SubmitCl) : Decidable r.Bins := inferInstanceAs (Decidable (_ ≠ _))

/-- The command lists and the tile memory of the request lie in the right objects. -/
def SubmitCl.Acceptable (r : SubmitCl) (d : Driver) : Prop :=
  (r.reserved = 0 ∧ r.fence = 0 ∧ r.rclStart < r.rclEnd ∧ ObjectRange d r.rclStart (r.rclEnd - r.rclStart) false) ∧
    if r.Bins then
      r.bclStart < r.bclEnd ∧ ObjectRange d r.bclStart (r.bclEnd - r.bclStart) false ∧
        (r.tileAddress ||| r.tileBytes ||| r.stateAddress ||| r.stateBytes) &&& 4095 = 0 ∧
          V3d.tileBytes ≤ r.tileBytes.toNat ∧ page ≤ r.stateBytes.toNat ∧
            ObjectRange d r.tileAddress r.tileBytes true ∧ ObjectRange d r.stateAddress r.stateBytes true
    else
      r.bclStart = 0 ∧ r.bclEnd = 0 ∧ r.tileAddress = 0 ∧ r.tileBytes = 0 ∧ r.stateAddress = 0 ∧ r.stateBytes = 0

instance (r : SubmitCl) (d : Driver) : Decidable (r.Acceptable d) := inferInstanceAs (Decidable (_ ∧ _))

/-- The binning half of a submission: nothing but its own interrupt, and a frame counted. -/
def binJob (submit : Effect Machine Status Unit) : Drive Unit := do
  let before ← on (read .core 0x134)
  arm
  on submit
  let s ← attempt (on (wait 0 2))
  let after ← on (read .core 0x134)
  let _ ← on (read .core 0x110)
  let _ ← on (read .core 0x108)
  snapshot
  settle s
  contain (require (after ≠ before) .deviceHardwareError)
  contain (on (exact .bin))

/-- The rendering half. -/
def renderJob (submit : Effect Machine Status Unit) : Drive Unit := do
  let _ ← on (read .core 0x104)
  let before ← on (read .core 0x138)
  arm
  on submit
  let s ← attempt (on (wait 0 1))
  let _ ← on (read .core 0x104)
  let _ ← on (read .core 0x114)
  let _ ← on (read .core 0x10c)
  let _ ← on (read .core 0x164)
  let _ ← on (read .core 0x16c)
  let after ← on (read .core 0x138)
  snapshot
  settle s
  contain (require (after ≠ before) .deviceHardwareError)
  contain (hw v3dDrain)
  contain (on (exact .render))
  contain (on mmuFine)

def objectSubmit (r : SubmitCl) : Drive Reply := do
  let d ← driver
  require (r.Acceptable d) .invalidParameter
  require (d.memorySubmitted ≠ 2 ^ 64 - 1 ∧ d.renderSubmitted ≠ 2 ^ 64 - 1) .integerOverflow
  contain (hw v3dDrain)
  contain guards
  contain (hw v3dInvalidate)
  on (write .hub V3D.gmpConfig 0)
  set fun d => { d with memorySubmitted := d.memorySubmitted + 1, renderSubmitted := d.renderSubmitted + 1 }
  when r.Bins do
    binJob (v3dSubmitBinAt r.bclStart r.bclEnd r.tileAddress r.tileBytes r.stateAddress)
    contain (hw v3dDrain)
    contain (hw v3dInvalidate)
    on (write .hub V3D.gmpConfig 0)
  renderJob (v3dSubmitRenderAt r.rclStart r.rclEnd)
  contain guards
  set fun d => { d with memoryCompleted := d.memorySubmitted, renderCompleted := d.renderSubmitted }
  let d ← driver
  on (note (.fence .memory .render d.memoryCompleted))
  pure (.fence .memory d.memoryCompleted)

/-! ### The fixed jobs -/

def interruptCheck : Drive Reply := do
  arm
  on (write .hub V3D.intSet 2)
  on (write .core V3D.intSet 1)
  contain (on (wait 2 1))
  pure .done

/-- The memory of a job holds what it should. -/
def verify : Drive Unit := do
  let same ← on (ask fun w t => w.verified t)
  require (same = true) .dataError

def copy (r : Image) : Drive Reply := do
  contain (hw v3dIdle)
  contain guards
  arm
  on (v3dSubmitCopy r.width r.height)
  let s ← attempt (on (wait 2 0))
  snapshot
  settle s
  contain (hw (v3dPoll .hub V3D.tfuCs 1 0))
  contain (hw v3dDrain)
  contain guards
  contain verify
  on (write .hub V3D.gmpConfig 0)
  pure .done

def compute : Drive Reply := do
  let d ← driver
  require (d.computeSubmitted ≠ 2 ^ 64 - 1) .integerOverflow
  contain (hw v3dIdle)
  contain guards
  contain (hw v3dInvalidate)
  arm
  let _ ← on (read .core V3D.csdStatus)
  set fun d => { d with computeSubmitted := d.computeSubmitted + 1 }
  on (v3dSubmitCompute d.idents.ipRevision)
  let s ← attempt (on (wait 0 0x40))
  let after ← on (read .core V3D.csdStatus)
  snapshot
  settle s
  on (latch fun io => { io with csdIdle := after })
  contain (hw v3dDrain)
  contain (on (exact .compute))
  contain (on mmuFine)
  contain guards
  contain verify
  on (write .hub V3D.gmpConfig 0)
  set fun d => { d with computeCompleted := d.computeSubmitted }
  let d ← driver
  on (note (.fence .compute .compute d.computeCompleted))
  pure (.fence .compute d.computeCompleted)

def render (r : RenderRequest) (triangle : Bool) : Drive Reply := do
  let d ← driver
  require (d.renderSubmitted ≠ 2 ^ 64 - 1) .integerOverflow
  require (triangle = true → d.idents.ipRevision = 10) .notSupported
  let bytes := if triangle then v3dTriangleRclBytes else v3dBuildClear r.width r.height
  require (bytes ≠ 0) .invalidParameter
  contain (hw v3dIdle)
  contain guards
  contain (hw v3dInvalidate)
  set fun d => { d with renderSubmitted := d.renderSubmitted + 1 }
  when (triangle = true) do
    binJob v3dSubmitBin
    contain (hw v3dDrain)
    on (write .hub V3D.gmpConfig 0)
    contain (hw v3dInvalidate)
  renderJob (v3dSubmitRender bytes)
  contain guards
  contain verify
  on (write .hub V3D.gmpConfig 0)
  set fun d => { d with renderCompleted := d.renderSubmitted }
  let d ← driver
  on (note (.fence .render .render d.renderCompleted))
  pure (.fence .render d.renderCompleted)

/-! ### Dispatch -/

/-- What a file asks for. A `sized` request came with buffers of the right sizes. -/
inductive Body
  | query | computeQuery | renderQuery
  | bufferImport (r : BufferImport)
  | submitCl (r : SubmitCl)
  | bufferTile (r : BufferTile)
  | bufferCopy (r : BufferCopy)
  | bufferCreate (r : BufferRequest)
  | bufferDestroy (r : BufferRequest)
  | transfer (r : Transfer)
  | renderPicture (r : RenderRequest) (triangle : Bool)
  | compute (r : ComputeRequest)
  | copy (r : Image)
  | begin (version reserved : BitVec 32)
  | memoryBegin (version reserved : BitVec 32)
  | finish (version reserved : BitVec 32)
  | reset (version reserved : BitVec 32)
  | interruptCheck (version reserved : BitVec 32)
  | other (version reserved : BitVec 32)

structure Request where
  file : Option ℕ
  kernelMode : Bool
  /-- The lock was free in time. -/
  locked : Bool
  sized : Bool
  body : Body

/-- Notes how the request ended. -/
def recordStatus (x : Drive Reply) : Drive Reply := do
  let s ← attempt x
  set fun d => { d with lastStatus := match s with | .ok _ => none | .error e => some e }
  ofExcept s

/-- A scan of the guards that a query asks for. -/
def checkGuards : Drive Unit := do
  set fun d => { d with guardsClean := false }
  let _ ← attempt (contain guards)
  pure ()

def query : Drive Reply := do
  let d ← driver
  when (d.claimed = true ∧ d.bootFault = false) checkGuards
  snapshot
  pure .done

/-- A request of the owner's memory session. -/
def inSession (r : Request) (wellFormed : Prop) [Decidable wellFormed] (x : Drive Reply) : Drive Reply := do
  let d ← driver
  require (d.owner = r.file ∧ d.memorySession = true) .accessDenied
  require (r.sized = true ∧ wellFormed) .invalidParameter
  recordStatus x

/-- A request of the fixed session: its form, its owner and what it does. -/
def fixedJob (r : Request) (wellFormed : Prop) [Decidable wellFormed] (x : Drive Reply) : Drive Reply := do
  let d ← driver
  require (d.memorySession = false) .invalidDeviceState
  require (r.sized = true ∧ wellFormed) .invalidParameter
  require (d.owner = r.file) .accessDenied
  recordStatus x

/-- A request that only has a version. -/
def plain (r : Request) (version reserved : BitVec 32) (x : Drive Reply) : Drive Reply := do
  require (r.sized = true ∧ version = 1 ∧ reserved = 0) .invalidParameter
  recordStatus x

def owned (r : Request) (version reserved : BitVec 32) (x : Drive Reply) : Drive Reply := do
  require (r.sized = true ∧ version = 1 ∧ reserved = 0) .invalidParameter
  let d ← driver
  require (d.owner = r.file) .accessDenied
  recordStatus x

def done (x : Drive Unit) : Drive Reply := do
  x
  pure .done

def RenderRequest.WellFormed (r : RenderRequest) (triangle : Bool) : Prop :=
  (r.version = 1 ∧ r.width ≠ 0 ∧ r.width.toNat ≤ 64 ∧ r.height ≠ 0 ∧ r.height.toNat ≤ 32 ∧ r.fence = 0) ∧
    (triangle = true → r.width = 64 ∧ r.height = 32 ∧ r.color ≠ 0xff00ff00)

instance (r : RenderRequest) (triangle : Bool) : Decidable (r.WellFormed triangle) :=
  inferInstanceAs (Decidable (_ ∧ _))

/-- What a kernel file of a working device may ask for. -/
def serve (r : Request) (file : ℕ) : Drive Reply :=
  match r.body with
  | .query | .computeQuery | .renderQuery => pure .done
  | .bufferImport i => inSession r (i.version = 1) (objectImport i)
  | .submitCl s => inSession r (s.version = 1) (objectSubmit s)
  | .bufferTile t => inSession r (t.version = 1) (objectTile t)
  | .bufferCopy t => inSession r (t.version = 1) (objectCopy t)
  | .bufferCreate b => inSession r (b.version = 1) (objectCreate b)
  | .bufferDestroy b => inSession r (b.version = 1) (objectDestroy b)
  | .transfer t => inSession r (t.version = 1 ∧ t.bytes ≠ 0 ∧ t.bytes.toNat ≤ 65536) (objectTransfer t)
  | .renderPicture p triangle => fixedJob r (p.WellFormed triangle) (render p triangle)
  | .compute q => fixedJob r (q.version = 1 ∧ q.operation.toNat ≤ 1 ∧ q.fence = 0) compute
  | .copy i =>
    fixedJob r (i.version = 1 ∧ i.reserved = 0 ∧ i.width ≠ 0 ∧ i.width.toNat ≤ 64 ∧ i.height ≠ 0 ∧ i.height.toNat ≤ 32)
      (copy i)
  | .begin v z => plain r v z (done (begin file))
  | .memoryBegin v z => plain r v z (done (memoryBegin file))
  | .finish v z => owned r v z (done finish)
  | .reset v z => owned r v z (done reset)
  | .interruptCheck v z => owned r v z interruptCheck
  | .other v z => owned r v z (stop .invalidDeviceRequest)

/-- The queries are for everyone, the rest for the kernel and a device in order. -/
def control (r : Request) : Drive Reply := do
  require (r.locked = true) .ioTimeout
  match r.body with
  | .query => do
    require (r.sized = true) .invalidParameter
    query
  | .computeQuery | .renderQuery => do
    require (r.sized = true) .invalidParameter
    pure .done
  | _ => do
    require (r.kernelMode = true) .accessDenied
    match r.file with
    | none => stop .deviceNotReady
    | some file => do
      let d ← driver
      require (d.online = true) .deviceNotReady
      require (d.bootFault = false) .deviceHardwareError
      serve r file

/-- The last handle of a file is closed. -/
def cleanup (file : ℕ) : Drive Unit := do
  let d ← driver
  when (d.owner = some file) finish

/-- The device enters its working state. -/
def entry : Drive Unit := set fun d => { d with online := !d.bootFault }

/-- The device leaves its working state. -/
def exit : Drive Unit := do
  set fun d => { d with online := false }
  let d ← driver
  when d.owner.isSome finish

/-! ### Runs -/

inductive Call
  | control (r : Request)
  | cleanup (file : ℕ)
  | entry
  | exit

/-- One call, and what it returns. -/
def serveCall : Call → Drive Reply
  | .control r => control r
  | .cleanup file => done (cleanup file)
  | .entry => done entry
  | .exit => done exit

def step (c : Context) (call : Call) : Context := ((serveCall call).run c).2

def reply (c : Context) (call : Call) : Except Status Reply := ((serveCall call).run c).1

/-- A driver that was just loaded, over a world. -/
def start (world : World) : Context where
  machine := ⟨world, 0, [], fun _ => false, ⟨0, 0, 0, 0, 0⟩⟩
  driver :=
    { online := false, bootFault := false, owner := none, clockOpen := false, pmOpen := false
      clockLease := false, pmLease := false, powered := false, claimed := false, woke := false
      memorySession := false, guardsClean := false, fixed := fun _ => none
      space := ⟨fun _ => Object.empty, 0, 0, 0, fun _ => 0⟩
      tableDma := 0, memorySubmitted := 0, memoryCompleted := 0, computeSubmitted := 0, computeCompleted := 0
      renderSubmitted := 0, renderCompleted := 0, guardFailures := 0, scratchWrites := 0
      idents := ⟨0, fun _ => 0, fun _ => 0, 0, 0, 0, 0⟩, lastStatus := none }

def run (world : World) (calls : List Call) : Context := calls.foldl step (start world)

end Pi5Drivers.V3d
