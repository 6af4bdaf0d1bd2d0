import Pi5Drivers.Gpu.Allocation
import Pi5Drivers.Lib.Observed
import Pi5Drivers.Lib.Painted

/-! Present packets: how one is built, checked against the allocations it is for, again when they are
resident, and what the worker does with it. Rectangles come from the runtime, with signed
coordinates. -/

namespace Pi5Drivers.Gpu

open Effect Recorded

namespace Present

inductive Status
  | invalidParameter | notSupported | invalidHandle | insufficientDmaBuffer
  | other (code : ℕ)
deriving DecidableEq

structure Rect where
  left : ℤ
  top : ℤ
  right : ℤ
  bottom : ℤ
deriving DecidableEq

/-- `PresentPacket`, with as many rectangles as it counts. -/
structure Packet where
  flags : BitVec 32
  color : BitVec 32
  interval : ℕ
  source : Rect
  destination : Rect
  rects : List Rect

def Packet.fill (p : Packet) : Bool := p.flags &&& 2 ≠ 0

def Packet.flip (p : Packet) : Bool := p.flags &&& 4 ≠ 0

/-- `sizeof(PresentPacket)`. -/
def presentPacketBytes : ℕ := 1072

/-- `Allocation`, which belongs to an adapter. -/
structure Allocation where
  info : AllocationInfo
  adapter : ℕ
  identity : ℕ

/-- `OpenAllocation`, which belongs to a device. -/
structure OpenAllocation where
  allocation : Option Allocation
  device : ℕ
  readOnly : Bool

/-- `DXGK_ALLOCATIONLIST`. -/
structure Entry where
  opened : Option OpenAllocation
  segmentId : ℕ
  physicalAddress : ℕ

/-- `Reference`, with an offset when the allocation is resident. -/
structure Reference where
  info : AllocationInfo
  offset : Option ℕ
  identity : ℕ

/-- `Dma` of a present packet. -/
structure Dma where
  bytes : ℕ
  count : ℕ
  refs : List Reference

/-- The adapter of a device, with its memory and where that is mapped. -/
structure Adapter where
  id : ℕ
  memory : ℕ
  memoryBytes : ℕ

def Adapter.range (a : Adapter) (offset bytes : ℕ) : Bool := offset ≤ a.memoryBytes ∧ bytes ≤ a.memoryBytes - offset

def sourceIndex : ℕ := 1
def destinationIndex : ℕ := 2

/-! ### Checks -/

/-- `RectInside`. -/
def Rect.inside (r : Rect) (info : AllocationInfo) : Bool :=
  0 ≤ r.left ∧ 0 ≤ r.top ∧ r.left ≤ r.right ∧ r.top ≤ r.bottom ∧ r.right ≤ info.width ∧ r.bottom ≤ info.height

/-- A sub-rectangle is inside the allocation, and inside the rectangle it is part of. -/
def Rect.part (r destination : Rect) (info : AllocationInfo) : Bool :=
  r.inside info ∧ destination.left ≤ r.left ∧ destination.top ≤ r.top ∧ r.right ≤ destination.right ∧
    r.bottom ≤ destination.bottom

/-- One reference, from its entry of the list. -/
def reference (a : Adapter) (device : ℕ) (write resident : Bool) : Option Entry → Except Status Reference
  | none => .error .invalidParameter
  | some entry =>
    match entry.opened with
    | none => .error .invalidHandle
    | some opened =>
      match opened.allocation with
      | none => .error .invalidHandle
      | some allocation =>
        if opened.device ≠ device ∨ allocation.adapter ≠ a.id ∨ (write = true ∧ opened.readOnly = true) ∨ 1 < entry.segmentId ∨
            (resident = true ∧ entry.segmentId ≠ 1) then .error .invalidHandle
        else if validateAllocation allocation.info = false ∨ allocation.info.dimension ≠ 3 ∨
            (allocation.info.format ≠ 87 ∧ allocation.info.format ≠ 88) then .error .notSupported
        else if entry.segmentId = 1 ∧ a.range entry.physicalAddress allocation.info.bytes = false then .error .invalidParameter
        else .ok ⟨allocation.info, if entry.segmentId = 1 then some entry.physicalAddress else none, allocation.identity⟩

/-- The `i`-th reference of a packet, from the list. -/
def referenceOf (a : Adapter) (device : ℕ) (p : Packet) (resident : Bool) (list : List Entry) (i : ℕ) : Except Status Reference :=
  reference a device (p.fill || i ≠ 0) resident list[if p.fill || i ≠ 0 then destinationIndex else sourceIndex]?

def references (f : ℕ → Except Status Reference) : ℕ → Except Status (List Reference)
  | 0 => .ok []
  | n + 1 => do
    let refs ← references f n
    let r ← f n
    .ok (refs ++ [r])

/-- Two resident allocations share bytes. -/
def Reference.overlap (r s : Reference) : Bool :=
  match r.offset, s.offset with
  | some offset, some offset' => offset < offset' + s.info.bytes ∧ offset' < offset + r.info.bytes
  | _, _ => false

/-- The rectangles of a copy or a fill fit. -/
def fits (p : Packet) : List Reference → Except Status Unit
  | [dst] => if p.rects.all (·.part p.destination dst.info) then .ok () else .error .invalidParameter
  | [src, dst] =>
    if p.source.inside src.info = false ∨ p.source.right - p.source.left ≠ p.destination.right - p.destination.left ∨
        p.source.bottom - p.source.top ≠ p.destination.bottom - p.destination.top then .error .notSupported
    else if p.rects.all (·.part p.destination dst.info) then .ok () else .error .invalidParameter
  | _ => .error .invalidParameter

/-- What is refused of the references of a packet. -/
def refused (p : Packet) (refs : List Reference) : Except Status Unit :=
  match refs with
  | [src, dst] => if src.overlap dst then .error .notSupported else if p.flip then .ok () else fits p refs
  | _ => if p.flip then .ok () else fits p refs

/-- `PresentReferences`. -/
def presentReferences (a : Adapter) (device : ℕ) (p : Packet) (d : Dma) (list : Option (List Entry)) (resident : Bool) :
    Except Status (List Reference) :=
  match list with
  | none => .error .invalidParameter
  | some list =>
    if d.bytes ≠ presentPacketBytes ∨ d.count ≠ (if p.fill || p.flip then 1 else 2) then .error .invalidParameter
    else do
      let refs ← references (referenceOf a device p resident list) d.count
      refused p refs
      .ok refs

/-! ### Building a packet -/

/-- `DXGKARG_PRESENT`, where a buffer that is not there has no size. -/
structure Args where
  dmaSize : Option ℕ
  hasPrivateData : Bool
  multipassOffset : ℕ
  flags : BitVec 32
  color : BitVec 32
  source : Rect
  destination : Rect
  subRects : Option (List Rect)
  subRectCount : ℕ
  flipInterval : ℕ
  list : Option (List Entry)
  patches : Option ℕ

/-- One of copy, colour fill and flip is asked for. -/
def oneKind (flags : BitVec 32) : Bool := (flags &&& 7 = 1) ∨ (flags &&& 7 = 2) ∨ (flags &&& 7 = 4)

def packetOf (args : Args) : Packet :=
  { flags := args.flags
    color := args.color
    interval := args.flipInterval
    source := args.source
    destination := args.destination
    rects :=
      if args.subRectCount ≠ 0 then (args.subRects.getD []).take args.subRectCount
      else if args.flags &&& 4 = 0 then [args.destination] else [] }

/-- `FullPresent` with a buffer for the packet. -/
def fullPresent (a : Adapter) (device : ℕ) (args : Args) : Except Status (Packet × Dma) :=
  match args.dmaSize with
  | none => .error .insufficientDmaBuffer
  | some size =>
    if size < presentPacketBytes then .error .insufficientDmaBuffer
    else if args.hasPrivateData = false ∨ args.multipassOffset ≠ 0 ∨ 64 < args.subRectCount ∨
        (args.subRectCount ≠ 0 ∧ args.subRects = none) ∨ args.flags &&& ~~~15 ≠ 0 ∨ oneKind args.flags = false then
      .error .notSupported
    else do
      let p := packetOf args
      let d : Dma := ⟨presentPacketBytes, if p.flip || p.fill then 1 else 2, []⟩
      let refs ← presentReferences a device p d args.list false
      if args.patches.getD 0 < d.count then .error .insufficientDmaBuffer else .ok (p, { d with refs := refs })

/-- A packet that is built, and whose references are accepted again when the allocations are resident. -/
def patched (a : Adapter) (device : ℕ) (args : Args) (list : Option (List Entry)) : Except Status (Packet × Dma) := do
  let (p, d) ← fullPresent a device args
  let refs ← presentReferences a device p d list true
  .ok (p, { d with refs := refs })

/-! ### The worker -/

/-- What the renderer brings to memory before it is accessed, and how a flip or a refresh ends. -/
structure World where
  sync : ℕ → (offset bytes : ℕ) → Bool → Memory → Except Status Memory
  scanout : ℕ → Except Status Unit
  refresh : ℕ → Except Status Unit

/-- Accesses to the memory of the adapter, by the worker itself. -/
inductive Event
  | read (offset bytes : ℕ)
  | wrote (offset bytes : ℕ)

abbrev Context := Recorded World Memory Event

abbrev Drive (α : Type) := Effect Context Status α

def load (offset bytes : ℕ) : Drive (List (BitVec 8)) := do
  record (.read offset bytes)
  let m ← look
  pure (m.bytesAt offset bytes)

def store (offset : ℕ) (bytes : List (BitVec 8)) : Drive Unit := do
  record (.wrote offset bytes.length)
  change (Memory.put offset bytes)

/-- `SIZE_T` of a signed number. -/
def sizeT (x : ℤ) : ℕ := (x % 2 ^ 64).toNat

/-- `CopyGraphicsMemory` accesses words when both sides and the size are multiples of words, and bytes
otherwise. -/
def copyUnit (a : Adapter) (destination source bytes : ℕ) : ℕ :=
  if (a.memory + destination) % 4 = 0 ∧ (a.memory + source) % 4 = 0 ∧ bytes % 4 = 0 then 4 else 1

def copyGraphicsMemory (a : Adapter) (destination source bytes : ℕ) : Drive Unit :=
  let unit := copyUnit a destination source bytes
  each (fun i => do
    let loaded ← load (source + i * unit) unit
    store (destination + i * unit) loaded) (List.range (bytes / unit))

def colorBytes (color : BitVec 32) : List (BitVec 8) := (List.range 4).map fun k => color.extractLsb' (8 * k) 8

def fillRow (row : ℕ) (pixels : ℕ) (color : BitVec 32) : Drive Unit :=
  each (fun i => store (row + i * 4) (colorBytes color)) (List.range pixels)

/-- The rows of a rectangle. -/
def Rect.rows (r : Rect) : List ℤ := (List.range (r.bottom - r.top).toNat).map fun k : ℕ => r.top + k

/-- Where a row of a rectangle is in the destination. -/
def rowAt (offset : ℕ) (info : AllocationInfo) (r : Rect) (y : ℤ) : ℕ := offset + sizeT y * info.pitch + sizeT r.left * 4

/-- Where it comes from. -/
def inputAt (p : Packet) (offset : ℕ) (info : AllocationInfo) (r : Rect) (y : ℤ) : ℕ :=
  offset + sizeT (p.source.top + y - p.destination.top) * info.pitch + sizeT (p.source.left + r.left - p.destination.left) * 4

/-- One row of a sub-rectangle. -/
def paintRow (a : Adapter) (p : Packet) (refs : List Reference) (r : Rect) (y : ℤ) : Drive Unit :=
  match refs with
  | [dst] => fillRow (rowAt (dst.offset.getD 0) dst.info r y) (r.right - r.left).toNat p.color
  | [src, dst] =>
    copyGraphicsMemory a (rowAt (dst.offset.getD 0) dst.info r y) (inputAt p (src.offset.getD 0) src.info r y)
      (sizeT (r.right - r.left) * 4)
  | _ => pure ()

/-- All sub-rectangles, row by row. -/
def paint (a : Adapter) (p : Packet) (refs : List Reference) : Drive Unit :=
  each (fun r => each (paintRow a p refs r) r.rows) p.rects

def syncShadows (offset bytes : ℕ) (invalidate : Bool) : Drive Unit := do
  let f ← ask fun world time => world.sync time offset bytes invalidate
  let m ← look
  let m ← ofExcept (f m)
  change fun _ => m

/-- What was rendered of the allocations is brought to memory; the destination is going to change. -/
def syncAll (p : Packet) (refs : List Reference) : Drive Unit :=
  each (fun x => syncShadows (x.1.offset.getD 0) x.1.info.bytes (p.fill || x.2 ≠ 0)) refs.zipIdx

/-- The allocations are still inside the memory. -/
def inRange (a : Adapter) (refs : List Reference) : Bool :=
  refs.all fun r => match r.offset with
    | some offset => a.range offset r.info.bytes
    | none => false

def blit (a : Adapter) (p : Packet) (refs : List Reference) : Drive Unit := do
  syncAll p refs
  paint a p refs
  let answer ← ask fun world time => world.refresh time
  ofExcept answer

def scanout : Drive Unit := do
  let answer ← ask fun world time => world.scanout time
  ofExcept answer

/-- `PresentWork`, for a submission of some bytes of the packet. -/
def presentWork (a : Adapter) (p : Packet) (d : Dma) (start stop : ℕ) : Drive Unit := do
  require (start = 0 ∧ stop = presentPacketBytes ∧ d.bytes = presentPacketBytes ∧ d.count ≠ 0 ∧ d.count ≤ 2) .invalidParameter
  require (p.interval ≤ 4 ∧ p.rects.length ≤ 64) .invalidParameter
  require (inRange a d.refs = true) .invalidParameter
  if p.flip then scanout else blit a p d.refs

end Present

end Pi5Drivers.Gpu
