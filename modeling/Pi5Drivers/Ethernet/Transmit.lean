import Mathlib.Logic.Function.Basic
import Pi5Drivers.Lib.Runs
import Pi5Drivers.Lib.Window

/-! The transmit ring of the Ethernet miniport. Every section of the driver that holds
the lock is one step, as are the parts of a stop and a start between them, the release
of a descriptor by the hardware, and the return of completed lists to NDIS. -/

namespace Pi5Drivers.Ethernet

/-! ### Descriptors -/

def gemRingSize : ℕ := 512
def gemFrameMax : ℕ := 1514
def gemTxLast : BitVec 32 := 0x8000
def gemTxErrors : BitVec 32 := 0x38000000
def gemTxWrap : BitVec 32 := 0x40000000
def gemTxUsed : BitVec 32 := 0x80000000

/-- The descriptor is the driver's. -/
def Used (control : BitVec 32) : Prop := control &&& gemTxUsed ≠ 0

instance (control : BitVec 32) : Decidable (Used control) := inferInstanceAs (Decidable (_ ≠ _))

/-- The bit that leads the hardware from the last descriptor back to the first. -/
def wrapBit (i : ℕ) : BitVec 32 := if i = gemRingSize - 1 then gemTxWrap else 0

/-- The control word of a descriptor that is handed over. -/
def word (length i : ℕ) : BitVec 32 := BitVec.ofNat 32 length ||| gemTxLast ||| wrapBit i

/-! ### Lists of buffers -/

inductive Status
  | success | failure | paused | mediaDisconnected | invalidLength | resources | closing | sendAborted
deriving DecidableEq, Repr

/-- A frame, and whether it can be mapped. -/
structure NetBuffer where
  bytes : List (BitVec 8)
  mapped : Bool
deriving DecidableEq, Repr

structure NetBufferList where
  id : ℕ
  buffers : List NetBuffer
deriving DecidableEq, Repr

/-- Broadcast, multicast or neither. -/
def frameKind (bytes : List (BitVec 8)) : ℕ :=
  if bytes.take 6 = List.replicate 6 255 then 2 else if bytes.headD 0 &&& 1 ≠ 0 then 1 else 0

/-- A short frame is sent with zeros after it. -/
def paddedLength (length : ℕ) : ℕ := if length < 60 then 60 else length

/-! ### The adapter -/

structure TxSlot where
  nbl : Option ℕ
  length : ℕ
  kind : ℕ
  last : Bool
deriving DecidableEq, Repr

/-- The slot no longer stands for a list. -/
def TxSlot.clear (slot : TxSlot) : TxSlot := { slot with nbl := none }

structure Statistics where
  txFrames : ℕ → ℕ
  txKindBytes : ℕ → ℕ
  txBytes : ℕ
  txErrors : ℕ
  txDiscards : ℕ

/-- How far a stop or a start has come. One of them at a time runs, as a mutex is held. -/
inductive Phase
  | down | starting | up | stopping | stopped
deriving DecidableEq, Repr

/-- What is done to lists and descriptors. `submitted` comes with the number of buffers,
`stopped` says that the hardware was given the time to finish, and `completed` that a
list goes back to NDIS. -/
inductive Event
  | submitted (id n : ℕ)
  | published (id i : ℕ)
  | accepted (id : ℕ)
  | rejected (id : ℕ)
  | released (i : ℕ)
  | stopped
  | completed (id : ℕ)
deriving DecidableEq, Repr

structure Adapter where
  running : Bool
  speed : ℕ
  surpriseRemoved : Bool
  fault : Bool
  retainDma : Bool
  dmaTouched : Bool
  recoveryRequested : BitVec 32
  txHead : ℕ
  txTail : ℕ
  txCount : ℕ
  tx : ℕ → TxSlot
  statistics : Statistics
  phase : Phase
  /-- The control words of the descriptors and the frames they stand for. -/
  control : ℕ → BitVec 32
  frame : ℕ → List (BitVec 8)
  /-- The hardware may process descriptors, and this one is next. -/
  busy : Bool
  position : ℕ
  /-- The status of every list. -/
  status : ℕ → Status
  /-- The lists that left the ring and did not yet go back. -/
  returning : List (List ℕ)
  trace : List Event

namespace Adapter

def record (a : Adapter) (e : Event) : Adapter := { a with trace := e :: a.trace }

def setStatus (a : Adapter) (id : ℕ) (s : Status) : Adapter := { a with status := Function.update a.status id s }

def setSlot (a : Adapter) (i : ℕ) (slot : TxSlot) : Adapter := { a with tx := Function.update a.tx i slot }

def count (a : Adapter) (f : Statistics → Statistics) : Adapter := { a with statistics := f a.statistics }

/-- Lists that go back after the lock is released, if there are any. -/
def complete (a : Adapter) (lists : List ℕ) : Adapter :=
  if lists = [] then a else { a with returning := lists :: a.returning }

/-! ### Send -/

/-- Counts buffers as long as their lengths are valid. -/
def countBuffers : ℕ → List NetBuffer → ℕ × Bool
  | n, [] => (n, true)
  | n, b :: l =>
    if gemRingSize ≤ n + 1 ∨ b.bytes.length < 14 ∨ gemFrameMax < b.bytes.length then (n + 1, false)
    else countBuffers (n + 1) l

/-- How many buffers there are, and whether the ring takes them. -/
def admission (a : Adapter) (buffers : List NetBuffer) : ℕ × Status :=
  if a.running = false ∨ a.surpriseRemoved = true then (0, .paused)
  else if a.speed = 0 then (0, .mediaDisconnected)
  else
    let (n, valid) := countBuffers 0 buffers
    (n, if gemRingSize - 1 - a.txCount < n then .resources
      else if n = 0 ∨ valid = false then .invalidLength
      else .success)

/-- A frame is copied for the descriptor. -/
def fill (a : Adapter) (i : ℕ) (bytes : List (BitVec 8)) : Adapter :=
  let padded := paddedLength bytes.length
  { a.setSlot i { a.tx i with length := padded, kind := frameKind bytes } with
    frame := Function.update a.frame i (bytes ++ List.replicate (padded - bytes.length) 0) }

/-- All frames are copied while the descriptors are still the driver's. -/
def stage : Adapter → ℕ → List NetBuffer → Adapter × ℕ × Status
  | a, index, [] => (a, index, .success)
  | a, index, b :: l =>
    if b.mapped = true then stage (a.fill index b.bytes) ((index + 1) % gemRingSize) l else (a, index, .resources)

def publishAt (a : Adapter) (id i : ℕ) (last : Bool) : Adapter :=
  { a.setSlot i { a.tx i with nbl := some id, last := last } with
    control := Function.update a.control i (word (a.tx i).length i)
    trace := .published id i :: a.trace }

/-- The first of `count` descriptors is handed over last. -/
def publish (id count : ℕ) : ℕ → Adapter → Adapter
  | 0, a => a
  | j + 1, a => publish id count j (a.publishAt id ((a.txHead + j) % gemRingSize) (j + 1 = count))

/-- The list is not sent. -/
def reject (a : Adapter) (id : ℕ) (s : Status) : Adapter :=
  ((a.setStatus id s).count fun c => { c with txDiscards := c.txDiscards + 1 }).record (.rejected id)

/-- The list is handed to the hardware. -/
def accept (a : Adapter) (id n index : ℕ) : Adapter :=
  let a := (publish id n n (a.setStatus id .success)).record (.accepted id)
  { a with txCount := a.txCount + n, txHead := index }

/-- One list, and the lists that are not sent. -/
def sendOne (a : Adapter) (completed : List ℕ) (l : NetBufferList) : Adapter × List ℕ :=
  let a := a.record (.submitted l.id l.buffers.length)
  match a.admission l.buffers with
  | (n, .success) =>
    match a.stage a.txHead l.buffers with
    | (a, index, .success) => (a.accept l.id n index, completed)
    | (a, _, s) => (a.reject l.id s, l.id :: completed)
  | (_, s) => (a.reject l.id s, l.id :: completed)

def sendAll : Adapter → List ℕ → List NetBufferList → Adapter × List ℕ
  | a, completed, [] => (a, completed)
  | a, completed, l :: lists =>
    let (a, completed) := a.sendOne completed l
    sendAll a completed lists

def send (a : Adapter) (lists : List NetBufferList) : Adapter :=
  let (a, completed) := a.sendAll [] lists
  a.complete completed

/-! ### Completion -/

/-- A descriptor without a list ends all transmission. -/
def corrupt (a : Adapter) : Adapter :=
  { a with running := false, recoveryRequested := a.recoveryRequested ||| 0x40000000 }

/-- A frame that was sent is counted. -/
def account (a : Adapter) (id : ℕ) (slot : TxSlot) (control : BitVec 32) : Adapter :=
  if control &&& gemTxErrors ≠ 0 then (a.setStatus id .failure).count fun c => { c with txErrors := c.txErrors + 1 }
  else a.count fun c =>
    { c with
      txFrames := Function.update c.txFrames slot.kind (c.txFrames slot.kind + 1)
      txKindBytes := Function.update c.txKindBytes slot.kind (c.txKindBytes slot.kind + slot.length)
      txBytes := c.txBytes + slot.length }

/-- The slot at the tail is taken back. -/
def advance (a : Adapter) : Adapter :=
  { a.setSlot a.txTail (a.tx a.txTail).clear with
    txTail := (a.txTail + 1) % gemRingSize
    txCount := a.txCount - 1 }

/-- Takes back the slots that the hardware released, at most as many as there are. -/
def completeSlots : ℕ → Adapter → List ℕ → Adapter × List ℕ
  | 0, a, completed => (a, completed)
  | n + 1, a, completed =>
    if a.running = true ∧ Used (a.control a.txTail) then
      match (a.tx a.txTail).nbl with
      | none => (a.corrupt, completed)
      | some id =>
        completeSlots n (a.account id (a.tx a.txTail) (a.control a.txTail)).advance
          (if (a.tx a.txTail).last = true then id :: completed else completed)
    else (a, completed)

def completeTransmit (a : Adapter) : Adapter :=
  let (a, completed) := completeSlots a.txCount a []
  a.complete completed

/-! ### Stop and start -/

def stopHardware (a : Adapter) : Adapter :=
  { a with running := false, speed := 0, recoveryRequested := 0, phase := .stopping }

def halted (a : Adapter) : Adapter := { a with phase := .stopped, trace := .stopped :: a.trace }

/-- The hardware gets the time to finish. It is no longer busy when it says so. -/
def drain (a : Adapter) (idle : Bool) : Adapter :=
  if a.dmaTouched = true ∧ a.surpriseRemoved = false then
    if idle = true then { a.halted with busy := false } else { a.halted with retainDma := true, fault := true }
  else a.halted

/-- The slots are emptied in order. -/
def discardSlots (s : Status) : List ℕ → Adapter → List ℕ → Adapter × List ℕ
  | [], a, completed => (a, completed)
  | i :: l, a, completed =>
    match (a.tx i).nbl, (a.tx i).last with
    | some id, true =>
      discardSlots s l (((a.setStatus id s).count fun c => { c with txDiscards := c.txDiscards + 1 }).setSlot i
        (a.tx i).clear) (id :: completed)
    | _, _ => discardSlots s l (a.setSlot i (a.tx i).clear) completed

def finishStop (a : Adapter) (s : Status) : Adapter :=
  let (a, completed) := discardSlots s (List.range gemRingSize) a []
  { a with txCount := 0, txHead := 0, txTail := 0, phase := .down }.complete completed

/-- The rings are initialised, and the hardware is pointed to them. -/
def initRings (a : Adapter) : Adapter :=
  { a with control := fun i => gemTxUsed ||| wrapBit i, position := 0, phase := .starting }

def startHardware (a : Adapter) (speed : ℕ) : Adapter :=
  { a with
    speed := speed, running := true, phase := .up
    dmaTouched := a.dmaTouched || speed != 0
    busy := a.busy || speed != 0 }

/-! ### The hardware, and what else happens -/

/-- The hardware has sent a frame, or failed to, and gives the descriptor back. -/
def release (a : Adapter) (errors : BitVec 32) : Adapter :=
  let c := a.control a.position
  { a with
    control := Function.update a.control a.position (c ||| gemTxUsed ||| (errors &&& gemTxErrors))
    position := if c &&& gemTxWrap ≠ 0 then 0 else a.position + 1
    trace := .released a.position :: a.trace }

/-- Lists go back to NDIS. -/
def deliver (a : Adapter) (n : ℕ) : Adapter :=
  { a with
    returning := a.returning.eraseIdx n
    trace := ((a.returning.getD n []).map Event.completed).reverse ++ a.trace }

/-- The lists that are to be cancelled are marked; their frames are with the hardware. -/
def cancelSend (a : Adapter) (chosen : ℕ → Bool) : Adapter :=
  { a with
    status := fun id =>
      if chosen id = true ∧ ∃ i < gemRingSize, (a.tx i).nbl = some id ∧ (a.tx i).last = true then .sendAborted
      else a.status id }

/-- NDIS does not send a list that it did not get back. -/
def Free (a : Adapter) (id : ℕ) : Prop := (∀ i < gemRingSize, (a.tx i).nbl ≠ some id) ∧ ∀ l ∈ a.returning, id ∉ l

instance (a : Adapter) (id : ℕ) : Decidable (a.Free id) := inferInstanceAs (Decidable (_ ∧ _))

end Adapter

/-! ### Steps -/

inductive Action
  | send (lists : List NetBufferList)
  | completeTransmit
  | stopHardware
  | drain (idle : Bool)
  | finishStop (status : Status)
  | initRings
  | startHardware (speed : ℕ)
  | release (errors : BitVec 32)
  | deliver (n : ℕ)
  | cancelSend (chosen : ℕ → Bool)
  /-- The deferred procedure saw a fatal event. -/
  | halt (reason : BitVec 32)
  /-- The device disappeared. -/
  | remove

open Adapter

/-- When a step is possible. -/
def Possible (a : Adapter) : Action → Prop
  | .send lists => (lists.map NetBufferList.id).Nodup ∧ ∀ l ∈ lists, a.Free l.id
  | .completeTransmit | .cancelSend _ | .halt _ => True
  | .stopHardware | .remove => a.phase = .up ∨ a.phase = .down
  | .drain _ => a.phase = .stopping
  | .finishStop _ => a.phase = .stopped
  | .initRings => a.phase = .down ∧ a.fault = false ∧ a.surpriseRemoved = false
  | .startHardware _ => a.phase = .starting
  | .release _ => a.busy = true ∧ ¬Used (a.control a.position)
  | .deliver n => n < a.returning.length

instance (a : Adapter) : (e : Action) → Decidable (Possible a e)
  | .send _ => inferInstanceAs (Decidable (_ ∧ _))
  | .completeTransmit | .cancelSend _ | .halt _ => .isTrue trivial
  | .stopHardware | .remove => inferInstanceAs (Decidable (_ ∨ _))
  | .drain _ | .finishStop _ | .startHardware _ => inferInstanceAs (Decidable (_ = _))
  | .initRings | .release _ => inferInstanceAs (Decidable (_ ∧ _))
  | .deliver _ => inferInstanceAs (Decidable (_ < _))

def step (a : Adapter) : Action → Adapter
  | .send lists => a.send lists
  | .completeTransmit => a.completeTransmit
  | .stopHardware => a.stopHardware
  | .drain idle => a.drain idle
  | .finishStop s => a.finishStop s
  | .initRings => a.initRings
  | .startHardware speed => a.startHardware speed
  | .release errors => a.release errors
  | .deliver n => a.deliver n
  | .cancelSend chosen => a.cancelSend chosen
  | .halt reason => { a with running := false, recoveryRequested := a.recoveryRequested ||| reason }
  | .remove => { a with surpriseRemoved := true, retainDma := true, running := false }

/-- An adapter that was not started yet. -/
def adapter : Adapter where
  running := false
  speed := 0
  surpriseRemoved := false
  fault := false
  retainDma := false
  dmaTouched := false
  recoveryRequested := 0
  txHead := 0
  txTail := 0
  txCount := 0
  tx := fun _ => ⟨none, 0, 0, false⟩
  statistics := ⟨fun _ => 0, fun _ => 0, 0, 0, 0⟩
  phase := .down
  control := fun _ => 0
  frame := fun _ => []
  busy := false
  position := 0
  status := fun _ => .success
  returning := []
  trace := []

/-- The miniport and its hardware. -/
def miniport : System Adapter Action where
  init := adapter
  next a e := if Possible a e then some (step a e) else none

end Pi5Drivers.Ethernet
