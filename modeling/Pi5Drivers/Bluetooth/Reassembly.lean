import Pi5Drivers.Lib.Effect
import Pi5Drivers.Lib.Framing
import Mathlib.Data.List.TakeDrop

/-! Bytes from the Bluetooth controller come in chunks that say nothing about packets. The
driver puts the packets together again, whatever the chunks are. -/

namespace Pi5Drivers.Bluetooth

open Effect

/-! ### Packets of the stream -/

def hciPacketAclData : UInt8 := 2

def hciPacketEvent : UInt8 := 4

def hciMaxAclPayloadSize : ℕ := 1021

/-- The bytes that hold a packet without its type. -/
def maxHciAcldataSize : ℕ := 4 + hciMaxAclPayloadSize

def initialH4ReadSize : ℕ := 3

/-- The bytes that a read can bring. -/
def maxH4HciPacketSize : ℕ := 1 + maxHciAcldataSize

structure Packet where
  type : UInt8
  bytes : List UInt8
deriving DecidableEq, Repr

def headerLength (type : UInt8) : ℕ := if type = hciPacketEvent then 2 else 4

/-- The length of the payload as a header declares it. -/
def payloadLength (type : UInt8) (byte : ℕ → UInt8) : ℕ :=
  if headerLength type = 2 then (byte 1).toNat else (byte 2).toNat + (byte 3).toNat * 256

def payloadLimit (type : UInt8) : ℕ := if headerLength type = 2 then 255 else hciMaxAclPayloadSize

/-! ### The driver -/

inductive ReadState
  | type | header | payload
deriving DecidableEq, Repr

inductive Status
  | deviceProtocolError
  | other (code : ℕ)
deriving DecidableEq, Repr

structure ReadContext where
  readSegmentState : ReadState
  bytesReadNextSegment : ℕ
  bytesToRead4FullPacket : ℕ
  type : UInt8
  /-- The packet buffer, and the memory behind it. -/
  raw : ℕ → UInt8

structure Port where
  context : ReadContext
  /-- The packets that were handed on, the oldest first. -/
  packets : List Packet
  /-- Where bytes were stored in the packet buffer, and how many. -/
  stores : List (ℕ × ℕ)

abbrev Drive := Effect Port Status

def put (f : ReadContext → ReadContext) : Drive Unit := modify fun p => { p with context := f p.context }

def readSegmentStateSet (newState : ReadState) : Drive Unit :=
  put fun c => match newState with
    | .type => ⟨.type, 0, 0, 0, fun i => if i < 4 then 0 else c.raw i⟩
    | state => { c with readSegmentState := state, bytesReadNextSegment := 0 }

/-- Bytes are copied into the packet buffer. -/
def copy (start : ℕ) (bytes : List UInt8) : Drive Unit := modify fun p =>
  { p with
    stores := (start, bytes.length) :: p.stores
    context.raw := fun i => if start ≤ i ∧ i < start + bytes.length then bytes.getD (i - start) 0 else p.context.raw i }

section Sink

-- What becomes of a packet is not decided here.
variable (sink : List Packet → Packet → Except Status Unit)

def readH4PacketComplete (packet : Packet) : Drive Unit := do
  let p ← get
  modify fun p => { p with packets := p.packets ++ [packet] }
  ofExcept (sink p.packets packet)

def takeType (buffer : List UInt8) : Drive (List UInt8) := do
  let p ← get
  if p.context.readSegmentState = .type then do
    let type :: rest := buffer | pure []
    require (type = hciPacketEvent ∨ type = hciPacketAclData) .deviceProtocolError
    put fun c => { c with type := type }
    readSegmentStateSet .header
    pure rest
  else pure buffer

/-- Adds to the segment at `start` of the packet what the buffer has of the `length` bytes. -/
def takeSegment (start length : ℕ) (buffer : List UInt8) : Drive (List UInt8) := do
  let p ← get
  let read := p.context.bytesReadNextSegment
  require (read ≤ length) .deviceProtocolError
  let bytes := buffer.take (length - read)
  copy (start + read) bytes
  put fun c => { c with
    bytesReadNextSegment := read + bytes.length
    bytesToRead4FullPacket := length - (read + bytes.length) }
  pure (buffer.drop (length - read))

/-- The header of a packet. The payload follows if it is whole. -/
def takeHeader (buffer : List UInt8) : Drive (List UInt8 × Bool) := do
  let p ← get
  if p.context.readSegmentState = .header then do
    let rest ← takeSegment 0 (headerLength p.context.type) buffer
    let p ← get
    if p.context.bytesToRead4FullPacket ≠ 0 then pure (rest, false)
    else do
      readSegmentStateSet .payload
      pure (rest, true)
  else pure (buffer, true)

def takePayload (buffer : List UInt8) : Drive (List UInt8) := do
  let p ← get
  require (p.context.readSegmentState = .payload) .deviceProtocolError
  let header := headerLength p.context.type
  let payload := payloadLength p.context.type p.context.raw
  require (payload ≤ payloadLimit p.context.type) .deviceProtocolError
  let rest ← takeSegment header payload buffer
  let p ← get
  if p.context.bytesToRead4FullPacket = 0 then do
    let status ← (readH4PacketComplete sink ⟨p.context.type, (List.range (header + payload)).map p.context.raw⟩).attempt
    readSegmentStateSet .type
    ofExcept status
    pure rest
  else pure rest

/-- What one round of the loop makes of the bytes that are there. -/
def round (buffer : List UInt8) : Drive (List UInt8) := do
  let buffer ← takeType buffer
  let (buffer, whole) ← takeHeader buffer
  if whole then takePayload sink buffer else pure buffer

/-! ### The end of the loop -/

/-- Some of a packet was read. -/
def Port.begun (p : Port) : Bool := p.context.readSegmentState ≠ .type

theorem takeType_progress (buffer : List UInt8) (p₀ : Port) :
    Triple (· = p₀) (takeType buffer)
      (fun rest p => rest = [] ∨ rest.length < buffer.length ∨ (p = p₀ ∧ p.begun = true ∧ rest = buffer)) fun _ _ => True := by
  refine Triple.get_bind fun p same => Triple.ite (fun _ => ?_) fun other => ?_
  · cases buffer with
    | nil => exact Triple.pure fun _ _ => .inl rfl
    | cons type rest =>
      refine Triple.bind (Q := fun _ _ => True) (Triple.require (fun _ _ _ => trivial) fun _ _ _ => trivial) fun _ => ?_
      refine Triple.bind (Q := fun _ _ => True) (Triple.modify fun _ _ => trivial) fun _ => ?_
      refine Triple.bind (Q := fun _ _ => True) (Triple.modify fun _ _ => trivial) fun _ => ?_
      exact Triple.pure fun _ _ => .inr (.inl (Nat.lt_succ_self _))
  · exact Triple.pure fun q hq => .inr (.inr ⟨hq.trans same, by simpa [Port.begun, hq] using other, rfl⟩)

/-- The bytes of a segment that is not full are all that there were. -/
theorem takeSegment_progress (start length : ℕ) (buffer : List UInt8) :
    Triple (fun _ => True) (takeSegment start length buffer)
      (fun rest p => rest.length ≤ buffer.length ∧ (p.context.bytesToRead4FullPacket ≠ 0 → rest = [])) fun _ _ => True := by
  refine Triple.get_bind fun p _ => ?_
  refine Triple.bind (Q := fun _ _ => True) (Triple.require (fun _ _ _ => trivial) fun _ _ _ => trivial) fun _ => ?_
  refine Triple.bind (Q := fun _ _ => True) (Triple.modify fun _ _ => trivial) fun _ => ?_
  refine Triple.bind (Q := fun _ q => q.context.bytesToRead4FullPacket =
    length - (p.context.bytesReadNextSegment + (buffer.take (length - p.context.bytesReadNextSegment)).length))
    (Triple.modify fun _ _ => rfl) fun _ => Triple.pure fun q hq => ?_
  rw [List.length_take] at hq
  refine ⟨by rw [List.length_drop]; omega, fun more => List.drop_eq_nil_iff.mpr (by omega)⟩

theorem takeHeader_progress (buffer : List UInt8) :
    Triple (fun _ => True) (takeHeader buffer)
      (fun r _ => r.1.length ≤ buffer.length ∧ (r.2 = false → r.1 = [])) fun _ _ => True := by
  refine Triple.get_bind fun p _ => Triple.ite (fun _ => ?_) fun _ => ?_
  · refine Triple.bind ((takeSegment_progress _ _ buffer).mono (fun _ _ => trivial) (fun _ _ h => h) fun _ _ h => h)
      fun rest => Triple.get_bind fun q hq => Triple.ite (fun more => ?_) fun _ => ?_
    · exact Triple.pure fun _ _ => ⟨hq.1, fun _ => hq.2 more⟩
    · refine Triple.bind (Q := fun _ _ => True) (Triple.modify fun _ _ => trivial) fun _ => Triple.pure fun _ _ => ?_
      exact ⟨hq.1, fun bad => absurd bad Bool.noConfusion⟩
  · exact Triple.pure fun _ _ => ⟨Nat.le_refl _, fun bad => absurd bad Bool.noConfusion⟩

theorem takePayload_progress (buffer : List UInt8) :
    Triple (fun _ => True) (takePayload sink buffer)
      (fun rest p => rest.length ≤ buffer.length ∧ (rest = [] ∨ p.begun = false)) fun _ _ => True := by
  refine Triple.get_bind fun p _ => ?_
  refine Triple.bind (Q := fun _ _ => True) (Triple.require (fun _ _ _ => trivial) fun _ _ _ => trivial) fun _ => ?_
  refine Triple.bind (Q := fun _ _ => True) (Triple.require (fun _ _ _ => trivial) fun _ _ _ => trivial) fun _ => ?_
  refine Triple.bind (takeSegment_progress _ _ buffer) fun rest => Triple.get_bind fun q hq => ?_
  refine Triple.ite (fun _ => ?_) fun more => Triple.pure fun _ _ => ⟨hq.1, .inl (hq.2 more)⟩
  refine Triple.bind (Q := fun _ _ => True) (fun _ _ => trivial) fun status => ?_
  refine Triple.bind (Q := fun _ t => t.begun = false) (Triple.modify fun _ _ => rfl) fun _ => ?_
  refine Triple.bind (Triple.ofExcept (fun _ _ h => h) fun _ _ _ => trivial) fun _ => ?_
  exact Triple.pure fun _ ht => ⟨hq.1, .inr ht⟩

/-- How much a port still has to do with some bytes. -/
def Port.work (p : Port) (buffer : List UInt8) : ℕ := 2 * buffer.length + p.begun.toNat

theorem round_progress {buffer : List UInt8} (some_ : buffer ≠ []) (p₀ : Port) :
    Triple (· = p₀) (round sink buffer) (fun rest p => p.work rest < p₀.work buffer) fun _ _ => True := by
  have positive := List.length_pos_iff.mpr some_
  -- What matters of the bytes that follow the type is that a round leaves none, or ends with a packet.
  have after (bytes : List UInt8) (h : ∀ rest (p : Port), rest.length ≤ bytes.length →
      (rest = [] ∨ p.begun = false) → p.work rest < p₀.work buffer) :
      Triple (fun _ => True) (do
        let (bytes, whole) ← takeHeader bytes
        if whole then takePayload sink bytes else pure bytes)
        (fun rest p => p.work rest < p₀.work buffer) fun _ _ => True := by
    refine Triple.bind (takeHeader_progress bytes) ?_
    rintro ⟨left, whole⟩
    cases whole with
    | false => exact Triple.pure fun p hp => h _ p hp.1 (.inl (hp.2 rfl))
    | true =>
      refine Triple.mono (P := fun _ => left.length ≤ bytes.length ∧ True) (Triple.assume fun short => ?_)
        (fun _ hp => ⟨hp.1, trivial⟩) (fun _ _ h => h) fun _ _ h => h
      exact (takePayload_progress sink left).mono (fun _ h => h)
        (fun rest p hp => h rest p (Nat.le_trans hp.1 short) hp.2) fun _ _ h => h
  refine Triple.bind (takeType_progress buffer p₀) fun bytes => ?_
  refine fun p hp => after bytes (fun rest q short done => ?_) trivial
  have unread : q.begun.toNat ≤ 1 := Bool.toNat_le _
  rcases hp with rfl | shorter | ⟨rfl, begun, rfl⟩
  · have none_ : rest.length = 0 := Nat.le_zero.mp short
    unfold Port.work
    omega
  · unfold Port.work
    omega
  · rcases done with rfl | ended
    · unfold Port.work
      simp only [List.length_nil]
      omega
    · unfold Port.work
      rw [ended, begun, Bool.toNat_false, Bool.toNat_true]
      omega

/-- Takes the bytes of a chunk, one packet or a part of one at a time. -/
def readH4PacketReassemble (buffer : List UInt8) (p : Port) : Except Status Unit × Port :=
  match _some : buffer with
  | [] => (.ok (), p)
  | byte :: bytes =>
    match _done : (round sink (byte :: bytes)).run p with
    | (.error s, q) => (.error s, q)
    | (.ok rest, q) => readH4PacketReassemble rest q
termination_by p.work buffer
decreasing_by
  subst _some
  exact (round_progress sink (List.cons_ne_nil byte bytes) p).of_ok rfl _done

end Sink

end Pi5Drivers.Bluetooth
