import Mathlib.Data.List.GetD
import Pi5Drivers.Bluetooth.Reassembly

/-! What the packets of a stream are, and that the driver finds them in whatever chunks the
stream comes. Between two chunks the driver holds the bytes of a packet that is not whole. -/

namespace Pi5Drivers.Bluetooth

open Effect

/-! ### The packets of a stream -/

/-- The payload length in the bytes behind a type. -/
def declared (type : UInt8) (bytes : List UInt8) : ℕ := payloadLength type fun i => bytes.getD i 0

/-- The length of a packet without its type. -/
def packetLength (type : UInt8) (bytes : List UInt8) : ℕ := headerLength type + declared type bytes

/-- A type, a header and the payload that it declares. -/
def h4Next : List UInt8 → Front UInt8 Packet Status
  | [] => .more
  | type :: bytes =>
    if type ≠ hciPacketEvent ∧ type ≠ hciPacketAclData then .bad .deviceProtocolError
    else if bytes.length < headerLength type then .more
    else if maxHciAcldataSize < packetLength type bytes then .bad .deviceProtocolError
    else if bytes.length < packetLength type bytes then .more
    else .item ⟨type, bytes.take (packetLength type bytes)⟩ (bytes.drop (packetLength type bytes))

variable {type : UInt8} {bytes more rest : List UInt8}

theorem headerLength_cases (type : UInt8) : headerLength type = 2 ∨ headerLength type = 4 := by
  unfold headerLength
  split <;> simp

theorem payloadLength_congr {f g : ℕ → UInt8} (h : ∀ i < headerLength type, f i = g i) :
    payloadLength type f = payloadLength type g := by
  unfold payloadLength
  rcases headerLength_cases type with two | four
  · rw [if_pos two, if_pos two, h 1 (by omega)]
  · rw [if_neg (by omega), if_neg (by omega), h 2 (by omega), h 3 (by omega)]

/-- More bytes do not change what a whole header declares. -/
theorem declared_append (whole : headerLength type ≤ bytes.length) : declared type (bytes ++ more) = declared type bytes :=
  payloadLength_congr fun i hi => by
    rw [List.getD_append _ _ _ _ (by omega)]

theorem packetLength_append (whole : headerLength type ≤ bytes.length) :
    packetLength type (bytes ++ more) = packetLength type bytes := by
  rw [packetLength, packetLength, declared_append whole]

/-- The driver's limits are those of its buffer. -/
theorem payloadLimit_iff (f : ℕ → UInt8) : payloadLength type f ≤ payloadLimit type ↔
    headerLength type + payloadLength type f ≤ maxHciAcldataSize := by
  unfold payloadLimit payloadLength maxHciAcldataSize hciMaxAclPayloadSize
  rcases headerLength_cases type with two | four
  · have byte : (f 1).toNat < 256 := UInt8.toNat_lt _
    simp only [if_pos two]
    omega
  · simp only [if_neg (show headerLength type ≠ 2 by omega)]
    omega

theorem headerLength_pos (type : UInt8) : 0 < headerLength type := by
  rcases headerLength_cases type with h | h <;> omega

def h4 : Framing UInt8 Packet Status where
  next := h4Next
  nothing := rfl
  shorter {s rest b} h := by
    cases s with
    | nil => cases h
    | cons type bytes =>
      simp only [h4Next] at h
      split at h
      · cases h
      split at h
      · cases h
      split at h
      · cases h
      split at h
      · cases h
      · cases h
        rw [List.length_drop, List.length_cons]
        omega
  item_append {s rest b} t h := by
    cases s with
    | nil => cases h
    | cons type bytes =>
      simp only [h4Next, List.cons_append] at h ⊢
      split at h
      · cases h
      rename_i known
      split at h
      · cases h
      rename_i header
      split at h
      · cases h
      rename_i fits
      split at h
      · cases h
      rename_i whole
      cases h
      rw [packetLength_append (by omega), if_neg known, List.length_append, if_neg (by omega), if_neg fits, if_neg (by omega),
        List.take_append_of_le_length (by omega), List.drop_append_of_le_length (by omega)]
  bad_append {s e} t h := by
    cases s with
    | nil => cases h
    | cons type bytes =>
      simp only [h4Next, List.cons_append] at h ⊢
      split at h
      · rename_i unknown
        rw [if_pos unknown]
        exact h
      rename_i known
      split at h
      · cases h
      rename_i header
      split at h
      · rename_i long
        rw [packetLength_append (by omega), if_neg known, List.length_append, if_neg (by omega), if_pos long]
        exact h
      split at h <;> cases h

/-! ### What the driver holds -/

/-- The bytes of a packet that were read so far, its type in front. -/
structure Reading (c : ReadContext) (type : UInt8) (bytes : List UInt8) : Prop where
  known : type = hciPacketEvent ∨ type = hciPacketAclData
  same : c.type = type
  raw : ∀ i < bytes.length, c.raw i = bytes.getD i 0

/-- In the header. -/
structure InHeader (c : ReadContext) (type : UInt8) (bytes : List UInt8) : Prop extends Reading c type bytes where
  state : c.readSegmentState = .header
  short : bytes.length < headerLength type
  read : c.bytesReadNextSegment = bytes.length

/-- In the payload, or where it begins. Only there the declared length was not looked at yet. -/
structure InPayload (c : ReadContext) (type : UInt8) (bytes : List UInt8) : Prop extends Reading c type bytes where
  state : c.readSegmentState = .payload
  whole : headerLength type ≤ bytes.length
  read : c.bytesReadNextSegment = bytes.length - headerLength type
  short : bytes.length = headerLength type ∨ bytes.length < packetLength type bytes

/-- The driver holds some bytes that are not a whole packet, and knows how many to read next. -/
def Holds (c : ReadContext) : List UInt8 → Prop
  | [] => c.readSegmentState = .type
  | type :: bytes =>
    (InHeader c type bytes ∧ c.bytesToRead4FullPacket = headerLength type - bytes.length) ∨
      (InPayload c type bytes ∧ bytes.length < packetLength type bytes ∧ packetLength type bytes ≤ maxHciAcldataSize ∧
        c.bytesToRead4FullPacket = packetLength type bytes - bytes.length)

/-- Every store was inside the packet buffer. -/
def InBounds (stores : List (ℕ × ℕ)) : Prop := ∀ s ∈ stores, s.1 + s.2 ≤ maxHciAcldataSize

/-- The packets that were handed on, while nothing was stored outside the buffer. -/
def Has (packets : List Packet) (p : Port) : Prop := p.packets = packets ∧ InBounds p.stores

section Round

variable {packets : List Packet} {buffer : List UInt8} {sink : List Packet → Packet → Except Status Unit}

theorem payloadLength_reading {c : ReadContext} (h : Reading c type bytes) (whole : headerLength type ≤ bytes.length) :
    payloadLength c.type c.raw = declared type bytes := by
  rw [h.same]
  exact payloadLength_congr fun i hi => h.raw i (by omega)

/-- A segment grows by what the buffer has of it. -/
theorem takeSegment_holds (start length : ℕ) (p₀ : Port) (held : Has packets p₀) (reads : Reading p₀.context type bytes)
    (state : p₀.context.bytesReadNextSegment ≤ length) (place : start + p₀.context.bytesReadNextSegment = bytes.length)
    (fits : start + length ≤ maxHciAcldataSize) {E : Status → Port → Prop} :
    Triple (· = p₀) (takeSegment start length buffer)
      (fun rest p => ∃ taken, buffer = taken ++ rest ∧ Has packets p ∧ Reading p.context type (bytes ++ taken) ∧
        p.context.readSegmentState = p₀.context.readSegmentState ∧
        p.context.bytesReadNextSegment = p₀.context.bytesReadNextSegment + taken.length ∧
        p.context.bytesReadNextSegment ≤ length ∧
        p.context.bytesToRead4FullPacket = length - p.context.bytesReadNextSegment ∧
        (p.context.bytesToRead4FullPacket ≠ 0 → rest = [])) E := by
  refine Triple.get_bind fun p same => ?_
  subst same
  refine Triple.bind (Q := fun _ => (· = p)) (Triple.require (fun _ h _ => h) fun _ h bad => absurd state (h ▸ bad)) fun _ => ?_
  let taken := buffer.take (length - p.context.bytesReadNextSegment)
  have count : taken.length = min (length - p.context.bytesReadNextSegment) buffer.length := List.length_take
  refine Triple.bind (Q := fun _ q => Has packets q ∧ Reading q.context type (bytes ++ taken) ∧
    q.context.readSegmentState = p.context.readSegmentState) (Triple.modify ?_) fun _ => ?_
  · rintro q rfl
    refine ⟨⟨held.1, List.forall_mem_cons.mpr ⟨?_, held.2⟩⟩, ⟨reads.known, reads.same, fun i hi => ?_⟩, rfl⟩
    · change start + q.context.bytesReadNextSegment + taken.length ≤ maxHciAcldataSize
      omega
    · change (if start + q.context.bytesReadNextSegment ≤ i ∧ i < start + q.context.bytesReadNextSegment + taken.length then
        taken.getD (i - (start + q.context.bytesReadNextSegment)) 0 else q.context.raw i) = _
      rw [place]
      rw [List.length_append] at hi
      by_cases old : i < bytes.length
      · rw [if_neg (by omega), List.getD_append _ _ _ _ old]
        exact reads.raw i old
      · rw [if_pos (by omega), List.getD_append_right _ _ _ _ (by omega)]
  refine Triple.bind (Q := fun _ q => Has packets q ∧ Reading q.context type (bytes ++ taken) ∧
    q.context.readSegmentState = p.context.readSegmentState ∧
    q.context.bytesReadNextSegment = p.context.bytesReadNextSegment + taken.length ∧
    q.context.bytesToRead4FullPacket = length - (p.context.bytesReadNextSegment + taken.length))
    (Triple.modify fun q hq => ⟨hq.1, ⟨hq.2.1.known, hq.2.1.same, hq.2.1.raw⟩, hq.2.2, rfl, rfl⟩) fun _ => ?_
  refine Triple.pure fun q ⟨has, now, kept, read, left⟩ => ?_
  refine ⟨taken, (List.take_append_drop _ _).symm, has, now, kept, read, by omega, by rw [read, left], fun some_ => ?_⟩
  exact List.drop_eq_nil_iff.mpr (by omega)

theorem takeType_holds {left : List UInt8} (some_ : buffer ≠ []) :
    Triple (fun p => Holds p.context left ∧ Has packets p) (takeType buffer)
      (fun rest p => ∃ type bytes, left ++ buffer = type :: bytes ++ rest ∧ Has packets p ∧
        (InHeader p.context type bytes ∨ InPayload p.context type bytes))
      fun s p => h4Next (left ++ buffer) = .bad s ∧ Has packets p := by
  refine Triple.get_bind fun p ⟨held, has⟩ => Triple.ite (fun fresh => ?_) fun begun => ?_
  · cases left with
    | cons type bytes => rcases held with h | h <;> simp [h.1.state] at fresh
    | nil =>
      obtain ⟨type, rest, rfl⟩ := List.exists_cons_of_ne_nil some_
      refine Triple.bind (Q := fun _ q => (type = hciPacketEvent ∨ type = hciPacketAclData) ∧ q = p)
        (Triple.require (fun _ h known => ⟨known, h⟩) fun q h unknown => ⟨?_, h ▸ has⟩) fun _ => Triple.assume fun known => ?_
      · rw [List.nil_append, h4Next, if_pos (not_or.mp unknown)]
      refine Triple.bind (Q := fun _ q => q.context.type = type ∧ Has packets q)
        (Triple.modify fun q h => ⟨rfl, h ▸ has⟩) fun _ => ?_
      refine Triple.bind (Q := fun _ q => InHeader q.context type [] ∧ Has packets q) (Triple.modify fun q h => ⟨?_, h.2⟩)
        fun _ => Triple.pure fun q h => ⟨type, [], rfl, h.2, .inl h.1⟩
      exact ⟨⟨known, h.1, fun i hi => absurd hi (Nat.not_lt_zero i)⟩, rfl, headerLength_pos type, rfl⟩
  · cases left with
    | nil => exact absurd held begun
    | cons type bytes =>
      refine Triple.pure fun q h => ⟨type, bytes, rfl, h ▸ has, ?_⟩
      exact h ▸ held.imp (fun h => h.1) fun h => h.1

theorem takeHeader_holds {E : Status → Port → Prop} :
    Triple (fun p => (InHeader p.context type bytes ∨ InPayload p.context type bytes) ∧ Has packets p) (takeHeader buffer)
      (fun r p => ∃ taken, buffer = taken ++ r.1 ∧ Has packets p ∧
        if r.2 then InPayload p.context type (bytes ++ taken)
        else r.1 = [] ∧ InHeader p.context type (bytes ++ taken) ∧
          p.context.bytesToRead4FullPacket = headerLength type - (bytes ++ taken).length) E := by
  refine Triple.get_bind fun p ⟨held, has⟩ => Triple.ite (fun state => ?_) fun state => ?_
  · have h : InHeader p.context type bytes := held.resolve_right fun h => by simp [h.state] at state
    have same : p.context.type = type := h.same
    rw [same]
    refine Triple.bind (takeSegment_holds 0 (headerLength type) p has h.toReading (h.read ▸ Nat.le_of_lt h.short) (by rw [h.read, Nat.zero_add])
      (by rcases headerLength_cases type with h | h <;> rw [h] <;> decide)) fun rest => ?_
    refine Triple.get_bind fun q ⟨taken, split, has', reads, kept, read, bound, left, last⟩ => ?_
    have length : (bytes ++ taken).length = q.context.bytesReadNextSegment := by rw [List.length_append, read, h.read]
    refine Triple.ite (fun more => Triple.pure fun t ht => ?_) fun full => ?_
    · refine ⟨taken, split, ht ▸ has', ?_⟩
      rw [if_neg Bool.false_ne_true, ht]
      refine ⟨last more, ⟨reads, kept.trans state, ?_, length.symm⟩, by rw [left, length]⟩
      omega
    · refine Triple.bind (Q := fun _ t => InPayload t.context type (bytes ++ taken) ∧ Has packets t)
        (Triple.modify fun t ht => ⟨?_, ht ▸ has'⟩) fun _ => Triple.pure fun t ht => ⟨taken, split, ht.2, ?_⟩
      · subst ht
        have done : (bytes ++ taken).length = headerLength type := by
          have := not_not.mp full
          omega
        exact ⟨⟨reads.known, reads.same, reads.raw⟩, rfl, Nat.le_of_eq done.symm, (Nat.sub_eq_zero_of_le (Nat.le_of_eq done)).symm,
          .inl done⟩
      · rw [if_pos rfl]
        exact ht.1
  · have h : InPayload p.context type bytes := held.resolve_left fun h => state h.state
    refine Triple.pure fun q hq => ⟨[], rfl, hq ▸ has, ?_⟩
    rw [if_pos rfl, List.append_nil, hq]
    exact h

/-- What a round makes of all the bytes that there are: they are no packet yet, or one is handed on. -/
def Outcome (packets : List Packet) (all rest : List UInt8) (p : Port) : Prop :=
  (h4Next all = .more ∧ rest = [] ∧ Holds p.context all ∧ Has packets p) ∨
    ∃ packet, h4Next all = .item packet rest ∧ Holds p.context [] ∧ Has (packets ++ [packet]) p

theorem readH4PacketComplete_accepts (accepts : ∀ packets packet, sink packets packet = .ok ()) {p : Port}
    (has : Has packets p) (packet : Packet) :
    Triple (· = p) (readH4PacketComplete sink packet)
      (fun a t => (Except.ok a : Except Status Unit) = .ok () ∧ Has (packets ++ [packet]) t)
      fun s t => (Except.error s : Except Status Unit) = .ok () ∧ Has (packets ++ [packet]) t := by
  refine Triple.get_bind fun q hq => ?_
  rw [accepts]
  refine Triple.bind (Q := fun _ t => Has (packets ++ [packet]) t) (Triple.modify fun t ht => ?_) fun _ =>
    Triple.pure fun _ h => ⟨rfl, h⟩
  rw [ht, hq]
  exact ⟨congrArg (· ++ [packet]) has.1, has.2⟩

theorem takePayload_holds (accepts : ∀ packets packet, sink packets packet = .ok ()) :
    Triple (fun p => InPayload p.context type bytes ∧ Has packets p) (takePayload sink buffer)
      (Outcome packets (type :: (bytes ++ buffer)))
      fun s p => h4Next (type :: (bytes ++ buffer)) = .bad s ∧ Has packets p := by
  refine Triple.get_bind fun p ⟨h, has⟩ => ?_
  refine Triple.bind (Q := fun _ => (· = p)) (Triple.require (fun _ hq _ => hq) fun _ _ bad => absurd h.state bad) fun _ => ?_
  have same : p.context.type = type := h.same
  rw [payloadLength_reading h.toReading h.whole, same]
  have known : ¬(type ≠ hciPacketEvent ∧ type ≠ hciPacketAclData) := fun bad => h.known.elim bad.1 bad.2
  have header : ¬(bytes ++ buffer).length < headerLength type := by
    have := h.whole
    rw [List.length_append]
    omega
  have limit : payloadLength type (fun i => bytes.getD i 0) ≤ payloadLimit type ↔ _ := payloadLimit_iff _
  have packet : packetLength type (bytes ++ buffer) = packetLength type bytes := packetLength_append h.whole
  refine Triple.bind (Q := fun _ q => packetLength type bytes ≤ maxHciAcldataSize ∧ q = p)
    (Triple.require (fun q hq small => ⟨limit.mp small, hq⟩) fun q hq long => ⟨?_, hq ▸ has⟩) fun _ => Triple.assume fun fits => ?_
  · have over_ : maxHciAcldataSize < packetLength type bytes := Nat.not_le.mp fun small => long (limit.mpr small)
    rw [h4Next, if_neg known, if_neg header, packet, if_pos over_]
  have counted : packetLength type bytes = headerLength type + declared type bytes := rfl
  have whole := h.whole
  have started := h.read
  have bound : bytes.length ≤ packetLength type bytes := h.short.elim (fun done => by omega) Nat.le_of_lt
  refine Triple.bind (takeSegment_holds (headerLength type) (declared type bytes) p has h.toReading (by omega) (by omega) fits)
    fun rest => Triple.get_bind fun q ⟨taken, split, has', reads, kept, read, within_, left, last⟩ => ?_
  have length : (bytes ++ taken).length = headerLength type + q.context.bytesReadNextSegment := by
    rw [List.length_append]
    omega
  have all : bytes ++ buffer = (bytes ++ taken) ++ rest := by rw [split, List.append_assoc]
  have now : packetLength type (bytes ++ taken) = packetLength type bytes := packetLength_append whole
  refine Triple.ite (fun full => ?_) fun more => Triple.pure fun t ht => ?_
  · have done : (bytes ++ taken).length = packetLength type bytes := by omega
    have bytes_ : (List.range (packetLength type bytes)).map q.context.raw = bytes ++ taken := by
      refine List.ext_getElem (by rw [List.length_map, List.length_range, done]) fun i _ hi => ?_
      rw [List.getElem_map, List.getElem_range, reads.raw i hi, List.getD_eq_getElem _ _ hi]
    have next : h4Next (type :: (bytes ++ buffer)) = .item ⟨type, bytes ++ taken⟩ rest := by
      rw [h4Next, if_neg known, if_neg header, packet, if_neg (by omega), all, if_neg (by rw [List.length_append]; omega),
        ← done, List.take_left, List.drop_left]
    rw [reads.same, ← counted, bytes_]
    refine Triple.bind (Q := fun status t => status = .ok () ∧ Has (packets ++ [⟨type, bytes ++ taken⟩]) t)
      (Triple.attempt (readH4PacketComplete_accepts accepts has' _)) fun status => Triple.assume fun ok => ?_
    rw [ok]
    refine Triple.bind (Q := fun _ (t : Port) => t.context.readSegmentState = .type ∧
      Has (packets ++ [⟨type, bytes ++ taken⟩]) t) (Triple.modify fun t ht => ⟨rfl, ht⟩) fun _ => ?_
    exact Triple.pure fun t ht => .inr ⟨_, next, ht⟩
  · obtain rfl := last more
    have some_ : (bytes ++ taken).length < packetLength type bytes := by omega
    rw [List.append_nil] at all
    refine .inl ⟨?_, rfl, ?_, ht ▸ has'⟩
    · rw [h4Next, if_neg known, if_neg header, packet, if_neg (by omega), all, if_pos some_]
    · rw [all, ht]
      refine .inr ⟨⟨reads, kept.trans h.state, ?_, ?_, .inr (now ▸ some_)⟩, now ▸ some_, now ▸ fits, ?_⟩ <;>
        (try rw [List.length_append] at *) <;> omega

/-- One round is one step of the stream. -/
theorem round_holds (accepts : ∀ packets packet, sink packets packet = .ok ()) {left : List UInt8} (some_ : buffer ≠ []) :
    Triple (fun p => Holds p.context left ∧ Has packets p) (round sink buffer) (Outcome packets (left ++ buffer))
      fun s p => h4Next (left ++ buffer) = .bad s ∧ Has packets p := by
  refine Triple.bind (takeType_holds some_) fun rest => Triple.of_exists fun type => Triple.of_exists fun bytes => ?_
  refine Triple.assume fun split => ?_
  rw [split, List.cons_append]
  refine Triple.bind (takeHeader_holds.mono (fun _ h => h.symm) (fun _ _ h => h) fun _ _ h => h) ?_
  rintro ⟨rest', whole⟩
  refine Triple.of_exists fun taken => Triple.assume fun split' => ?_
  obtain rfl : rest = taken ++ rest' := split'
  rw [← List.append_assoc]
  cases whole with
  | true => exact (takePayload_holds accepts).mono (fun _ h => ⟨h.2, h.1⟩) (fun _ _ h => h) fun _ _ h => h
  | false =>
    refine Triple.pure fun p ⟨has, none_, header, left⟩ => .inl ?_
    obtain rfl : rest' = [] := none_
    rw [List.append_nil]
    have known : ¬(type ≠ hciPacketEvent ∧ type ≠ hciPacketAclData) := fun bad => header.known.elim bad.1 bad.2
    exact ⟨by rw [h4Next, if_neg known, if_pos header.short], rfl, .inl ⟨header, left⟩, has⟩

theorem next_of_holds {c : ReadContext} {left : List UInt8} (h : Holds c left) : h4Next left = .more := by
  cases left with
  | nil => rfl
  | cons type bytes =>
    rcases h with ⟨header, -⟩ | ⟨payload, short, fits, -⟩
    · rw [h4Next, if_neg fun bad => header.known.elim bad.1 bad.2, if_pos header.short]
    · rw [h4Next, if_neg fun bad => payload.known.elim bad.1 bad.2, if_neg (Nat.not_lt.mpr payload.whole),
        if_neg (Nat.not_lt.mpr fits), if_pos short]

/-- What is known after some bytes: the packets are those of the stream, and its rest is held. -/
def Parsed (packets : List Packet) (stream : List UInt8) (p : Port) : Prop :=
  ∃ rest, (h4.parse stream).2 = .ok rest ∧ Holds p.context rest ∧ Has (packets ++ (h4.parse stream).1) p

/-- What is known after a mistake. -/
def Refused (packets : List Packet) (stream : List UInt8) (s : Status) (p : Port) : Prop :=
  (h4.parse stream).2 = .error s ∧ Has (packets ++ (h4.parse stream).1) p

theorem reassemble_nil (p : Port) : Effect.run (readH4PacketReassemble sink []) p = (.ok (), p) := by
  change readH4PacketReassemble sink [] p = _
  rw [readH4PacketReassemble]

theorem reassemble_error {p q : Port} {byte : UInt8} {bytes : List UInt8} {s : Status}
    (done : (round sink (byte :: bytes)).run p = (.error s, q)) :
    Effect.run (readH4PacketReassemble sink (byte :: bytes)) p = (.error s, q) := by
  change readH4PacketReassemble sink (byte :: bytes) p = _
  rw [readH4PacketReassemble]
  split <;> simp_all

theorem reassemble_ok {p q : Port} {byte : UInt8} {bytes rest : List UInt8}
    (done : (round sink (byte :: bytes)).run p = (.ok rest, q)) :
    Effect.run (readH4PacketReassemble sink (byte :: bytes)) p = Effect.run (readH4PacketReassemble sink rest) q := by
  change readH4PacketReassemble sink (byte :: bytes) p = readH4PacketReassemble sink rest q
  rw [readH4PacketReassemble]
  split <;> simp_all

theorem readH4PacketReassemble_holds (accepts : ∀ packets packet, sink packets packet = .ok ()) {left : List UInt8} :
    Triple (fun p => Holds p.context left ∧ Has packets p) (readH4PacketReassemble sink buffer)
      (fun _ => Parsed packets (left ++ buffer)) (Refused packets (left ++ buffer)) := by
  intro p
  induction buffer, p using readH4PacketReassemble.induct sink generalizing left packets with
  | case1 p =>
    rintro ⟨held, has⟩
    rw [List.append_nil, reassemble_nil]
    have parsed := h4.parse_more (next_of_holds held)
    exact ⟨left, by rw [parsed], held, by rwa [parsed, List.append_nil]⟩
  | case2 p byte bytes s q done =>
    rintro ⟨held, has⟩
    obtain ⟨front, has'⟩ := (round_holds accepts (List.cons_ne_nil byte bytes)).of_error ⟨held, has⟩ done
    rw [reassemble_error done]
    have parsed := h4.parse_bad front
    exact ⟨by rw [parsed], by rwa [parsed, List.append_nil]⟩
  | case3 p byte bytes rest q done ih =>
    rintro ⟨held, has⟩
    rw [reassemble_ok done]
    rcases (round_holds accepts (List.cons_ne_nil byte bytes)).of_ok ⟨held, has⟩ done with
      ⟨front, rfl, held', has'⟩ | ⟨packet, front, held', has'⟩
    · rw [reassemble_nil]
      have parsed := h4.parse_more front
      exact ⟨_, by rw [parsed], held', by rwa [parsed, List.append_nil]⟩
    · have later := ih ⟨held', has'⟩
      have parsed := h4.parse_item front
      rcases outcome : Effect.run (readH4PacketReassemble sink rest) q with ⟨s | _, t⟩ <;> rw [outcome] at later
      · obtain ⟨stream, has⟩ := later
        exact ⟨by rw [parsed]; exact stream, by rwa [parsed, List.append_cons]⟩
      · obtain ⟨tail, stream, held, has⟩ := later
        exact ⟨tail, by rw [parsed]; exact stream, held, by rwa [parsed, List.append_cons]⟩

/-- Chunks are taken one after the other until there is a mistake. -/
theorem chunks_hold (accepts : ∀ packets packet, sink packets packet = .ok ()) (chunks : List (List UInt8))
    {left : List UInt8} : Triple (fun p => Holds p.context left ∧ Has packets p)
      (each (fun chunk => readH4PacketReassemble sink chunk) chunks)
      (fun _ => Parsed packets (left ++ chunks.flatten)) (Refused packets (left ++ chunks.flatten)) := by
  induction chunks generalizing left packets with
  | nil =>
    refine Triple.pure fun p ⟨held, has⟩ => ?_
    have parsed := h4.parse_more (next_of_holds held)
    rw [List.flatten_nil, List.append_nil]
    exact ⟨left, by rw [parsed], held, by rwa [parsed, List.append_nil]⟩
  | cons chunk chunks ih =>
    rw [List.flatten_cons, ← List.append_assoc]
    refine Triple.bind ((readH4PacketReassemble_holds accepts).mono (fun _ h => h) (fun _ _ h => h) fun s p h => ?_) fun _ => ?_
    · have stream := h4.parse_append_error chunks.flatten h.1
      exact ⟨by rw [stream], by rw [stream]; exact h.2⟩
    · refine Triple.of_exists fun rest => Triple.assume fun first => ?_
      have stream := h4.parse_append_ok chunks.flatten first
      refine ih.mono (fun _ h => h) (fun _ p h => ?_) fun s p h => ?_
      · obtain ⟨tail, after, held, has⟩ := h
        exact ⟨tail, by rw [stream]; exact after, held, by rwa [stream, ← List.append_assoc]⟩
      · exact ⟨by rw [stream]; exact h.1, by rw [stream, ← List.append_assoc]; exact h.2⟩

end Round

/-! ### The stream -/

/-- The bytes that the next read asks for. -/
def bytesToRead (c : ReadContext) : ℕ :=
  if c.readSegmentState = .type then initialH4ReadSize
  else if c.bytesToRead4FullPacket ≠ 0 then c.bytesToRead4FullPacket
  else maxH4HciPacketSize

/-- The same where the last read ended at once. -/
def bytesToReadAtOnce (c : ReadContext) : ℕ :=
  if c.readSegmentState = .type then initialH4ReadSize else c.bytesToRead4FullPacket

/-- A read that brings in some bytes of the packet that `left` began, and none behind it. -/
def WithinPacket (left : List UInt8) (count : ℕ) : Prop :=
  0 < count ∧ count ≤ maxH4HciPacketSize ∧
    ∀ more, more.length < count → h4.parse (left ++ more) = ([], .ok (left ++ more))

theorem Holds.within {c : ReadContext} {left : List UInt8} (held : Holds c left) (begun : left ≠ []) :
    bytesToReadAtOnce c = bytesToRead c ∧ WithinPacket left (bytesToRead c) := by
  cases left with
  | nil => exact absurd rfl begun
  | cons type bytes =>
    rcases held with ⟨header, asked⟩ | ⟨payload, short, fits, asked⟩
    · have short := header.short
      have state : c.readSegmentState ≠ .type := by simp [header.state]
      have count : bytesToRead c = headerLength type - bytes.length := by
        rw [bytesToRead, if_neg state, if_pos (by omega), asked]
      refine ⟨by rw [count, bytesToReadAtOnce, if_neg state, asked], ?_⟩
      rw [count]
      refine ⟨by omega, ?_, fun more few => h4.parse_more ?_⟩
      · rcases headerLength_cases type with h | h <;> rw [h, maxH4HciPacketSize, maxHciAcldataSize] <;> omega
      · change h4Next (type :: (bytes ++ more)) = .more
        rw [h4Next, if_neg fun bad => header.known.elim bad.1 bad.2, if_pos (by rw [List.length_append]; omega)]
    · have whole := payload.whole
      have state : c.readSegmentState ≠ .type := by simp [payload.state]
      have count : bytesToRead c = packetLength type bytes - bytes.length := by
        rw [bytesToRead, if_neg state, if_pos (by omega), asked]
      refine ⟨by rw [count, bytesToReadAtOnce, if_neg state, asked], ?_⟩
      rw [count]
      refine ⟨by omega, by rw [maxH4HciPacketSize]; omega, fun more few => h4.parse_more ?_⟩
      change h4Next (type :: (bytes ++ more)) = .more
      rw [h4Next, if_neg fun bad => payload.known.elim bad.1 bad.2, List.length_append, if_neg (by omega),
        packetLength_append whole, if_neg (by omega), if_pos (by omega)]

/-- The port is as the stream says. -/
def Faithful (stream : List UInt8) (result : Except Status Unit) (p : Port) : Prop :=
  p.packets = (h4.parse stream).1 ∧ InBounds p.stores ∧
    match result, (h4.parse stream).2 with
    | .ok _, .ok left =>
      left ≠ [] → bytesToReadAtOnce p.context = bytesToRead p.context ∧ WithinPacket left (bytesToRead p.context)
    | .error s, .error e => s = e
    | _, _ => False

/-- The byte that makes a mistake of the bytes before it: an unknown type, or the last byte of a
header that declares more than the packet buffer holds. -/
def Mistaken : List UInt8 → UInt8 → Prop
  | [], byte => byte ≠ hciPacketEvent ∧ byte ≠ hciPacketAclData
  | type :: bytes, byte => bytes.length + 1 = headerLength type ∧ maxHciAcldataSize < packetLength type (bytes ++ [byte])

theorem next_bad_iff {left : List UInt8} (h : h4Next left = .more) (byte : UInt8) :
    (∃ e, h4Next (left ++ [byte]) = .bad e) ↔ Mistaken left byte := by
  cases left with
  | nil =>
    change (∃ e, h4Next [byte] = .bad e) ↔ byte ≠ hciPacketEvent ∧ byte ≠ hciPacketAclData
    by_cases unknown : byte ≠ hciPacketEvent ∧ byte ≠ hciPacketAclData
    · exact iff_of_true ⟨_, if_pos unknown⟩ unknown
    · rw [h4Next, if_neg unknown, if_pos (show ([] : List UInt8).length < headerLength byte from headerLength_pos byte)]
      exact iff_of_false (fun ⟨_, bad⟩ => nomatch bad) unknown
  | cons type bytes =>
    rw [h4Next] at h
    by_cases unknown : type ≠ hciPacketEvent ∧ type ≠ hciPacketAclData
    · rw [if_pos unknown] at h
      cases h
    rw [if_neg unknown] at h
    rw [List.cons_append, h4Next, if_neg unknown, Mistaken, List.length_append, List.length_singleton]
    by_cases header : bytes.length + 1 < headerLength type
    · rw [if_pos header]
      exact iff_of_false (fun ⟨_, bad⟩ => nomatch bad) fun bad => by omega
    rw [if_neg header]
    by_cases whole : bytes.length < headerLength type
    · have last : bytes.length + 1 = headerLength type := by omega
      by_cases long : maxHciAcldataSize < packetLength type (bytes ++ [byte])
      · exact iff_of_true ⟨_, if_pos long⟩ ⟨last, long⟩
      · rw [if_neg long]
        exact iff_of_false (fun ⟨_, bad⟩ => by split at bad <;> cases bad) fun bad => long bad.2
    · -- The header was whole before, and it declared a length that fits.
      rw [if_neg whole] at h
      rw [packetLength_append (by omega)]
      split at h
      · cases h
      · rename_i fits
        rw [if_neg fits]
        exact iff_of_false (fun ⟨_, bad⟩ => by split at bad <;> cases bad) fun bad => fits bad.2

/-- Nothing is left behind a packet that the last byte ends. -/
theorem next_item_last {left rest : List UInt8} {byte : UInt8} {packet : Packet} (h : h4Next left = .more)
    (item : h4Next (left ++ [byte]) = .item packet rest) : rest = [] := by
  cases left with
  | nil =>
    have shorter : rest.length < 1 := h4.shorter (s := [byte]) item
    exact List.length_eq_zero_iff.mp (Nat.lt_one_iff.mp shorter)
  | cons type bytes =>
    rw [List.cons_append, h4Next] at item
    rw [h4Next] at h
    split at item
    · cases item
    rename_i known
    rw [if_neg known] at h
    split at item
    · cases item
    rename_i header
    split at item
    · cases item
    rename_i fits
    split at item
    · cases item
    cases item
    rw [List.length_append, List.length_singleton] at header
    refine List.drop_eq_nil_iff.mpr ?_
    rw [List.length_append, List.length_singleton]
    by_cases whole : bytes.length < headerLength type
    · rw [packetLength]
      omega
    · rw [packetLength_append (by omega)] at fits ⊢
      rw [if_neg whole, if_neg fits] at h
      split at h
      · omega
      · cases h

/-- The first mistake of a stream is where it is made. -/
theorem parse_error_iff {stream left : List UInt8} (h : (h4.parse stream).2 = .ok left) (byte : UInt8) :
    (∃ e, (h4.parse (stream ++ [byte])).2 = .error e) ↔ Mistaken left byte := by
  rw [h4.parse_append_ok [byte] h, ← next_bad_iff (h4.next_of_parse h) byte]
  rcases front : h4.next (left ++ [byte]) with _ | e | ⟨packet, rest⟩
  · rw [h4.parse_more front]
    exact iff_of_false (fun ⟨_, bad⟩ => nomatch bad) fun ⟨_, bad⟩ => nomatch front.symm.trans bad
  · rw [h4.parse_bad front]
    exact iff_of_true ⟨e, rfl⟩ ⟨e, front⟩
  · rw [h4.parse_item front, next_item_last (h4.next_of_parse h) front, h4.parse_nil]
    exact iff_of_false (fun ⟨_, bad⟩ => nomatch bad) fun ⟨_, bad⟩ => nomatch front.symm.trans bad

/-- A port that has read nothing. -/
def start : Port := ⟨⟨.type, 0, 0, 0, fun _ => 0⟩, [], []⟩

/-- However a stream is cut into chunks, its packets are handed on, a mistake is reported with the
first byte that makes one, nothing is stored outside the packet buffer, and inside a packet the
next read stays in it. -/
theorem chunks_reassembled (sink : List Packet → Packet → Except Status Unit)
    (accepts : ∀ packets packet, sink packets packet = .ok ()) (chunks : List (List UInt8)) :
    Faithful chunks.flatten ((each (fun chunk => readH4PacketReassemble sink chunk) chunks).run start).1
      ((each (fun chunk => readH4PacketReassemble sink chunk) chunks).run start).2 ∧
    ∀ left, (h4.parse chunks.flatten).2 = .ok left → ∀ byte,
      (∃ e, (h4.parse (chunks.flatten ++ [byte])).2 = .error e) ↔ Mistaken left byte := by
  refine ⟨?_, fun left h byte => parse_error_iff h byte⟩
  have rule : Triple (fun p => Holds p.context [] ∧ Has [] p) _ _ _ := chunks_hold accepts chunks
  have whole := rule (s := start) ⟨rfl, rfl, nofun⟩
  rcases outcome : (each (fun chunk => readH4PacketReassemble sink chunk) chunks).run start with ⟨s | _, p⟩ <;>
    rw [outcome] at whole
  · obtain ⟨stream, has, bounded⟩ := whole
    refine ⟨has, bounded, ?_⟩
    rw [← List.nil_append chunks.flatten, stream]
  · obtain ⟨left, stream, held, has, bounded⟩ := whole
    refine ⟨has, bounded, ?_⟩
    rw [← List.nil_append chunks.flatten, stream]
    exact held.within

/-- Two events and a byte of a third packet, cut in the middle. -/
def cutEvents : List (List UInt8) := [[4, 14], [1, 9, 4], [19, 0, 2]]

/-- They are found by a port whose sink takes all packets. -/
theorem cutEvents_reassembled : (∀ packets packet, (fun _ _ => .ok () : List Packet → Packet → Except Status Unit) packets packet = .ok ()) ∧
    Faithful cutEvents.flatten ((each (fun chunk => readH4PacketReassemble (fun _ _ => .ok ()) chunk) cutEvents).run start).1
      ((each (fun chunk => readH4PacketReassemble (fun _ _ => .ok ()) chunk) cutEvents).run start).2 :=
  ⟨fun _ _ => rfl, (chunks_reassembled _ (fun _ _ => rfl) cutEvents).1⟩

end Pi5Drivers.Bluetooth
