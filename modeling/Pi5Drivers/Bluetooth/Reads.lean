import Mathlib.Data.Int.Notation
import Mathlib.Data.List.Perm.Basic
import Pi5Drivers.Bluetooth.Reassembly
import Pi5Drivers.Lib.Runs

/-! Packets that come from the controller and requests that wait for them. Both are kept in
order under one lock, and whoever adds to one side looks at the other. A request that got its
packet is completed outside the lock. -/

namespace Pi5Drivers.Bluetooth

/-! ### One type of packets -/

/-- A request, and what its output buffer is found to be: how many bytes it has, or why there is none. -/
structure ReadRequest where
  id : ℕ
  available : Except ℕ ℕ
deriving DecidableEq

/-- How a request ends. -/
inductive Ending
  | delivered (packet : List UInt8)
  /-- Its buffer was no good for the packet that it got. -/
  | failed (packet : List UInt8)
  | cancelled
  /-- It was never queued. -/
  | refused
deriving DecidableEq

/-- What becomes of a packet that comes in. -/
inductive Arrival
  | stored | badLength | noMemory | overflow
deriving DecidableEq, Repr

/-- The packets and requests of a type, and what came of those before. -/
structure Side where
  queue : List ReadRequest
  queueCount : ℤ
  list : List (List UInt8)
  listCount : ℤ
  /-- The handlers that have queued a request and not yet looked for its packet. -/
  handlers : ℕ
  /-- Requests that were taken with their packets and are not yet complete. -/
  inFlight : List (ReadRequest × List UInt8)
  entered : List ReadRequest
  completed : List (ReadRequest × Ending)
  arrived : List (List UInt8 × Arrival)
  /-- The packets that left the list: to a request, or discarded. -/
  gone : List (List UInt8 × Option ReadRequest)

def listLimit : ℤ := 256

namespace Side

/-- The front packet goes to the front request. -/
def pair (s : Side) : Side :=
  match s.list, s.queue with
  | packet :: list, request :: queue =>
    { s with
      queue := queue, queueCount := s.queueCount - 1, list := list, listCount := s.listCount - 1
      inFlight := s.inFlight ++ [(request, packet)], gone := s.gone ++ [(packet, some request)] }
  | _, _ => s

def insert (s : Side) (packet : List UInt8) : Side :=
  { s with list := s.list ++ [packet], listCount := s.listCount + 1, arrived := s.arrived ++ [(packet, .stored)] }

/-- A packet comes in. -/
def readRequestComplete (s : Side) (packet : List UInt8) (memory : Bool) : Side :=
  if packet.length = 0 ∨ maxHciAcldataSize < packet.length then { s with arrived := s.arrived ++ [(packet, .badLength)] }
  else if memory = false then { s with arrived := s.arrived ++ [(packet, .noMemory)] }
  else if listLimit ≤ s.listCount then { s with arrived := s.arrived ++ [(packet, .overflow)] }
  else (s.insert packet).pair

/-- A request comes in, and is queued if it can be. -/
def forward (s : Side) (request : ReadRequest) (queued : Bool) : Side :=
  if queued then
    { s with
      queue := s.queue ++ [request], queueCount := s.queueCount + 1
      handlers := s.handlers + 1, entered := s.entered ++ [request] }
  else { s with entered := s.entered ++ [request], completed := s.completed ++ [(request, .refused)] }

/-- Its handler looks for a packet. -/
def lookUp (s : Side) : Side := { s.pair with handlers := s.handlers - 1 }

/-- A queued request is cancelled. Its handler is not told. -/
def cancel (s : Side) (i : ℕ) (request : ReadRequest) : Side :=
  { s with queue := s.queue.eraseIdx i, completed := s.completed ++ [(request, .cancelled)] }

def readPacketsDiscard (s : Side) : Side :=
  { s with list := [], listCount := 0, gone := s.gone ++ s.list.map fun packet => (packet, none) }

/-- How a request ends that got a packet. `dataOffset` bytes of its buffer come before the packet. -/
def ending (dataOffset : ℕ) (request : ReadRequest) (packet : List UInt8) : Ending :=
  match request.available with
  | .error _ => .failed packet
  | .ok available => if available < dataOffset + packet.length then .failed packet else .delivered packet

def finish (dataOffset : ℕ) (s : Side) (i : ℕ) (request : ReadRequest) (packet : List UInt8) : Side :=
  { s with inFlight := s.inFlight.eraseIdx i, completed := s.completed ++ [(request, ending dataOffset request packet)] }

/-- The packets that were stored. -/
def stored (s : Side) : List (List UInt8) := s.arrived.filterMap fun a => if a.2 = .stored then some a.1 else none

/-- The requests that got packets, with them, in the order in which they did. -/
def given (s : Side) : List (ReadRequest × List UInt8) := s.gone.filterMap fun g => g.2.map fun request => (request, g.1)

/-- The packet of a request that ended. -/
def answer (c : ReadRequest × Ending) : Option (ReadRequest × List UInt8) :=
  match c.2 with
  | .delivered packet | .failed packet => some (c.1, packet)
  | .cancelled | .refused => none

/-- Those of them that are complete. -/
def answered (s : Side) : List (ReadRequest × List UInt8) := s.completed.filterMap answer

end Side

/-! ### Both types -/

inductive HciType
  | event | aclData
deriving DecidableEq, Repr

inductive Step
  | arrive (type : HciType) (packet : List UInt8) (memory : Bool)
  | request (type : HciType) (request : ReadRequest) (queued : Bool)
  | lookUp (type : HciType)
  | cancel (type : HciType) (i : ℕ)
  | discard
  | finish (type : HciType) (i : ℕ)

abbrev Reads := HciType → Side

def Reads.set (s : Reads) (type : HciType) (side : Side) : Reads := fun t => if t = type then side else s t

def idle : Side := ⟨[], 0, [], 0, 0, [], [], [], [], []⟩

/-- A request is new: no request had its number before. -/
def Reads.New (s : Reads) (request : ReadRequest) : Prop := ∀ type, request.id ∉ (s type).entered.map ReadRequest.id

instance (s : Reads) (request : ReadRequest) : Decidable (s.New request) :=
  decidable_of_iff (request.id ∉ (s .event).entered.map ReadRequest.id ∧ request.id ∉ (s .aclData).entered.map ReadRequest.id)
    ⟨fun h type => by cases type; exacts [h.1, h.2], fun h => ⟨h .event, h .aclData⟩⟩

/-- Packets, requests and cancellations in any order. -/
def reads (dataOffset : ℕ) : System Reads Step where
  init := fun _ => idle
  next s
    | .arrive type packet memory => some (s.set type ((s type).readRequestComplete packet memory))
    | .request type request queued => if s.New request then some (s.set type ((s type).forward request queued)) else none
    | .lookUp type => if (s type).handlers = 0 then none else some (s.set type (s type).lookUp)
    | .cancel type i => (s type).queue[i]?.map fun request => s.set type ((s type).cancel i request)
    | .discard => some fun type => (s type).readPacketsDiscard
    | .finish type i => (s type).inFlight[i]?.map fun p => s.set type ((s type).finish dataOffset i p.1 p.2)

/-! ### What holds of a type -/

/-- Nothing is lost between the packets that were stored and those that requests got, nor between
the requests that came and those that are complete. -/
structure Side.Sound (dataOffset : ℕ) (s : Side) : Prop where
  counted : s.listCount = s.list.length
  bounded : s.list.length ≤ 256
  order : s.stored = s.gone.map Prod.fst ++ s.list
  given : (s.inFlight ++ s.answered).Perm s.given
  requests : (s.queue ++ s.inFlight.map Prod.fst ++ s.completed.map Prod.fst).Perm s.entered
  distinct : (s.entered.map ReadRequest.id).Nodup
  endings : ∀ c ∈ s.completed, ∀ packet, c.2 = .delivered packet ∨ c.2 = .failed packet → c.2 = Side.ending dataOffset c.1 packet

namespace Side

variable {dataOffset : ℕ} {s : Side}

/-- The pairs of a packet and a request that wait for each other. -/
def waiting (s : Side) : ℕ := min s.list.length s.queue.length

theorem idle_sound : idle.Sound dataOffset := ⟨rfl, Nat.zero_le _, rfl, .refl _, .refl _, .nil, nofun⟩

theorem given_append (s : Side) (packet : List UInt8) (request : ReadRequest) :
    (s.gone ++ [(packet, some request)]).filterMap (fun g => g.2.map fun r => (r, g.1)) = s.given ++ [(request, packet)] :=
  List.filterMap_append

/-- A packet that is handed on is still accounted for. -/
theorem Sound.pair (h : s.Sound dataOffset) : s.pair.Sound dataOffset := by
  unfold Side.pair
  split
  · rename_i packet list request queue packets requests
    have counted := h.counted
    have bounded := h.bounded
    rw [packets, List.length_cons] at counted bounded
    refine ⟨?_, ?_, ?_, ?_, ?_, h.distinct, h.endings⟩
    · change s.listCount - 1 = list.length
      omega
    · exact Nat.le_of_succ_le bounded
    · change s.stored = (s.gone ++ [(packet, some request)]).map Prod.fst ++ list
      rw [h.order, packets, List.map_append, List.append_assoc]
      rfl
    · change ((s.inFlight ++ [(request, packet)]) ++ s.answered).Perm ((s.gone ++ _).filterMap _)
      rw [given_append]
      refine List.perm_iff_count.mpr fun a => ?_
      have before := List.perm_iff_count.mp h.given a
      simp only [List.count_append] at before ⊢
      omega
    · refine .trans (List.perm_iff_count.mpr fun a => ?_) h.requests
      rw [requests]
      change (queue ++ (s.inFlight ++ [(request, packet)]).map Prod.fst ++ s.completed.map Prod.fst).count a = _
      simp only [List.map_append, List.map_cons, List.map_nil, List.count_append, List.count_cons, List.count_nil]
      omega
  · exact h

theorem pair_waiting (s : Side) : s.pair.waiting = s.waiting - 1 := by
  rcases packets : s.list with _ | ⟨packet, list⟩ <;> rcases requests : s.queue with _ | ⟨request, queue⟩ <;>
    simp only [pair, waiting, packets, requests, List.length_nil, List.length_cons] <;> omega

theorem pair_handlers (s : Side) : s.pair.handlers = s.handlers := by
  unfold pair
  split <;> rfl

/-- A step outside the lists of a side. -/
theorem Sound.lookUp (h : s.Sound dataOffset) : s.lookUp.Sound dataOffset :=
  ⟨h.pair.counted, h.pair.bounded, h.pair.order, h.pair.given, h.pair.requests, h.pair.distinct, h.pair.endings⟩

theorem Sound.insert (h : s.Sound dataOffset) (room : s.listCount < listLimit) (packet : List UInt8) :
    (s.insert packet).Sound dataOffset := by
  have counted := h.counted
  refine ⟨?_, ?_, ?_, h.given, h.requests, h.distinct, h.endings⟩
  · change s.listCount + 1 = (s.list ++ [packet]).length
    rw [List.length_append, List.length_singleton]
    omega
  · change (s.list ++ [packet]).length ≤ 256
    rw [listLimit] at room
    rw [List.length_append, List.length_singleton]
    omega
  · have stored : (s.insert packet).stored = s.stored ++ [packet] := List.filterMap_append
    rw [stored, h.order]
    exact List.append_assoc _ _ _

theorem stored_unchanged (s : Side) (packet : List UInt8) {a : Arrival} (lost : a ≠ .stored) :
    Side.stored { s with arrived := s.arrived ++ [(packet, a)] } = s.stored := by
  have none_ : [(packet, a)].filterMap (fun a => if a.2 = .stored then some a.1 else none) = [] :=
    List.filterMap_cons_none (if_neg lost)
  change (s.arrived ++ [(packet, a)]).filterMap _ = s.stored
  rw [List.filterMap_append, none_, List.append_nil]
  rfl

theorem Sound.lose (h : s.Sound dataOffset) (packet : List UInt8) {a : Arrival} (lost : a ≠ .stored) :
    Sound dataOffset { s with arrived := s.arrived ++ [(packet, a)] } :=
  ⟨h.counted, h.bounded, (stored_unchanged s packet lost).trans h.order, h.given, h.requests, h.distinct, h.endings⟩

theorem Sound.readRequestComplete (h : s.Sound dataOffset) (packet : List UInt8) (memory : Bool) :
    (s.readRequestComplete packet memory).Sound dataOffset := by
  unfold Side.readRequestComplete
  split
  · exact h.lose packet nofun
  split
  · exact h.lose packet nofun
  split
  · exact h.lose packet nofun
  · exact (h.insert (by omega) packet).pair

theorem Sound.forward (h : s.Sound dataOffset) {request : ReadRequest} (new : request.id ∉ s.entered.map ReadRequest.id)
    (queued : Bool) : (s.forward request queued).Sound dataOffset := by
  have distinct : ((s.entered ++ [request]).map ReadRequest.id).Nodup := by
    rw [List.map_append, List.nodup_append]
    refine ⟨h.distinct, List.nodup_cons.mpr ⟨List.not_mem_nil, .nil⟩, fun a ha b hb same => new ?_⟩
    rw [← List.mem_singleton.mp hb, ← same]
    exact ha
  unfold Side.forward
  split
  · refine ⟨h.counted, h.bounded, h.order, h.given, List.perm_iff_count.mpr fun a => ?_, distinct, h.endings⟩
    have before := List.perm_iff_count.mp h.requests a
    simp only [List.count_append] at before ⊢
    omega
  · have answered : (s.completed ++ [(request, Ending.refused)]).filterMap answer = s.answered :=
      List.filterMap_append.trans (List.append_nil _)
    refine ⟨h.counted, h.bounded, h.order, ?_, List.perm_iff_count.mpr fun a => ?_, distinct, ?_⟩
    · change (s.inFlight ++ (s.completed ++ [(request, Ending.refused)]).filterMap _).Perm s.given
      rw [answered]
      exact h.given
    · have before := List.perm_iff_count.mp h.requests a
      simp only [List.map_append, List.count_append, List.map_cons, List.map_nil] at before ⊢
      omega
    · exact List.forall_mem_append.mpr ⟨h.endings, by simp⟩

theorem Sound.cancel (h : s.Sound dataOffset) {i : ℕ} {request : ReadRequest} (found : s.queue[i]? = some request) :
    (s.cancel i request).Sound dataOffset := by
  obtain ⟨short, rfl⟩ := List.getElem?_eq_some_iff.mp found
  have answered : (s.completed ++ [(s.queue[i], Ending.cancelled)]).filterMap answer = s.answered :=
    List.filterMap_append.trans (List.append_nil _)
  refine ⟨h.counted, h.bounded, h.order, ?_, List.perm_iff_count.mpr fun a => ?_, h.distinct, ?_⟩
  · change (s.inFlight ++ (s.completed ++ [(s.queue[i], Ending.cancelled)]).filterMap _).Perm s.given
    rw [answered]
    exact h.given
  · have before := List.perm_iff_count.mp h.requests a
    have out := List.perm_iff_count.mp (List.getElem_cons_eraseIdx_perm short) a
    simp only [Side.cancel, List.map_append, List.count_append, List.map_cons, List.map_nil, List.count_cons,
      List.count_nil] at before out ⊢
    omega
  · exact List.forall_mem_append.mpr ⟨h.endings, by simp⟩

theorem Sound.readPacketsDiscard (h : s.Sound dataOffset) : s.readPacketsDiscard.Sound dataOffset := by
  refine ⟨rfl, Nat.zero_le _, ?_, ?_, h.requests, h.distinct, h.endings⟩
  · change s.stored = (s.gone ++ s.list.map fun packet => (packet, none)).map Prod.fst ++ []
    rw [h.order, List.map_append, List.map_map, List.append_nil]
    exact congrArg (_ ++ ·) (List.map_id _).symm
  · have none_ : (s.list.map fun packet => (packet, (none : Option ReadRequest))).filterMap
        (fun g => g.2.map fun r => (r, g.1)) = [] := by simp
    change (s.inFlight ++ s.answered).Perm ((s.gone ++ s.list.map fun packet => (packet, none)).filterMap _)
    rw [List.filterMap_append, none_, List.append_nil]
    exact h.given

theorem Sound.finish (h : s.Sound dataOffset) {i : ℕ} {request : ReadRequest} {packet : List UInt8}
    (found : s.inFlight[i]? = some (request, packet)) : (s.finish dataOffset i request packet).Sound dataOffset := by
  obtain ⟨short, same⟩ := List.getElem?_eq_some_iff.mp found
  have out := List.getElem_cons_eraseIdx_perm short
  rw [same] at out
  obtain ⟨e, result, ended⟩ : ∃ e, ending dataOffset request packet = e ∧ (e = .delivered packet ∨ e = .failed packet) := by
    refine ⟨_, rfl, ?_⟩
    unfold ending
    split
    · exact .inr rfl
    · split
      · exact .inr rfl
      · exact .inl rfl
  have last : (s.completed ++ [(request, e)]).filterMap answer = s.answered ++ [(request, packet)] := by
    rw [List.filterMap_append]
    rcases ended with rfl | rfl <;> rfl
  have pairs := List.perm_iff_count.mp out
  refine ⟨h.counted, h.bounded, h.order, ?_, ?_, h.distinct, ?_⟩
  · change (s.inFlight.eraseIdx i ++ (s.completed ++ [(request, ending dataOffset request packet)]).filterMap answer).Perm s.given
    rw [result, last]
    refine .trans (List.perm_iff_count.mpr fun a => ?_) h.given
    have before := pairs a
    simp only [List.count_append, List.count_cons, List.count_nil] at before ⊢
    omega
  · refine .trans (List.perm_iff_count.mpr fun a => ?_) h.requests
    have before := List.perm_iff_count.mp (out.map Prod.fst) a
    simp only [Side.finish, List.map_append, List.map_cons, List.map_nil, List.count_append, List.count_cons,
      List.count_nil] at before ⊢
    omega
  · refine List.forall_mem_append.mpr ⟨h.endings, List.forall_mem_singleton.mpr fun packet' which => ?_⟩
    have same : packet' = packet := by
      rw [result] at which
      rcases ended with rfl | rfl <;> rcases which with h | h <;> first | exact (Ending.delivered.inj h).symm | exact (Ending.failed.inj h).symm | cases h
    rw [same]

/-! ### Pairs that wait -/

theorem readRequestComplete_waiting (s : Side) (packet : List UInt8) (memory : Bool) :
    (s.readRequestComplete packet memory).waiting ≤ s.waiting := by
  unfold Side.readRequestComplete
  split
  · exact Nat.le_refl _
  split
  · exact Nat.le_refl _
  split
  · exact Nat.le_refl _
  · rw [pair_waiting]
    simp only [waiting, Side.insert, List.length_append, List.length_singleton]
    omega

theorem readRequestComplete_handlers (s : Side) (packet : List UInt8) (memory : Bool) :
    (s.readRequestComplete packet memory).handlers = s.handlers := by
  unfold Side.readRequestComplete
  split
  · rfl
  split
  · rfl
  split
  · rfl
  · exact pair_handlers _

/-- Whether a packet is stored does not depend on the requests. -/
theorem pair_stored (s : Side) : s.pair.stored = s.stored := by
  unfold pair
  split <;> rfl

/-- A packet is stored unless there is a reason not to. -/
theorem readRequestComplete_stored (h : s.Sound dataOffset) (packet : List UInt8) (memory : Bool) :
    (s.readRequestComplete packet memory).stored = s.stored ++ [packet] ∨
      ((s.readRequestComplete packet memory).stored = s.stored ∧
        (packet.length = 0 ∨ maxHciAcldataSize < packet.length ∨ memory = false ∨ s.list.length = 256)) := by
  have counted := h.counted
  have bounded := h.bounded
  unfold Side.readRequestComplete
  split
  · rename_i bad
    exact .inr ⟨stored_unchanged s packet nofun, bad.elim .inl fun long => .inr (.inl long)⟩
  split
  · rename_i none_
    exact .inr ⟨stored_unchanged s packet nofun, .inr (.inr (.inl none_))⟩
  split
  · rename_i full
    rw [listLimit] at full
    exact .inr ⟨stored_unchanged s packet nofun, .inr (.inr (.inr (by omega)))⟩
  · rw [pair_stored]
    exact .inl List.filterMap_append

theorem forward_waiting (request : ReadRequest) (queued : Bool) (h : s.waiting ≤ s.handlers) :
    (s.forward request queued).waiting ≤ (s.forward request queued).handlers := by
  unfold Side.forward
  split
  · simp only [waiting, List.length_append, List.length_singleton] at h ⊢
    omega
  · exact h

theorem lookUp_waiting (h : s.waiting ≤ s.handlers) : s.lookUp.waiting ≤ s.lookUp.handlers := by
  change s.pair.waiting ≤ s.handlers - 1
  rw [pair_waiting]
  omega

theorem cancel_waiting (i : ℕ) (request : ReadRequest) : (s.cancel i request).waiting ≤ s.waiting := by
  have shorter := List.length_eraseIdx_le s.queue i
  change min s.list.length (s.queue.eraseIdx i).length ≤ min s.list.length s.queue.length
  omega

end Side

/-! ### Runs -/

/-- Everything is accounted for, and no more pairs wait than handlers are on their way. -/
def Reads.Whole (dataOffset : ℕ) (s : Reads) : Prop :=
  ∀ type, (s type).Sound dataOffset ∧ (s type).waiting ≤ (s type).handlers

variable {dataOffset : ℕ} {s t : Reads}

theorem Reads.Whole.set (h : s.Whole dataOffset) (type : HciType) {side : Side} (sound : side.Sound dataOffset)
    (waiting : side.waiting ≤ side.handlers) : (s.set type side).Whole dataOffset := by
  intro type'
  unfold Reads.set
  split
  · exact ⟨sound, waiting⟩
  · exact h type'

theorem Reads.Whole.step (h : s.Whole dataOffset) {e : Step} (next : (reads dataOffset).next s e = some t) :
    t.Whole dataOffset := by
  cases e with
  | arrive type packet memory =>
    obtain rfl := Option.some_inj.mp next
    refine h.set type ((h type).1.readRequestComplete packet memory) ?_
    rw [Side.readRequestComplete_handlers]
    exact Nat.le_trans (Side.readRequestComplete_waiting _ packet memory) (h type).2
  | request type request queued =>
    obtain ⟨new, next⟩ := Option.ite_none_right_eq_some.mp next
    obtain rfl := Option.some_inj.mp next
    exact h.set type ((h type).1.forward (new type) queued) (Side.forward_waiting request queued (h type).2)
  | lookUp type =>
    obtain ⟨-, next⟩ := Option.ite_none_left_eq_some.mp next
    obtain rfl := Option.some_inj.mp next
    exact h.set type (h type).1.lookUp (Side.lookUp_waiting (h type).2)
  | cancel type i =>
    obtain ⟨request, found, rfl⟩ := Option.map_eq_some_iff.mp next
    exact h.set type ((h type).1.cancel found) (Nat.le_trans (Side.cancel_waiting i request) (h type).2)
  | discard =>
    obtain rfl := Option.some_inj.mp next
    exact fun type => ⟨(h type).1.readPacketsDiscard, Nat.le_trans (Nat.min_le_left _ _) (Nat.zero_le _)⟩
  | finish type i =>
    obtain ⟨p, found, rfl⟩ := Option.map_eq_some_iff.mp next
    exact h.set type ((h type).1.finish found) (h type).2

/-- In every run, for both types: the packets that were stored are those that requests got or that
were discarded, in order, and those in the list; a request is waiting, on its way or complete,
once; and no packet waits with a request when no handler is on its way. A packet is stored
unless it is no packet, there is no room for it or the list is full. -/
theorem reads_paired (dataOffset : ℕ) (s : Reads) (h : (reads dataOffset).Reachable s) :
    (∀ type, (s type).Sound dataOffset ∧ ((s type).handlers = 0 → (s type).list = [] ∨ (s type).queue = [])) ∧
    ∀ type packet memory t, (reads dataOffset).next s (.arrive type packet memory) = some t →
      (t type).stored = (s type).stored ++ [packet] ∨
        ((t type).stored = (s type).stored ∧
          (packet.length = 0 ∨ maxHciAcldataSize < packet.length ∨ memory = false ∨ (s type).list.length = 256)) := by
  have whole : s.Whole dataOffset := h.invariant (I := Reads.Whole dataOffset)
    (fun _ => ⟨Side.idle_sound, Nat.le_refl _⟩) fun _ safe _ next => safe.step next
  refine ⟨fun type => ⟨(whole type).1, fun none_ => ?_⟩, fun type packet memory t next => ?_⟩
  · have waiting := (whole type).2
    rw [none_, Side.waiting, Nat.le_zero, Nat.min_eq_zero_iff] at waiting
    exact waiting.imp List.length_eq_zero_iff.mp List.length_eq_zero_iff.mp
  · obtain rfl := Option.some_inj.mp next
    simp only [Reads.set, if_true]
    exact Side.readRequestComplete_stored (whole type).1 packet memory

/-- A request that comes first gets the packet that comes after it. -/
def oneEvent : List Step :=
  [.request .event ⟨1, .ok 64⟩ true, .lookUp .event, .arrive .event [14, 1, 9] true, .finish .event 0]

theorem oneEvent_paired : ∃ s, (reads 5).runFrom (reads 5).init oneEvent = some s ∧
    (s .event).completed = [(⟨1, .ok 64⟩, .delivered [14, 1, 9])] ∧
    (∀ type, (s type).Sound 5 ∧ ((s type).handlers = 0 → (s type).list = [] ∨ (s type).queue = [])) ∧
    ∀ type packet memory t, (reads 5).next s (.arrive type packet memory) = some t →
      (t type).stored = (s type).stored ++ [packet] ∨
        ((t type).stored = (s type).stored ∧
          (packet.length = 0 ∨ maxHciAcldataSize < packet.length ∨ memory = false ∨ (s type).list.length = 256)) := by
  have run : ((reads 5).runFrom (reads 5).init oneEvent).any fun s =>
      (s .event).completed = [(⟨1, .ok 64⟩, .delivered [14, 1, 9])] := by decide +kernel
  obtain ⟨s, result, done⟩ := (Option.any_eq_true _ _).mp run
  exact ⟨s, result, of_decide_eq_true done, reads_paired 5 s (System.reachable_of_run result)⟩

/-- The count of the queue stays when a request is cancelled, and a packet goes with a request that
has no room for it. -/
theorem reads_unpaired :
    (¬∀ dataOffset s type, (reads dataOffset).Reachable s → (s type).queueCount = (s type).queue.length) ∧
      ¬∀ dataOffset s type, (reads dataOffset).Reachable s → ∀ c ∈ (s type).completed, ∀ packet, c.2 ≠ .failed packet := by
  constructor
  · intro h
    have run : ((reads 5).runFrom (reads 5).init [.request .event ⟨1, .ok 64⟩ true, .cancel .event 0]).any fun s =>
        (s .event).queueCount ≠ (s .event).queue.length := by decide +kernel
    obtain ⟨s, result, bad⟩ := (Option.any_eq_true _ _).mp run
    exact of_decide_eq_true bad (h 5 s .event (System.reachable_of_run result))
  · intro h
    have run : ((reads 5).runFrom (reads 5).init
        [.arrive .event [14, 1, 9] true, .request .event ⟨1, .ok 6⟩ true, .lookUp .event, .finish .event 0]).any fun s =>
        (s .event).completed = [(⟨1, .ok 6⟩, .failed [14, 1, 9])] := by decide +kernel
    obtain ⟨s, result, bad⟩ := (Option.any_eq_true _ _).mp run
    refine h 5 s .event (System.reachable_of_run result) (⟨1, .ok 6⟩, .failed [14, 1, 9]) ?_ [14, 1, 9] rfl
    rw [of_decide_eq_true bad]
    exact List.mem_singleton_self _

end Pi5Drivers.Bluetooth
