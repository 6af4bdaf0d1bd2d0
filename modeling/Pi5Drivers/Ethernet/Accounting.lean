import Mathlib.Data.List.GetD
import Mathlib.Data.List.Perm.Basic
import Pi5Drivers.Ethernet.Passes

/-! What holds in every run of the miniport: the indices of the ring, the descriptors that
the hardware has, and the lists that NDIS is owed. -/

namespace Pi5Drivers.Ethernet

open Adapter

variable {a b : Adapter}

/-! ### The invariant -/

/-- What a phase says of the adapter. -/
def InPhase (a : Adapter) (w : Books) : Prop :=
  match a.phase with
  | .down => (a.running = false ∧ a.speed = 0) ∧ (a.txCount = 0 ∧ a.txTail = 0) ∧ (a.retainDma = false → a.busy = false)
  | .starting =>
    (a.running = false ∧ a.speed = 0) ∧ (a.txCount = 0 ∧ a.txTail = 0) ∧ a.retainDma = false ∧ a.position = 0 ∧
      ∀ i, a.control i = gemTxUsed ||| wrapBit i
  | .up => (a.running = true → a.retainDma = false) ∧ (a.speed ≠ 0 → a.busy = true)
  | .stopping => a.running = false ∧ a.speed = 0
  | .stopped =>
    (a.running = false ∧ a.speed = 0) ∧ (a.retainDma = false → a.busy = false) ∧ ∀ id c, w id = some c → c.waiting = []

structure Whole (a : Adapter) : Prop where
  order : observer.InOrder a.trace
  ring : ∃ queue, Ring a (observer.watch a.trace) queue a.returning.flatten
  flow : a.busy = true → a.retainDma = false → ∃ r k, Flow a r k
  phase : InPhase a (observer.watch a.trace)
  touched : a.busy = true → a.dmaTouched = true
  retained : a.retainDma = true ↔ a.fault = true ∨ a.surpriseRemoved = true

theorem complete_eq (a : Adapter) (l : List ℕ) :
    ∃ returning, a.complete l = { a with returning := returning } ∧ returning.flatten = l ++ a.returning.flatten := by
  unfold complete
  split
  · rename_i nil
    exact ⟨a.returning, rfl, by simp [nil]⟩
  · exact ⟨l :: a.returning, rfl, rfl⟩

/-- Only an adapter that is up runs. -/
theorem InPhase.up {w : Books} (h : InPhase a w) (on : a.running = true) : a.phase = .up := by
  unfold InPhase at h
  cases phase : a.phase <;> simp_all

theorem Whole.sending (h : Whole a) : ∃ queue, Sending a queue ([] ++ a.returning.flatten) := by
  obtain ⟨queue, ring⟩ := h.ring
  exact ⟨queue, h.order, ring, h.flow⟩

/-- Where the hardware is depends on a few fields only. -/
theorem exists_flow (h : ∃ r k, Flow a r k)
    (same : b.txCount = a.txCount ∧ b.txTail = a.txTail ∧ b.position = a.position ∧ b.control = a.control) :
    ∃ r k, Flow b r k := by
  obtain ⟨count, tail, position, control⟩ := same
  obtain ⟨r, k, flow⟩ := h
  refine ⟨r, k, count ▸ flow.total, ?_, fun i => ?_, fun i hi => ?_⟩
  · rw [position, tail, flow.position]
  · rw [control, tail, flow.owned]
  · rw [tail] at hi
    rw [control, flow.wrap i hi]

/-! ### Steps -/

/-- Sends keep the phase. -/
theorem InPhase.send {lists : List NetBufferList} {completed : List ℕ} (h : InPhase a (observer.watch a.trace))
    (sent : Sent a (a.sendAll completed lists).1) :
    InPhase (a.sendAll completed lists).1 (observer.watch (a.sendAll completed lists).1.trace) := by
  by_cases on : a.running = true
  · have up := h.up on
    obtain ⟨tx, frame, control, trace, status, statistics, count, head, same⟩ := sent
    rw [same]
    unfold InPhase at h ⊢
    simp only [up] at h ⊢
    exact h
  · obtain ⟨trace, status, statistics, same, quiet⟩ := sendAll_refused lists (by simpa using on) completed
    rw [same]
    unfold InPhase at h ⊢
    cases phase : a.phase <;> simp only [phase] at h ⊢
    case stopped =>
      refine ⟨h.1, h.2.1, fun id c hc => ?_⟩
      rcases quiet id c hc with empty | known
      · exact empty
      · exact h.2.2 id c known
    all_goals exact h

theorem Whole.send (h : Whole a) {lists : List NetBufferList} (nodup : (lists.map NetBufferList.id).Nodup)
    (free : ∀ l ∈ lists, a.Free l.id) : Whole (a.send lists) := by
  obtain ⟨queue, sending⟩ := h.sending
  have fresh (l : NetBufferList) (hl : l ∈ lists) : observer.watch a.trace l.id = none := by
    obtain ⟨out, left⟩ := free l hl
    refine Option.not_isSome_iff_eq_none.mp fun known => ?_
    rcases (sending.ring.known l.id).mp known with queued | gone
    · obtain ⟨i, hi, nbl⟩ := sending.ring.mem_queue_iff.mp queued
      exact out i hi nbl
    · obtain ⟨chain, hchain, inside⟩ := List.mem_flatten.mp gone
      exact left chain hchain inside
  obtain ⟨⟨queue', done⟩, sent⟩ := sendAll_sending sending fresh nodup
  have phase := h.phase.send sent
  unfold Adapter.send
  rcases result : a.sendAll [] lists with ⟨b, completed⟩
  rw [result] at done sent phase
  obtain ⟨returning, same, flat⟩ := complete_eq b completed
  obtain ⟨tx, frame, control, trace, status, statistics, count, head, rfl⟩ := sent
  simp only [same]
  exact ⟨done.order, ⟨queue', flat ▸ { done.ring with }⟩, fun busy kept => exists_flow (done.flow busy kept) ⟨rfl, rfl, rfl, rfl⟩, phase,
    h.touched, h.retained⟩

/-- An adapter that does not run completes nothing. -/
theorem completeSlots_off (off : a.running = false) (n : ℕ) (completed : List ℕ) :
    completeSlots n a completed = (a, completed) := by
  cases n with
  | zero => rfl
  | succ n => exact if_neg fun on => by simp [off] at on

theorem Whole.completeTransmit (h : Whole a) : Whole a.completeTransmit ∧
    (a.running = true → a.completeTransmit.txCount = 0 ∨ ¬Used (a.completeTransmit.control a.completeTransmit.txTail)) := by
  obtain ⟨queue, ring⟩ := h.ring
  have pass (r k : ℕ) := completeSlots_ring (r := r) (k := k) (List.nil_append a.returning.flatten ▸ ring) rfl
  obtain ⟨⟨queue', done⟩, taken, -, finished⟩ := pass 0 0
  have flow (r k : ℕ) := (pass r k).2.2.1
  have phase : InPhase (completeSlots a.txCount a []).1 (observer.watch a.trace) := by
    by_cases on : a.running = true
    · have old := h.phase
      have up := old.up on
      obtain ⟨tx, tail, count, status, statistics, same⟩ := taken
      rw [same]
      unfold InPhase at old ⊢
      simp only [up] at old ⊢
      exact old
    · rw [completeSlots_off (by simpa using on)]
      exact h.phase
  unfold Adapter.completeTransmit
  rcases result : completeSlots a.txCount a [] with ⟨b, completed⟩
  rw [result] at done taken finished flow phase
  obtain ⟨returning, same, flat⟩ := complete_eq b completed
  obtain ⟨tx, tail, count, status, statistics, rfl⟩ := taken
  simp only [same]
  refine ⟨⟨h.order, ⟨queue', flat ▸ { done with }⟩, fun busy kept => ?_, phase, h.touched, h.retained⟩, finished⟩
  obtain ⟨r, k, old⟩ := h.flow busy kept
  obtain ⟨r', new⟩ := flow r k old
  exact exists_flow ⟨r', k, new⟩ ⟨rfl, rfl, rfl, rfl⟩

theorem Whole.stopHardware (h : Whole a) : Whole a.stopHardware :=
  ⟨h.order, h.ring.imp fun _ ring => { ring with }, fun busy kept => exists_flow (h.flow busy kept) ⟨rfl, rfl, rfl, rfl⟩,
    ⟨rfl, rfl⟩, h.touched, h.retained⟩

theorem watch_stopped (trace : List Event) (id : ℕ) (c : Account) (h : observer.watch (.stopped :: trace) id = some c) :
    c.waiting = [] ∧ ∃ c', observer.watch trace id = some c' := by
  obtain ⟨c', known, rfl⟩ := (Books.settle_eq_some (w := observer.watch trace) (f := fun _ => [])).mp h
  exact ⟨rfl, c', known⟩

theorem Whole.drain (h : Whole a) (idle : Bool) (phase : a.phase = .stopping) : Whole (a.drain idle) := by
  have old := h.phase
  unfold InPhase at old
  simp only [phase] at old
  obtain ⟨queue, ring⟩ := h.ring
  have order : observer.InOrder (.stopped :: a.trace) := ⟨trivial, h.order⟩
  have quiet (id : ℕ) (c : Account) (hc : observer.watch (.stopped :: a.trace) id = some c) := (watch_stopped _ id c hc).1
  have drained : Ring a (observer.watch (.stopped :: a.trace)) queue a.returning.flatten := by
    refine { ring with known := fun id => ?_, waiting := fun p _ c hc i hi => ?_, settled := fun id _ c hc => quiet id c hc }
    · change ((observer.watch a.trace).settle (fun _ => []) id).isSome ↔ _
      rw [Books.isSome_settle, ring.known]
    · simp [quiet p.1 c hc] at hi
  have result : a.drain idle = if a.dmaTouched = true ∧ a.surpriseRemoved = false then
      if idle = true then { a with phase := .stopped, trace := .stopped :: a.trace, busy := false }
      else { a with phase := .stopped, trace := .stopped :: a.trace, retainDma := true, fault := true }
      else { a with phase := .stopped, trace := .stopped :: a.trace } := rfl
  by_cases live : a.dmaTouched = true ∧ a.surpriseRemoved = false
  · rw [result, if_pos live]
    cases idle with
    | true =>
      rw [if_pos rfl]
      refine ⟨order, ⟨queue, { drained with }⟩, fun busy => ?_, ⟨old, fun _ => rfl, quiet⟩, fun busy => ?_, h.retained⟩
      · cases busy
      · cases busy
    | false =>
      rw [if_neg Bool.false_ne_true]
      refine ⟨order, ⟨queue, { drained with }⟩, fun _ kept => ?_, ⟨old, fun kept => ?_, quiet⟩, h.touched, ?_⟩
      · cases kept
      · cases kept
      · simp
  · rw [result, if_neg live]
    have still : a.retainDma = false → a.busy = false := by
      intro kept
      by_contra busy
      have busy : a.busy = true := by simpa using busy
      have removed : ¬a.surpriseRemoved = true := fun removed => by
        have := h.retained.mpr (.inr removed)
        simp [kept] at this
      exact live ⟨h.touched busy, by simpa using removed⟩
    refine ⟨order, ⟨queue, { drained with }⟩, fun busy kept => ?_, ⟨old, still, quiet⟩, h.touched, h.retained⟩
    simp [still kept] at busy

theorem Whole.finishStop (h : Whole a) (s : Status) (phase : a.phase = .stopped) : Whole (a.finishStop s) := by
  have old := h.phase
  unfold InPhase at old
  simp only [phase] at old
  obtain ⟨off, calm, quiet⟩ := old
  obtain ⟨queue, ring⟩ := h.ring
  obtain ⟨lists, status, statistics, emptied⟩ := discardSlots_eq (s := s) (List.nodup_range (n := gemRingSize)) a []
  unfold Adapter.finishStop
  rcases result : discardSlots s (List.range gemRingSize) a [] with ⟨b, completed⟩
  rw [result] at lists emptied
  rw [List.append_nil] at lists
  change completed = _ at lists
  change b = _ at emptied
  subst emptied
  obtain ⟨returning, same, flat⟩ := complete_eq { a with
    tx := a.cleared (List.range gemRingSize), status := status
    statistics := statistics, txCount := 0, txHead := 0, txTail := 0, phase := .down } completed
  rw [lists] at flat
  simp only [same]
  have done := ring.discard (b := { a with
    tx := a.cleared (List.range gemRingSize), status := status
    statistics := statistics, txCount := 0, txHead := 0, txTail := 0, phase := .down, returning := returning })
    quiet (by dsimp only) rfl rfl rfl
  refine ⟨h.order, ⟨[], ?_⟩, fun busy kept => ?_, ⟨off, ⟨rfl, rfl⟩, calm⟩, h.touched, h.retained⟩
  · rw [flat]
    exact done
  · simp [calm kept] at busy

/-- The ring of an adapter that is down is empty. -/
theorem Ring.nil_of_empty {w : Books} {queue : Queue} {out : List ℕ} (h : Ring a w queue out) (empty : a.txCount = 0) : queue = [] := by
  have places := h.places
  rw [empty, window_zero, List.flatMap_eq_nil_iff] at places
  exact List.eq_nil_iff_forall_not_mem.mpr fun p hp => (h.marked p hp).1 (places p hp)

theorem Whole.initRings (h : Whole a) (phase : a.phase = .down) (fine : a.fault = false) (present : a.surpriseRemoved = false) :
    Whole a.initRings := by
  have old := h.phase
  unfold InPhase at old
  simp only [phase] at old
  obtain ⟨off, empty, calm⟩ := old
  have kept : a.retainDma = false := by
    by_contra retained
    have := h.retained.mp (by simpa using retained)
    simp [fine, present] at this
  obtain ⟨queue, ring⟩ := h.ring
  obtain rfl := ring.nil_of_empty empty.1
  refine ⟨h.order, ⟨[], { ring with waiting := fun p hp => by cases hp }⟩, fun busy _ => ?_, ?_, h.touched, h.retained⟩
  · have busy : a.busy = true := busy
    simp [calm kept] at busy
  · exact ⟨off, empty, kept, rfl, fun _ => rfl⟩

theorem Whole.startHardware (h : Whole a) (speed : ℕ) (phase : a.phase = .starting) : Whole (a.startHardware speed) := by
  have old := h.phase
  unfold InPhase at old
  simp only [phase] at old
  obtain ⟨-, ⟨count, tail⟩, kept, position, control⟩ := old
  obtain ⟨queue, ring⟩ := h.ring
  refine ⟨h.order, ⟨queue, { ring with }⟩, fun _ _ => ⟨0, 0, ?_⟩, ⟨fun _ => kept, fun fast => ?_⟩, fun busy => ?_, h.retained⟩
  · refine ⟨count.symm, ?_, fun i => ?_, fun i hi => ?_⟩
    · simp [Adapter.startHardware, position, tail]
    · simpa [Adapter.startHardware, control i] using used_initial i
    · cases hi
  · have : speed ≠ 0 := fast
    simp [Adapter.startHardware, this]
  · simp only [Adapter.startHardware, Bool.or_eq_true] at busy ⊢
    exact busy.imp_left h.touched

theorem Whole.release (h : Whole a) (errors : BitVec 32) (busy : a.busy = true) (own : ¬Used (a.control a.position)) :
    Whole (a.release errors) := by
  obtain ⟨queue, ring⟩ := h.ring
  have known (id : ℕ) (c : Account) (hc : observer.watch (.released a.position :: a.trace) id = some c) :
      ∃ c', observer.watch a.trace id = some c' ∧ c.waiting = c'.waiting.filter (· ≠ a.position) := by
    obtain ⟨c', known, rfl⟩ :=
      (Books.settle_eq_some (w := observer.watch a.trace) (f := fun l => l.filter (· ≠ a.position))).mp hc
    exact ⟨c', known, rfl⟩
  refine ⟨⟨trivial, h.order⟩, ⟨queue, ?_⟩, fun _ kept => ?_, ?_, h.touched, h.retained⟩
  · refine { ring with known := fun id => ?_, waiting := fun p hp c hc i hi => ?_, settled := fun id hid c hc => ?_ }
    · change ((observer.watch a.trace).settle (fun l => l.filter (· ≠ a.position)) id).isSome ↔ _
      rw [Books.isSome_settle, ring.known]
      rfl
    · obtain ⟨c', known, waiting⟩ := known p.1 c hc
      rw [waiting, List.mem_filter] at hi
      obtain ⟨inside, own⟩ := ring.waiting p hp c' known i hi.1
      have ne : i ≠ a.position := by simpa using hi.2
      exact ⟨inside, by simpa [Adapter.release, ne] using own⟩
    · obtain ⟨c', known, waiting⟩ := known id c hc
      rw [waiting, ring.settled id hid c' known, List.filter_nil]
  · obtain ⟨r, k, flow⟩ := h.flow busy kept
    obtain ⟨k, rfl⟩ : ∃ l, k = l + 1 := by
      cases k with
      | zero => exact absurd ((flow.owned _).mp own) List.not_mem_nil
      | succ k => exact ⟨k, rfl⟩
    have place : (a.txTail + r) % gemRingSize = a.position := flow.position.symm
    have whole := window_succ gemRingSize (a.txTail + r) k
    rw [place] at whole
    have total := flow.total
    have room := ring.room
    have nodup : (window gemRingSize (a.txTail + r) (k + 1)).Nodup := nodup_window (by omega)
    rw [whole, List.nodup_cons] at nodup
    have wrap := flow.wrap a.position (by simp [whole])
    refine ⟨r + 1, k, ?_, ?_, fun i => ?_, fun i hi => ?_⟩
    · simp only [Adapter.release]
      omega
    · have bound : a.position < gemRingSize := place ▸ Nat.mod_lt _ (by decide)
      have next : (a.txTail + (r + 1)) % gemRingSize = (a.position + 1) % gemRingSize := by
        rw [← place, Nat.mod_add_mod, Nat.add_assoc]
      simp only [Adapter.release, next]
      by_cases last : a.position = gemRingSize - 1
      · rw [if_pos (wrap.mpr last), last]
        rfl
      · rw [if_neg fun h => last (wrap.mp h), Nat.mod_eq_of_lt (by omega)]
    · rw [← Nat.add_assoc]
      have owned := flow.owned i
      rw [whole, List.mem_cons] at owned
      by_cases eq : i = a.position
      · subst eq
        simp [Adapter.release, used_or, nodup.1]
      · simpa [Adapter.release, eq] using owned
    · rw [← Nat.add_assoc] at hi
      have ne : i ≠ a.position := fun eq => nodup.1 (eq ▸ hi)
      have inside : i ∈ window gemRingSize (a.txTail + r) (k + 1) := whole ▸ List.mem_cons_of_mem _ hi
      simpa [Adapter.release, ne] using flow.wrap i inside
  · have old := h.phase
    unfold InPhase at old ⊢
    cases phase : a.phase <;> simp only [phase, Adapter.release] at old ⊢
    case starting => exact absurd (old.2.2.2.2 a.position) fun same => own (same ▸ used_initial _)
    case stopped =>
      refine ⟨old.1, old.2.1, fun id c hc => ?_⟩
      obtain ⟨c', known, waiting⟩ := known id c hc
      rw [waiting, old.2.2 id c' known, List.filter_nil]
    all_goals exact old

theorem Whole.deliver (h : Whole a) (n : ℕ) (inside : n < a.returning.length) : Whole (a.deliver n) := by
  obtain ⟨queue, ring⟩ := h.ring
  have chain : a.returning.getD n [] = a.returning[n] := List.getD_eq_getElem _ _ inside
  have perm : a.returning.flatten.Perm (a.returning[n] ++ (a.returning.eraseIdx n).flatten) :=
    (List.getElem_cons_eraseIdx_perm inside).symm.flatten
  have distinct : (queue.map Prod.fst ++ (a.returning[n] ++ (a.returning.eraseIdx n).flatten)).Nodup :=
    (perm.append_left _).nodup_iff.mp ring.distinct
  obtain ⟨-, leaving, apart⟩ := List.nodup_append.mp distinct
  have left (id : ℕ) : id ∈ a.returning.flatten ↔ id ∈ a.returning[n] ∨ id ∈ (a.returning.eraseIdx n).flatten := by
    rw [perm.mem_iff, List.mem_append]
  have order : observer.InOrder (a.deliver n).trace := by
    simp only [Adapter.deliver, chain]
    refine inOrder_completed h.order (List.nodup_append.mp leaving).1 fun id hid => ?_
    have gone := (left id).mpr (.inl hid)
    obtain ⟨c, known⟩ := Option.isSome_iff_exists.mp ((ring.known id).mpr (.inr gone))
    exact ⟨c, known, ring.settled id gone c known⟩
  have watch : observer.watch (a.deliver n).trace = fun id => if id ∈ a.returning[n] then none else observer.watch a.trace id := by
    simp only [Adapter.deliver, chain]
    exact watch_completed
  have old (id : ℕ) (c : Account) (hc : observer.watch (a.deliver n).trace id = some c) : observer.watch a.trace id = some c := by
    rw [watch] at hc
    simp only at hc
    split at hc
    · cases hc
    · exact hc
  refine ⟨order, ⟨queue, { ring with
    distinct := ?_, known := fun id => ?_, waiting := fun p hp c hc => ring.waiting p hp c (old _ c hc)
    settled := fun id hid c hc => ring.settled id ((left id).mpr (.inr hid)) c (old _ c hc) }⟩,
    fun busy kept => exists_flow (h.flow busy kept) ⟨rfl, rfl, rfl, rfl⟩, ?_, h.touched, h.retained⟩
  · exact List.nodup_append.mpr ⟨ring.nodup_queue, (List.nodup_append.mp leaving).2.1,
      fun x hx y hy => apart x hx y (List.mem_append_right _ hy)⟩
  · rw [watch]
    by_cases hid : id ∈ a.returning[n]
    · simp only [hid, if_true, Option.isSome_none, Bool.false_eq_true, false_iff, not_or]
      exact ⟨fun queued => apart id queued id (List.mem_append_left _ hid) rfl,
        fun later => (List.nodup_append.mp leaving).2.2 id hid id later rfl⟩
    · simp only [hid, if_false, ring.known, left, false_or]
      rfl
  · have phase := h.phase
    unfold InPhase at phase ⊢
    cases which : a.phase <;> simp only [which, Adapter.deliver] at phase ⊢
    case stopped => exact ⟨phase.1, phase.2.1, fun id c hc => phase.2.2 id c (old id c hc)⟩
    all_goals exact phase

/-- Nothing but the status of lists changes. -/
theorem Whole.cancelSend (h : Whole a) (chosen : ℕ → Bool) : Whole (a.cancelSend chosen) :=
  ⟨h.order, h.ring.imp fun _ ring => { ring with }, fun busy kept => exists_flow (h.flow busy kept) ⟨rfl, rfl, rfl, rfl⟩,
    h.phase, h.touched, h.retained⟩

/-- An adapter that no longer runs, whatever is asked of the maintenance thread. -/
theorem Whole.halt (h : Whole a) (reason : BitVec 32) :
    Whole { a with running := false, recoveryRequested := a.recoveryRequested ||| reason } := by
  refine ⟨h.order, h.ring.imp fun _ ring => { ring with }, fun busy kept => exists_flow (h.flow busy kept) ⟨rfl, rfl, rfl, rfl⟩,
    ?_, h.touched, h.retained⟩
  have phase := h.phase
  unfold InPhase at phase ⊢
  cases which : a.phase <;> simp only [which] at phase ⊢
  case up => exact ⟨fun on => absurd on Bool.false_ne_true, phase.2⟩
  case stopping => exact ⟨trivial, phase.2⟩
  all_goals exact ⟨⟨trivial, phase.1.2⟩, phase.2⟩

theorem Whole.remove (h : Whole a) (phase : a.phase = .up ∨ a.phase = .down) :
    Whole { a with surpriseRemoved := true, retainDma := true, running := false } := by
  refine ⟨h.order, h.ring.imp fun _ ring => { ring with }, fun _ kept => absurd kept.symm Bool.false_ne_true, ?_, h.touched, by simp⟩
  have old := h.phase
  unfold InPhase at old ⊢
  rcases phase with which | which <;> simp only [which] at old ⊢
  · exact ⟨fun on => absurd on Bool.false_ne_true, old.2⟩
  · exact ⟨⟨trivial, old.1.2⟩, old.2.1, fun kept => absurd kept.symm Bool.false_ne_true⟩

/-! ### Runs -/

theorem whole_adapter : Whole adapter := by
  have idle : adapter.busy = true → False := Bool.false_ne_true
  refine ⟨trivial, ⟨[], ?_⟩, fun busy => (idle busy).elim, ⟨⟨rfl, rfl⟩, ⟨rfl, rfl⟩, fun _ => rfl⟩, fun busy => (idle busy).elim,
    by decide⟩
  exact ⟨rfl, by decide, by decide, rfl, by simp, fun _ _ => rfl, List.nodup_nil, fun id => by simp [observer, adapter, Observer.watch],
    by simp, by simp [adapter], fun _ => Nat.zero_le _⟩

theorem Whole.step (h : Whole a) (e : Action) (possible : Possible a e) : Whole (step a e) := by
  cases e with
  | send lists => exact h.send possible.1 possible.2
  | completeTransmit => exact h.completeTransmit.1
  | stopHardware => exact h.stopHardware
  | drain idle => exact h.drain idle possible
  | finishStop s => exact h.finishStop s possible
  | initRings => exact h.initRings possible.1 possible.2.1 possible.2.2
  | startHardware speed => exact h.startHardware speed possible
  | release errors => exact h.release errors possible.1 possible.2
  | deliver n => exact h.deliver n possible
  | cancelSend chosen => exact h.cancelSend chosen
  | halt reason => exact h.halt reason
  | remove => exact h.remove possible

theorem miniport_next {e : Action} (next : miniport.next a e = some b) : Possible a e ∧ b = Ethernet.step a e := by
  simp only [miniport] at next
  split at next
  · rename_i possible
    exact ⟨possible, (Option.some_inj.mp next).symm⟩
  · cases next

theorem reachable_whole (h : miniport.Reachable a) : Whole a :=
  h.invariant whole_adapter fun e whole _ next => by
    obtain ⟨possible, rfl⟩ := miniport_next next
    exact whole.step e possible

/-! ### What the ring, the hardware and NDIS have -/

/-- The hardware may process a descriptor that it was given and did not release. -/
def Adapter.Owns (a : Adapter) (i : ℕ) : Prop := a.busy = true ∧ ¬Used (a.control i)

/-- Of the slots between the tail and the head, the hardware has all but the first few,
which it released. -/
def Adapter.OwnsWindow (a : Adapter) : Prop :=
  ∃ r k, r + k = a.txCount ∧ ∀ i, a.Owns i ↔ i ∈ window gemRingSize (a.txTail + r) k

structure Accounted (a : Adapter) : Prop where
  head : a.txHead = (a.txTail + a.txCount) % gemRingSize
  room : a.txCount < gemRingSize
  held : ∀ i, (a.tx i).nbl ≠ none ↔ i ∈ window gemRingSize a.txTail a.txCount
  owned : a.retainDma = false → a.OwnsWindow
  /-- While the memory of the rings is kept for hardware that may still use it, nothing is sent. -/
  retained : a.retainDma = true → a.running = false
  /-- A stop leaves nothing in the ring. -/
  stopped : a.phase = .down → a.txCount = 0

theorem Whole.ownsWindow (h : Whole a) (kept : a.retainDma = false) : a.OwnsWindow := by
  by_cases busy : a.busy = true
  · obtain ⟨r, k, flow⟩ := h.flow busy kept
    exact ⟨r, k, flow.total, fun i => (and_iff_right busy).trans (flow.owned i)⟩
  · exact ⟨a.txCount, 0, rfl, fun i => by simp [Adapter.Owns, busy]⟩

theorem Whole.accounted (h : Whole a) : Accounted a := by
  obtain ⟨queue, ring⟩ := h.ring
  refine ⟨ring.head, ring.room, fun i => ring.held_iff, h.ownsWindow, fun retained => ?_, fun down => ?_⟩
  · by_contra on
    have on : a.running = true := by simpa using on
    have up := h.phase.up on
    have phase := h.phase
    unfold InPhase at phase
    simp only [up] at phase
    simp [phase.1 on] at retained
  · have phase := h.phase
    unfold InPhase at phase
    simp only [down] at phase
    exact phase.2.1.1

/-- How often a list was submitted. -/
def submissions (trace : List Event) (id : ℕ) : ℕ :=
  trace.countP fun e => match e with
    | .submitted other _ => other = id
    | _ => false

/-- The miniport has the list. -/
def Adapter.Has (a : Adapter) (id : ℕ) : Prop := (∃ i < gemRingSize, (a.tx i).nbl = some id) ∨ ∃ l ∈ a.returning, id ∈ l

theorem Whole.known_iff (h : Whole a) (id : ℕ) : (observer.watch a.trace id).isSome ↔ a.Has id := by
  obtain ⟨queue, ring⟩ := h.ring
  rw [ring.known, ring.mem_queue_iff, List.mem_flatten]
  rfl

/-- Accounts are opened and closed in one way only. -/
theorem isSome_saw {w : Books} {e : Event} {id : ℕ} (opens : ∀ n, e ≠ .submitted id n) (closes : e ≠ .completed id) :
    (w.saw e id).isSome = (w id).isSome := by
  cases e with
  | submitted other n => rw [Books.saw, Function.update_of_ne fun eq => opens n (by rw [eq])]
  | completed other => rw [Books.saw, Function.update_of_ne fun eq => closes (by rw [eq])]
  | published other i =>
    by_cases eq : id = other
    · simp [Books.saw, eq]
    · rw [Books.saw, Function.update_of_ne eq]
  | released i => exact Books.isSome_settle
  | stopped => exact Books.isSome_settle (w := w) (f := fun _ => [])
  | accepted other => rfl
  | rejected other => rfl

/-- A list that was submitted went back, or there is an account of it. -/
theorem submissions_eq {trace : List Event} (order : observer.InOrder trace) (id : ℕ) :
    submissions trace id = trace.count (.completed id) + if (observer.watch trace id).isSome then 1 else 0 := by
  induction trace with
  | nil => rfl
  | cons e older ih =>
    obtain ⟨allowed, order⟩ := order
    have ih := ih order
    change _ = _ + if ((observer.watch older).saw e id).isSome = true then 1 else 0
    by_cases opens : ∃ n, e = .submitted id n
    · obtain ⟨n, rfl⟩ := opens
      have none : observer.watch older id = none := allowed
      rw [List.count_cons_of_ne (by simp)]
      simpa [submissions, Books.saw, none] using ih
    · by_cases closes : e = .completed id
      · subst closes
        obtain ⟨c, known, -⟩ : ∃ c, observer.watch older id = some c ∧ _ := allowed
        rw [List.count_cons_self]
        simpa [submissions, Books.saw, known] using ih
      · rw [isSome_saw (fun n eq => opens ⟨n, eq⟩) closes, List.count_cons_of_ne closes, ← ih, submissions, submissions, List.countP_cons]
        cases e with
        | submitted other n =>
          have : other ≠ id := fun eq => opens ⟨n, by rw [eq]⟩
          simp [this]
        | _ => rfl

/-- A list goes back as often as it was submitted, unless the miniport has it. -/
def Balanced (a : Adapter) : Prop :=
  ∀ id, (a.Has id → submissions a.trace id = a.trace.count (.completed id) + 1) ∧
    (¬a.Has id → submissions a.trace id = a.trace.count (.completed id))

theorem Whole.balanced (h : Whole a) : Balanced a := by
  intro id
  rw [← h.known_iff, submissions_eq h.order]
  exact ⟨fun known => by rw [if_pos known], fun unknown => by rw [if_neg unknown, Nat.add_zero]⟩

/-- A pass of an adapter that runs takes back all that was released. -/
def Passes (a : Adapter) : Prop :=
  ∀ b, miniport.next a .completeTransmit = some b → a.running = true → b.txCount = 0 ∨ ¬Used (b.control b.txTail)

/-- In whatever order lists are sent and completed, the hardware is stopped and started,
and descriptors are released: the ring accounts for its slots, every list goes back when
it may and as often as it was submitted, and the hardware has what lies between the tail
and the head, until the memory has to be kept for it. -/
theorem transmit_accounted (a : Adapter) (h : miniport.Reachable a) :
    Accounted a ∧ observer.InOrder a.trace ∧ Balanced a ∧ Passes a := by
  have whole := reachable_whole h
  refine ⟨whole.accounted, whole.order, whole.balanced, fun b next on => ?_⟩
  obtain ⟨-, rfl⟩ := miniport_next next
  exact whole.completeTransmit.2 on

/-- One frame is sent, the hardware is stopped and does not finish. -/
def stuckRun : List Action :=
  [.initRings, .startHardware 1000, .send [⟨1, [⟨List.replicate 14 0, true⟩]⟩], .stopHardware, .drain false, .finishStop .failure]

/-- The ring of that run is accounted for. -/
theorem stuck_accounted : ∃ a, miniport.runFrom adapter stuckRun = some a ∧
    Accounted a ∧ observer.InOrder a.trace ∧ Balanced a ∧ Passes a := by
  have run : (miniport.runFrom adapter stuckRun).isSome := by decide +kernel
  obtain ⟨a, result⟩ := Option.isSome_iff_exists.mp run
  exact ⟨a, result, transmit_accounted a (System.reachable_of_run result)⟩

/-- The end of a stop empties the ring, and leaves the descriptors and the hardware as they are. -/
theorem finishStop_kept (a : Adapter) (s : Status) :
    (a.finishStop s).txCount = 0 ∧ (a.finishStop s).busy = a.busy ∧ (a.finishStop s).control = a.control := by
  obtain ⟨-, status, statistics, emptied⟩ := discardSlots_eq (s := s) (List.nodup_range (n := gemRingSize)) a []
  unfold Adapter.finishStop
  rcases result : discardSlots s (List.range gemRingSize) a [] with ⟨b, completed⟩
  rw [result] at emptied
  change b = _ at emptied
  subst emptied
  obtain ⟨returning, same, -⟩ := complete_eq { a with
    tx := a.cleared (List.range gemRingSize), status := status
    statistics := statistics, txCount := 0, txHead := 0, txTail := 0, phase := .down } completed
  simp only [same, and_self]

/-- Hardware that does not finish may still use a descriptor when the ring is empty. -/
theorem stuck_owns : ¬∀ a, miniport.Reachable a → a.OwnsWindow := by
  intro h
  have run : (miniport.runFrom adapter stuckRun.dropLast).any fun a =>
      a.phase = .stopped ∧ a.busy = true ∧ ¬Used (a.control 0) := by decide +kernel
  rcases result : miniport.runFrom adapter stuckRun.dropLast with _ | a
  · simp [result] at run
  · simp only [result, Option.any_some, decide_eq_true_eq] at run
    obtain ⟨stopped, busy, own⟩ := run
    have stop : miniport.next a (.finishStop .failure) = some (a.finishStop .failure) := if_pos stopped
    obtain ⟨empty, still, same⟩ := finishStop_kept a .failure
    obtain ⟨r, k, total, owns⟩ := h _ ((System.reachable_of_run result).step _ stop)
    have inside := (owns 0).mp ⟨still.trans busy, by rwa [same]⟩
    obtain rfl : k = 0 := by omega
    cases inside

end Pi5Drivers.Ethernet
