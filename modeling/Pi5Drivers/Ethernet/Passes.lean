import Pi5Drivers.Ethernet.Books

/-! The passes over the ring: the slots that a completion takes back, the lists that a
send puts in, and the slots that a stop empties. -/

namespace Pi5Drivers.Ethernet

open Adapter

variable {a b : Adapter} {w : Books} {queue : Queue} {out completed rest : List ℕ} {id n r k : ℕ}

/-! ### Completion -/

theorem head_place (h : Ring a w queue out) (pos : 0 < a.txCount) :
    ∃ id l q, queue = (id, a.txTail :: l) :: q ∧
      l ++ q.flatMap Prod.snd = window gemRingSize (a.txTail + 1) (a.txCount - 1) := by
  have places := h.places
  rw [show a.txCount = (a.txCount - 1) + 1 by omega, window_succ, Nat.mod_eq_of_lt h.tail] at places
  match queue, h with
  | [], _ => simp at places
  | (id, []) :: q, h => exact absurd rfl (h.marked _ List.mem_cons_self).1
  | (id, i :: l) :: q, h =>
    simp only [List.flatMap_cons, List.cons_append, List.cons.injEq] at places
    obtain ⟨rfl, rest⟩ := places
    exact ⟨id, l, q, rfl, rest⟩

/-- The slot at the tail is taken back, and its list leaves the ring with its last slot. -/
theorem Ring.advance (h : Ring a w queue out) (pos : 0 < a.txCount) (used : Used (a.control a.txTail)) :
    ∃ id queue', (a.tx a.txTail).nbl = some id ∧
      Ring a.advance w queue' (if (a.tx a.txTail).last = true then id :: out else out) := by
  obtain ⟨id, l, q, rfl, places⟩ := head_place h pos
  have nodup : (window gemRingSize a.txTail ((a.txCount - 1) + 1)).Nodup := nodup_window (by have := h.room; omega)
  rw [window_succ, Nat.mod_eq_of_lt h.tail, List.nodup_cons] at nodup
  obtain ⟨-, last, marked⟩ := (h.marked _ List.mem_cons_self).2
  have nbl : (a.tx a.txTail).nbl = some id := h.nbl_of_mem List.mem_cons_self List.mem_cons_self
  have apart (p : ℕ × List ℕ) (hp : p ∈ (id, l) :: q) (i : ℕ) (hi : i ∈ p.2) : i ≠ a.txTail := by
    rintro rfl
    refine nodup.1 (places ▸ ?_)
    rcases List.mem_cons.mp hp with rfl | hp
    · exact List.mem_append_left _ hi
    · exact List.mem_append_right _ (List.mem_flatMap.mpr ⟨p, hp, hi⟩)
  have kept (p : ℕ × List ℕ) (hp : p ∈ (id, l) :: q) (m : Marked a.tx p.1 p.2) : Marked a.advance.tx p.1 p.2 :=
    m.congr fun i hi => by simp [Adapter.advance, setSlot, apart p hp i hi]
  have lists (p : ℕ × List ℕ) (hp : p ∈ q) : p.2 ≠ [] ∧ Marked a.advance.tx p.1 p.2 := by
    obtain ⟨ne, m⟩ := h.marked p (List.mem_cons_of_mem _ hp)
    exact ⟨ne, kept p (List.mem_cons_of_mem _ hp) m⟩
  have head : a.advance.txHead = (a.advance.txTail + a.advance.txCount) % gemRingSize := by
    simp only [Adapter.advance, setSlot, h.head, Nat.mod_add_mod]
    congr 1
    omega
  have room : a.advance.txCount < gemRingSize := by
    have := h.room
    simp only [Adapter.advance]
    omega
  have tail : a.advance.txTail < gemRingSize := Nat.mod_lt _ (by decide)
  have vacant (i : ℕ) (hi : i ∉ window gemRingSize a.advance.txTail a.advance.txCount) : (a.advance.tx i).nbl = none := by
    by_cases eq : i = a.txTail
    · simp [Adapter.advance, setSlot, TxSlot.clear, eq]
    · have : i ∉ window gemRingSize a.txTail ((a.txCount - 1) + 1) := by
        rw [window_succ, Nat.mod_eq_of_lt h.tail]
        simp only [Adapter.advance, window_mod] at hi
        exact List.not_mem_cons_of_ne_of_not_mem eq hi
      rw [Nat.sub_add_cancel pos] at this
      simpa [Adapter.advance, setSlot, eq] using h.vacant i this
  have lengths (i : ℕ) : (a.advance.tx i).length ≤ gemFrameMax := by
    by_cases eq : i = a.txTail
    · simpa [Adapter.advance, setSlot, TxSlot.clear, eq] using h.lengths a.txTail
    · simpa [Adapter.advance, setSlot, TxSlot.clear, eq] using h.lengths i
  have unused (c : Account) (hc : w id = some c) (i : ℕ) (hi : i ∈ c.waiting) : i ∈ l ∧ ¬Used (a.control i) := by
    obtain ⟨inside, own⟩ := h.waiting _ List.mem_cons_self c hc i hi
    rcases List.mem_cons.mp inside with rfl | inside
    · exact absurd used own
    · exact ⟨inside, own⟩
  by_cases final : l = []
  · subst final
    refine ⟨id, q, nbl, ?_⟩
    rw [if_pos (last.mpr rfl)]
    refine ⟨head, room, tail, ?_, lists, vacant, ?_, fun other => ?_, fun p hp => ?_, fun other hother c hc => ?_, lengths⟩
    · simpa [Adapter.advance] using places
    · exact (List.perm_middle.nodup_iff).mpr h.distinct
    · rw [h.known, List.map_cons, List.mem_cons, List.mem_cons]
      tauto
    · exact h.waiting p (List.mem_cons_of_mem _ hp)
    · rcases List.mem_cons.mp hother with rfl | hother
      · exact List.eq_nil_iff_forall_not_mem.mpr fun i hi => absurd (unused c hc i hi).1 List.not_mem_nil
      · exact h.settled other hother c hc
  · refine ⟨id, (id, l) :: q, nbl, ?_⟩
    rw [if_neg fun yes => final (last.mp yes)]
    refine ⟨head, room, tail, ?_, fun p hp => ?_, vacant, h.distinct, h.known, fun p hp c hc i hi => ?_, h.settled, lengths⟩
    · simpa [Adapter.advance] using places
    · rcases List.mem_cons.mp hp with rfl | hp
      · exact ⟨final, kept _ List.mem_cons_self marked⟩
      · exact lists p hp
    · rcases List.mem_cons.mp hp with rfl | hp
      · exact unused c hc i hi
      · exact h.waiting p (List.mem_cons_of_mem _ hp) c hc i hi

/-- The descriptor at the tail was released. -/
theorem Flow.advance (h : Flow a r k) (pos : 0 < a.txCount) (tail : a.txTail < gemRingSize) (used : Used (a.control a.txTail)) :
    ∃ r', Flow a.advance r' k := by
  cases r with
  | zero =>
    have : a.txTail ∈ window gemRingSize (a.txTail + 0) k := by
      have total := h.total
      exact mem_window.mpr ⟨0, by omega, Nat.mod_eq_of_lt tail⟩
    exact absurd used ((h.owned _).mpr this)
  | succ r =>
    have same : window gemRingSize (a.advance.txTail + r) k = window gemRingSize (a.txTail + (r + 1)) k := by
      refine window_congr ?_ k
      simp only [Adapter.advance, Nat.mod_add_mod]
      congr 1
      omega
    refine ⟨r, ?_, ?_, fun i => ?_, fun i hi => ?_⟩
    · have total := h.total
      simp only [Adapter.advance]
      omega
    · simp only [Adapter.advance, setSlot, h.position, Nat.mod_add_mod]
      congr 1
      omega
    · rw [same]
      exact h.owned i
    · rw [same] at hi
      exact h.wrap i hi

theorem account_eq (a : Adapter) (id : ℕ) (slot : TxSlot) (c : BitVec 32) :
    ∃ status statistics, a.account id slot c = { a with status := status, statistics := statistics } := by
  unfold account
  split
  · exact ⟨_, _, rfl⟩
  · exact ⟨_, _, rfl⟩

/-- What a completion may change. -/
def Taken (a b : Adapter) : Prop :=
  ∃ tx tail count status statistics,
    b = { a with tx := tx, txTail := tail, txCount := count, status := status, statistics := statistics }

theorem completeSlots_ring (h : Ring a w queue (completed ++ rest)) (eq : n = a.txCount) :
    (∃ queue', Ring (completeSlots n a completed).1 w queue' ((completeSlots n a completed).2 ++ rest)) ∧
      Taken a (completeSlots n a completed).1 ∧ (Flow a r k → ∃ r', Flow (completeSlots n a completed).1 r' k) ∧
      (a.running = true → (completeSlots n a completed).1.txCount = 0 ∨
        ¬Used ((completeSlots n a completed).1.control (completeSlots n a completed).1.txTail)) := by
  induction n generalizing a queue completed r with
  | zero => exact ⟨⟨queue, h⟩, ⟨_, _, _, _, _, rfl⟩, fun flow => ⟨r, flow⟩, fun _ => .inl eq.symm⟩
  | succ n ih =>
    have pos : 0 < a.txCount := by omega
    rw [completeSlots]
    split
    · rename_i ready
      obtain ⟨id, queue', nbl, ring⟩ := h.advance pos ready.2
      obtain ⟨status, statistics, same⟩ := account_eq a id (a.tx a.txTail) (a.control a.txTail)
      simp only [nbl, same]
      have counted : Ring { a with status := status, statistics := statistics }.advance w queue'
          ((if (a.tx a.txTail).last = true then id :: completed else completed) ++ rest) := by
        have split : (if (a.tx a.txTail).last = true then id :: completed else completed) ++ rest =
            if (a.tx a.txTail).last = true then id :: (completed ++ rest) else completed ++ rest := by split <;> rfl
        rw [split]
        exact { ring with }
      obtain ⟨ring, ⟨tx, tail, count, status', statistics', taken⟩, -, finished⟩ :=
        ih (r := 0) counted (by simp only [Adapter.advance]; omega)
      refine ⟨ring, ⟨tx, tail, count, status', statistics', taken⟩, fun flow => ?_, finished⟩
      obtain ⟨r', flow⟩ := flow.advance pos h.tail ready.2
      exact (ih (r := r') counted (by simp only [Adapter.advance]; omega)).2.2.1 { flow with }
    · rename_i stuck
      exact ⟨⟨queue, h⟩, ⟨_, _, _, _, _, rfl⟩, fun flow => ⟨r, flow⟩, fun on => .inr fun used => stuck ⟨on, used⟩⟩

/-! ### Sends -/

theorem Ring.staged (h : Ring a w queue out) (staged : Staged a b) : Ring b w queue out := by
  obtain ⟨tx, frame, rfl, same, lengths⟩ := staged
  refine { h with marked := fun p hp => ?_, vacant := fun i hi => ?_, lengths := lengths h.lengths }
  · exact ⟨(h.marked p hp).1, (h.marked p hp).2.congr fun i _ => same i⟩
  · exact (same i).1.trans (h.vacant i hi)

theorem Ring.reject (h : Ring a w queue out) (fresh : w id = none) (s : Status) (n : ℕ) :
    Ring (a.reject id s) (Function.update w id (some ⟨n, 0, []⟩)) queue (id :: out) := by
  have absent : id ∉ queue.map Prod.fst ∧ id ∉ out := by
    have := (h.known id).not.mp (by simp [fresh])
    tauto
  refine ⟨h.head, h.room, h.tail, h.places, h.marked, h.vacant, ?_, fun other => ?_, fun p hp c hc => ?_, fun other hother c hc => ?_,
    h.lengths⟩
  · refine (List.perm_middle.nodup_iff).mpr (List.nodup_cons.mpr ⟨?_, h.distinct⟩)
    rw [List.mem_append]
    tauto
  · by_cases eq : other = id
    · simp [eq]
    · rw [Function.update_of_ne eq, h.known, List.mem_cons]
      tauto
  · have : p.1 ≠ id := fun eq => absent.1 (eq ▸ List.mem_map_of_mem hp)
    rw [Function.update_of_ne this] at hc
    exact h.waiting p hp c hc
  · by_cases eq : other = id
    · subst eq
      rw [Function.update_self] at hc
      cases hc
      rfl
    · rw [Function.update_of_ne eq] at hc
      exact h.settled other (List.mem_of_ne_of_mem eq hother) c hc

/-- What a list that is accepted changes. -/
theorem accept_eq (a : Adapter) (index : ℕ) (hn : n ≤ gemRingSize) :
    a.accept id n index =
      { a with
        tx := fun i => if i ∈ window gemRingSize a.txHead n then
          { a.tx i with nbl := some id, last := decide (i = (a.txHead + (n - 1)) % gemRingSize) } else a.tx i
        control := fun i => if i ∈ window gemRingSize a.txHead n then word (a.tx i).length i else a.control i
        trace := .accepted id :: ((window gemRingSize a.txHead n).map (Event.published id) ++ a.trace)
        status := Function.update a.status id .success
        txCount := a.txCount + n
        txHead := index } := by
  simp only [accept, publish_eq (le_refl n) hn, record, setStatus]

theorem head_window (h : Ring a w queue out) (n : ℕ) :
    window gemRingSize a.txHead n = window gemRingSize (a.txTail + a.txCount) n := by
  rw [h.head, window_mod]

/-- The new list comes last. -/
theorem Ring.accept (h : Ring a w queue out) (fresh : w id = none) (pos : 0 < n) (room : a.txCount + n ≤ gemRingSize - 1) :
    Ring (a.accept id n ((a.txHead + n) % gemRingSize))
      (Function.update w id (some ⟨n, n, window gemRingSize a.txHead n⟩)) (queue ++ [(id, window gemRingSize a.txHead n)]) out := by
  have small : n ≤ gemRingSize := by omega
  have absent : id ∉ queue.map Prod.fst ∧ id ∉ out := by
    have := (h.known id).not.mp (by simp [fresh])
    tauto
  have apart (i : ℕ) (hi : i ∈ window gemRingSize a.txTail a.txCount) : i ∉ window gemRingSize a.txHead n := by
    rw [head_window h]
    exact disjoint_window (by omega) hi
  have whole : window gemRingSize a.txTail (a.txCount + n) = window gemRingSize a.txTail a.txCount ++ window gemRingSize a.txHead n := by
    rw [window_add, head_window h]
  rw [accept_eq a _ small]
  refine ⟨?_, by simp only; omega, h.tail, ?_, fun p hp => ?_, fun i hi => ?_, ?_, fun other => ?_, fun p hp c hc i hi => ?_,
    fun other hother c hc => ?_, fun i => ?_⟩
  · simp only [h.head, Nat.mod_add_mod, Nat.add_assoc]
  · rw [List.flatMap_append, h.places]
    simpa using whole.symm
  · rcases List.mem_append.mp hp with hp | hp
    · obtain ⟨ne, marked⟩ := h.marked p hp
      refine ⟨ne, marked.congr fun i hi => ?_⟩
      simp [apart i (h.mem_place.mpr ⟨p, hp, hi⟩)]
    · obtain rfl := List.mem_singleton.mp hp
      refine ⟨fun none => ?_, marked_window small (fun i hi => by simp [hi]) fun i hi => by simp [hi]⟩
      have := congrArg List.length none
      simp only [length_window, List.length_nil] at this
      omega
  · simp only [whole, List.mem_append, not_or] at hi
    simp [hi.2, h.vacant i hi.1]
  · have perm : ((queue ++ [(id, window gemRingSize a.txHead n)]).map Prod.fst ++ out).Perm (id :: (queue.map Prod.fst ++ out)) := by
      simp
    refine perm.nodup_iff.mpr (List.nodup_cons.mpr ⟨?_, h.distinct⟩)
    rw [List.mem_append]
    tauto
  · by_cases eq : other = id
    · simp [eq]
    · rw [Function.update_of_ne eq, h.known]
      simp [eq]
  · rcases List.mem_append.mp hp with hp | hp
    · have : p.1 ≠ id := fun eq => absent.1 (eq ▸ List.mem_map_of_mem hp)
      rw [Function.update_of_ne this] at hc
      obtain ⟨inside, own⟩ := h.waiting p hp c hc i hi
      exact ⟨inside, by simpa [apart i (h.mem_place.mpr ⟨p, hp, inside⟩)] using own⟩
    · obtain rfl := List.mem_singleton.mp hp
      rw [Function.update_self] at hc
      cases hc
      exact ⟨hi, by simpa only [show i ∈ window gemRingSize a.txHead n from hi, if_true] using not_used_word (h.lengths i)⟩
  · have : other ≠ id := fun eq => absent.2 (eq ▸ hother)
    rw [Function.update_of_ne this] at hc
    exact h.settled other hother c hc
  · by_cases inside : i ∈ window gemRingSize a.txHead n <;> simp [inside, h.lengths i]

/-- The hardware has all new descriptors. -/
theorem Flow.accept (h : Flow a r k) (ring : Ring a w queue out) (room : a.txCount + n ≤ gemRingSize - 1) :
    Flow (a.accept id n ((a.txHead + n) % gemRingSize)) r (k + n) := by
  have total := h.total
  have whole : window gemRingSize (a.txTail + r) (k + n) = window gemRingSize (a.txTail + r) k ++ window gemRingSize a.txHead n := by
    rw [window_add, head_window ring, Nat.add_assoc, total]
  have apart (i : ℕ) (hi : i ∈ window gemRingSize (a.txTail + r) k) : i ∉ window gemRingSize a.txHead n := by
    rw [head_window ring, ← total, ← Nat.add_assoc]
    exact disjoint_window (by omega) hi
  rw [accept_eq a _ (by omega)]
  refine ⟨by simp only; omega, h.position, fun i => ?_, fun i hi => ?_⟩
  · simp only [whole, List.mem_append]
    by_cases new : i ∈ window gemRingSize a.txHead n
    · simp [new, not_used_word (ring.lengths i)]
    · simp only [new, if_false, or_false]
      exact h.owned i
  · simp only [whole, List.mem_append] at hi
    by_cases new : i ∈ window gemRingSize a.txHead n
    · simpa only [new, if_true] using wrap_word (ring.lengths i)
    · simp only [new, if_false]
      exact h.wrap i (hi.resolve_right new)

/-- What a send may change. -/
def Sent (a b : Adapter) : Prop :=
  ∃ tx frame control trace status statistics count head,
    b = { a with
      tx := tx, frame := frame, control := control, trace := trace, status := status, statistics := statistics
      txCount := count, txHead := head }

theorem Sent.refl (a : Adapter) : Sent a a := ⟨_, _, _, _, _, _, _, _, rfl⟩

theorem Sent.trans {c : Adapter} (hab : Sent a b) (hbc : Sent b c) : Sent a c := by
  obtain ⟨_, _, _, _, _, _, _, _, rfl⟩ := hab
  obtain ⟨_, _, _, _, _, _, _, _, rfl⟩ := hbc
  exact ⟨_, _, _, _, _, _, _, _, rfl⟩

/-- What a list that is rejected changes. -/
theorem reject_eq (a : Adapter) (id m : ℕ) (s : Status) :
    ∃ status statistics, (a.record (.submitted id m)).reject id s =
      { a with trace := .rejected id :: .submitted id m :: a.trace, status := status, statistics := statistics } :=
  ⟨_, _, rfl⟩

/-- The ring while lists are sent: the trace is in order, and the hardware follows. -/
structure Sending (a : Adapter) (queue : Queue) (out : List ℕ) : Prop where
  order : observer.InOrder a.trace
  ring : Ring a (observer.watch a.trace) queue out
  flow : a.busy = true → a.retainDma = false → ∃ r k, Flow a r k

theorem watch_reject {m : ℕ} (trace : b.trace = a.trace) (s : Status) :
    observer.watch ((b.record (.submitted id m)).reject id s).trace =
      Function.update (observer.watch a.trace) id (some ⟨m, 0, []⟩) := by
  change observer.watch (.rejected id :: .submitted id m :: b.trace) = _
  rw [trace]
  rfl

theorem trace_accept (staged : Staged a b) (small : n ≤ gemRingSize) (index : ℕ) :
    ((b.record (.submitted id n)).accept id n index).trace =
      .accepted id :: ((window gemRingSize a.txHead n).map (Event.published id) ++ .submitted id n :: a.trace) := by
  rw [accept_eq _ _ small]
  simp only [record, staged.kept]

theorem watch_accept (staged : Staged a b) (small : n ≤ gemRingSize) (index : ℕ) :
    observer.watch ((b.record (.submitted id n)).accept id n index).trace =
      Function.update (observer.watch a.trace) id (some ⟨n, n, window gemRingSize a.txHead n⟩) := by
  rw [trace_accept staged small]
  change observer.watch ((window gemRingSize a.txHead n).map (Event.published id) ++ .submitted id n :: a.trace) = _
  have opened : observer.watch (.submitted id n :: a.trace) id = some ⟨n, 0, []⟩ := Function.update_self _ _ _
  rw [watch_published opened]
  change Function.update (Function.update _ id _) id _ = _
  simp

theorem Sending.reject {m : ℕ} (h : Sending a queue out) (fresh : observer.watch a.trace id = none) (staged : Staged a b)
    (s : Status) : Sending ((b.record (.submitted id m)).reject id s) queue (id :: out) := by
  refine ⟨?_, ?_, fun busy kept => ?_⟩
  · change observer.InOrder (.rejected id :: .submitted id m :: b.trace)
    rw [staged.kept.2.2]
    exact ⟨⟨_, Function.update_self _ _ _, rfl⟩, fresh, h.order⟩
  · rw [watch_reject staged.kept.2.2]
    exact { (h.ring.staged staged).reject fresh s m with }
  · obtain ⟨tx, frame, rfl, -⟩ := staged
    obtain ⟨r, k, flow⟩ := h.flow busy kept
    exact ⟨r, k, { flow with }⟩

theorem Sending.accept (h : Sending a queue out) (fresh : observer.watch a.trace id = none) (staged : Staged a b)
    (pos : 0 < n) (room : a.txCount + n ≤ gemRingSize - 1) :
    Sending ((b.record (.submitted id n)).accept id n ((a.txHead + n) % gemRingSize))
      (queue ++ [(id, window gemRingSize a.txHead n)]) out := by
  have ring : Ring (b.record (.submitted id n)) (observer.watch a.trace) queue out := { h.ring.staged staged with }
  have opened : observer.watch (.submitted id n :: a.trace) id = some ⟨n, 0, []⟩ := Function.update_self _ _ _
  have apart (i : ℕ) (hi : i ∈ window gemRingSize a.txHead n) (other : ℕ) (c : Account)
      (hc : observer.watch (.submitted id n :: a.trace) other = some c) : i ∉ c.waiting := by
    by_cases eq : other = id
    · subst eq
      cases opened.symm.trans hc
      exact List.not_mem_nil
    · have hc : observer.watch a.trace other = some c := (Function.update_of_ne eq _ _).symm.trans hc
      intro waits
      rcases (h.ring.known other).mp (by simp [hc]) with queued | left
      · obtain ⟨p, hp, rfl⟩ := List.mem_map.mp queued
        have inside := h.ring.mem_place.mpr ⟨p, hp, (h.ring.waiting p hp c hc i waits).1⟩
        rw [head_window h.ring] at hi
        exact disjoint_window (by omega) inside hi
      · simp [h.ring.settled other left c hc] at waits
  refine ⟨?_, ?_, fun busy kept => ?_⟩
  · rw [trace_accept staged (by omega)]
    refine ⟨?_, inOrder_published ⟨fresh, h.order⟩ opened (nodup_window (by omega)) apart⟩
    refine ⟨⟨n, n, window gemRingSize a.txHead n⟩, ?_, rfl, pos⟩
    rw [watch_published opened, Function.update_self]
    simp
  · rw [watch_accept staged (by omega)]
    have := ring.accept fresh pos (by simpa only [record, staged.kept] using room)
    simpa only [record, staged.kept] using this
  · rw [accept_eq _ _ (by omega)] at busy kept
    obtain ⟨tx, frame, rfl, -⟩ := staged
    obtain ⟨r, k, flow⟩ := h.flow busy kept
    have : Flow (record { a with tx := tx, frame := frame } (.submitted id n)) r k := { flow with }
    exact ⟨r, k + n, this.accept ring room⟩

/-- One list is sent or rejected, and the accounts of the others stay. -/
theorem sendOne_sending {l : NetBufferList} (h : Sending a queue (completed ++ rest))
    (fresh : observer.watch a.trace l.id = none) :
    (∃ queue', Sending (a.sendOne completed l).1 queue' ((a.sendOne completed l).2 ++ rest)) ∧
      Sent a (a.sendOne completed l).1 ∧
      ∀ id, id ≠ l.id → observer.watch (a.sendOne completed l).1.trace id = observer.watch a.trace id := by
  have rejected {b : Adapter} (staged : Staged a b) (s : Status) :
      (∃ queue', Sending ((b.record (.submitted l.id l.buffers.length)).reject l.id s) queue' (l.id :: completed ++ rest)) ∧
        Sent a ((b.record (.submitted l.id l.buffers.length)).reject l.id s) ∧
        ∀ id, id ≠ l.id → observer.watch ((b.record (.submitted l.id l.buffers.length)).reject l.id s).trace id =
          observer.watch a.trace id := by
    refine ⟨⟨queue, h.reject fresh staged s⟩, ?_, fun id ne => ?_⟩
    · obtain ⟨tx, frame, rfl, -⟩ := staged
      exact ⟨_, _, _, _, _, _, _, _, rfl⟩
    · rw [watch_reject staged.kept.2.2, Function.update_of_ne ne]
  rcases admitted : (a.record (.submitted l.id l.buffers.length)).admission l.buffers with ⟨n, s⟩
  unfold sendOne
  simp only [admitted]
  cases s with
  | success =>
    obtain ⟨-, -, -, rfl, fits, pos, room⟩ := admission_success admitted
    obtain ⟨tx, frame, same, marks⟩ := staged_stage (a := a.record (.submitted l.id l.buffers.length)) fits a.txHead
    have staged : Staged a { a with tx := tx, frame := frame } := ⟨tx, frame, rfl, marks⟩
    have index := stage_index (a := a.record (.submitted l.id l.buffers.length)) (l := l.buffers) (i := a.txHead)
      (by rw [h.ring.head]; exact Nat.mod_lt _ (by decide))
    rcases result : (a.record (.submitted l.id l.buffers.length)).stage a.txHead l.buffers with ⟨b, i, s⟩
    simp only [record] at result same index
    rw [result] at same index
    simp only at same index
    subst same
    cases s with
    | success =>
      obtain rfl := index rfl
      simp only [record, result]
      refine ⟨⟨_, h.accept fresh staged pos room⟩, ?_, fun id ne => ?_⟩
      · rw [accept_eq _ _ (by have := room; simp only [record] at this; omega)]
        exact ⟨_, _, _, _, _, _, _, _, rfl⟩
      · exact (congrFun (watch_accept staged (by have := room; simp only [record] at this; omega) _) id).trans
          (Function.update_of_ne ne _ _)
    | _ =>
      simp only [record, result]
      exact rejected staged _
  | _ => exact rejected (.refl a) _

theorem sendAll_sending {lists : List NetBufferList} (h : Sending a queue (completed ++ rest))
    (fresh : ∀ l ∈ lists, observer.watch a.trace l.id = none) (nodup : (lists.map NetBufferList.id).Nodup) :
    (∃ queue', Sending (a.sendAll completed lists).1 queue' ((a.sendAll completed lists).2 ++ rest)) ∧
      Sent a (a.sendAll completed lists).1 := by
  induction lists generalizing a queue completed with
  | nil => exact ⟨⟨queue, h⟩, .refl a⟩
  | cons l lists ih =>
    obtain ⟨apart, nodup⟩ := List.nodup_cons.mp nodup
    obtain ⟨⟨queue', sending⟩, sent, others⟩ := sendOne_sending h (fresh l List.mem_cons_self)
    have later (m : NetBufferList) (hm : m ∈ lists) : observer.watch (a.sendOne completed l).1.trace m.id = none := by
      have : m.id ≠ l.id := fun eq => apart (eq ▸ List.mem_map_of_mem hm)
      exact (others m.id this).trans (fresh m (List.mem_cons_of_mem _ hm))
    obtain ⟨done, sent'⟩ := ih sending later nodup
    exact ⟨done, sent.trans sent'⟩

/-- Nothing is sent: the lists are only noted. -/
def Refused (a b : Adapter) : Prop :=
  ∃ trace status statistics, b = { a with trace := trace, status := status, statistics := statistics } ∧
    ∀ id c, observer.watch trace id = some c → c.waiting = [] ∨ observer.watch a.trace id = some c

theorem sendAll_refused (lists : List NetBufferList) (off : a.running = false) (completed : List ℕ) :
    Refused a (a.sendAll completed lists).1 := by
  induction lists generalizing a completed with
  | nil => exact ⟨_, _, _, rfl, fun _ _ => .inr⟩
  | cons l lists ih =>
    have admitted : (a.record (.submitted l.id l.buffers.length)).admission l.buffers = (0, .paused) := if_pos (.inl off)
    have one : a.sendOne completed l =
        ((a.record (.submitted l.id l.buffers.length)).reject l.id .paused, l.id :: completed) := by
      simp only [sendOne, admitted]
    have watch : observer.watch ((a.record (.submitted l.id l.buffers.length)).reject l.id .paused).trace = _ :=
      watch_reject rfl .paused
    obtain ⟨status, statistics, same⟩ := reject_eq a l.id l.buffers.length .paused
    rw [sendAll, one]
    simp only [same] at watch ⊢
    obtain ⟨trace, status, statistics, same, quiet⟩ := ih (a := { a with
      trace := .rejected l.id :: .submitted l.id l.buffers.length :: a.trace, status := status, statistics := statistics })
      off (l.id :: completed)
    refine ⟨trace, status, statistics, same, fun id c hc => ?_⟩
    rcases quiet id c hc with empty | hc
    · exact .inl empty
    · rw [watch] at hc
      by_cases eq : id = l.id
      · rw [eq, Function.update_self] at hc
        cases hc
        exact .inl rfl
      · rw [Function.update_of_ne eq] at hc
        exact .inr hc

/-! ### Stops -/

/-- A list ends in one slot. -/
theorem Ring.endsAt_injective (h : Ring a w queue out) {i j : ℕ} (hi : id ∈ a.endsAt i) (hj : id ∈ a.endsAt j) : i = j := by
  obtain ⟨nbl, last⟩ := endsAt_eq_some.mp hi
  obtain ⟨nbl', last'⟩ := endsAt_eq_some.mp hj
  obtain ⟨p, hp, inside, rfl⟩ := h.exists_of_nbl nbl
  obtain ⟨q, hq, inside', eq⟩ := h.exists_of_nbl nbl'
  obtain rfl := h.eq_of_fst_eq hq hp eq
  exact (h.marked q hq).2.unique inside inside' last last'

/-- All lists of the ring end in it. -/
theorem Ring.mem_ends (h : Ring a w queue out) : id ∈ (List.range gemRingSize).filterMap a.endsAt ↔ id ∈ queue.map Prod.fst := by
  rw [List.mem_filterMap]
  constructor
  · rintro ⟨i, hi, ends⟩
    exact h.mem_queue_iff.mpr ⟨i, List.mem_range.mp hi, (endsAt_eq_some.mp ends).1⟩
  · intro hid
    obtain ⟨p, hp, rfl⟩ := List.mem_map.mp hid
    obtain ⟨ne, marked⟩ := h.marked p hp
    obtain ⟨i, hi, last⟩ := marked.exists_last ne
    have inside := h.mem_place.mpr ⟨p, hp, hi⟩
    exact ⟨i, List.mem_range.mpr (lt_of_mem_window inside (by decide)), endsAt_eq_some.mpr ⟨marked.nbl hi, last⟩⟩

/-- A stop empties the ring, and every list leaves it. -/
theorem Ring.discard (h : Ring a w queue out) (quiet : ∀ id c, w id = some c → c.waiting = [])
    (same : b.tx = a.cleared (List.range gemRingSize)) (head : b.txHead = 0) (tail : b.txTail = 0) (count : b.txCount = 0) :
    Ring b w [] (((List.range gemRingSize).filterMap a.endsAt).reverse ++ out) := by
  have nodup : ((List.range gemRingSize).filterMap a.endsAt).Nodup :=
    List.Nodup.filterMap (fun _ _ _ hi hj => h.endsAt_injective hi hj) List.nodup_range
  refine ⟨by simp [head, tail, count], by rw [count]; decide, by rw [tail]; decide, by simp [count], by simp, fun i _ => ?_, ?_,
    fun id => ?_, by simp, fun id _ => quiet id, fun i => ?_⟩
  · rw [same, cleared]
    by_cases inside : i ∈ List.range gemRingSize
    · rw [if_pos inside, TxSlot.clear]
    · rw [if_neg inside]
      exact h.vacant i fun hi => inside (List.mem_range.mpr (lt_of_mem_window hi (by decide)))
  · rw [List.map_nil, List.nil_append]
    refine List.nodup_append.mpr ⟨List.nodup_reverse.mpr nodup, (List.nodup_append.mp h.distinct).2.1, ?_⟩
    intro x hx y hy eq
    rw [List.mem_reverse, h.mem_ends] at hx
    exact (List.nodup_append.mp h.distinct).2.2 x hx y hy eq
  · rw [h.known, List.mem_append, List.mem_reverse, h.mem_ends]
    simp
  · rw [same, cleared]
    split
    · exact h.lengths i
    · exact h.lengths i

end Pi5Drivers.Ethernet
