import Pi5Drivers.Lib.Observed
import Pi5Drivers.Ethernet.Sections

/-! What NDIS and the hardware are owed. An observer keeps an account of every list that
did not yet go back; the ring is a queue of lists, each with the slots it still has. -/

namespace Pi5Drivers.Ethernet

/-! ### The observer -/

/-- A list with the miniport: how many buffers it has, how many descriptors were handed
over for it, and those of them that the hardware still has. -/
structure Account where
  buffers : ℕ
  published : ℕ
  waiting : List ℕ
deriving DecidableEq, Repr

abbrev Books := ℕ → Option Account

namespace Books

/-- Changes the accounts of all lists. -/
def settle (w : Books) (f : List ℕ → List ℕ) : Books := fun id => (w id).map fun c => { c with waiting := f c.waiting }

def saw (w : Books) : Event → Books
  | .submitted id n => Function.update w id (some ⟨n, 0, []⟩)
  | .published id i => Function.update w id ((w id).map fun c => ⟨c.buffers, c.published + 1, i :: c.waiting⟩)
  | .released i => w.settle fun l => l.filter (· ≠ i)
  | .stopped => w.settle fun _ => []
  | .completed id => Function.update w id none
  | .accepted _ | .rejected _ => w

/-- What may happen next: no list is taken twice or given back twice, no descriptor is
handed over twice, a list is accepted with all its buffers or rejected with none, and goes
back when the hardware has none of its descriptors. -/
def Allows (w : Books) : Event → Prop
  | .submitted id _ => w id = none
  | .published id i => (w id).isSome ∧ ∀ other c, w other = some c → i ∉ c.waiting
  | .accepted id => ∃ c, w id = some c ∧ c.published = c.buffers ∧ 0 < c.buffers
  | .rejected id => ∃ c, w id = some c ∧ c.published = 0
  | .completed id => ∃ c, w id = some c ∧ c.waiting = []
  | .released _ | .stopped => True

end Books

def observer : Observer Event Books := ⟨fun _ => none, Books.saw, Books.Allows⟩

section Books

variable {w : Books} {id : ℕ} {c : Account} {trace : List Event} {l : List ℕ}

theorem Books.settle_eq_some {f : List ℕ → List ℕ} :
    w.settle f id = some c ↔ ∃ c', w id = some c' ∧ c = { c' with waiting := f c'.waiting } := by
  simp [Books.settle, eq_comm]

@[simp] theorem Books.isSome_settle {f : List ℕ → List ℕ} : (w.settle f id).isSome = (w id).isSome := by
  simp [Books.settle]

/-- A list whose descriptors are handed over one after the other. -/
theorem watch_published (known : observer.watch trace id = some c) :
    observer.watch (l.map (Event.published id) ++ trace) =
      Function.update (observer.watch trace) id (some ⟨c.buffers, c.published + l.length, l ++ c.waiting⟩) := by
  induction l with
  | nil => exact (Function.update_eq_self_iff.mpr known.symm).symm
  | cons i l ih =>
    change Books.saw (observer.watch (l.map (Event.published id) ++ trace)) (.published id i) = _
    rw [ih, Books.saw, Function.update_self, Function.update_idem]
    rfl

theorem inOrder_published (order : observer.InOrder trace) (known : observer.watch trace id = some c) (nodup : l.Nodup)
    (free : ∀ i ∈ l, ∀ other c, observer.watch trace other = some c → i ∉ c.waiting) :
    observer.InOrder (l.map (Event.published id) ++ trace) := by
  induction l with
  | nil => exact order
  | cons i l ih =>
    obtain ⟨apart, nodup⟩ := List.nodup_cons.mp nodup
    have next : observer.Allows (observer.watch (l.map (Event.published id) ++ trace)) (.published id i) := by
      rw [watch_published known]
      refine ⟨by simp, fun other d hd => ?_⟩
      rw [Function.update_apply] at hd
      split at hd
      · cases hd
        exact List.not_mem_append apart (free i List.mem_cons_self id c known)
      · exact free i List.mem_cons_self other d hd
    exact ⟨next, ih nodup fun j hj => free j (List.mem_cons_of_mem _ hj)⟩

/-- Lists that go back one after the other. -/
theorem watch_completed :
    observer.watch ((l.map Event.completed).reverse ++ trace) = fun id => if id ∈ l then none else observer.watch trace id := by
  induction l generalizing trace with
  | nil => simp
  | cons i l ih =>
    simp only [List.map_cons, List.reverse_cons, List.append_assoc, List.singleton_append]
    rw [ih]
    funext id
    change (if id ∈ l then none else Function.update (observer.watch trace) i none id) = _
    by_cases eq : id = i
    · simp [eq]
    · simp [eq]

theorem inOrder_completed (order : observer.InOrder trace) (nodup : l.Nodup)
    (done : ∀ id ∈ l, ∃ c, observer.watch trace id = some c ∧ c.waiting = []) :
    observer.InOrder ((l.map Event.completed).reverse ++ trace) := by
  induction l generalizing trace with
  | nil => exact order
  | cons i l ih =>
    obtain ⟨apart, nodup⟩ := List.nodup_cons.mp nodup
    simp only [List.map_cons, List.reverse_cons, List.append_assoc, List.singleton_append]
    refine ih ⟨done i List.mem_cons_self, order⟩ nodup fun id hid => ?_
    obtain ⟨c, known, waiting⟩ := done id (List.mem_cons_of_mem _ hid)
    refine ⟨c, ?_, waiting⟩
    change Function.update (observer.watch trace) i none id = some c
    rwa [Function.update_of_ne fun eq : id = i => apart (eq ▸ hid)]

end Books

/-! ### The ring -/

/-- The slots of one list: the last one is marked. -/
def Marked (tx : ℕ → TxSlot) (id : ℕ) : List ℕ → Prop
  | [] => True
  | i :: l => (tx i).nbl = some id ∧ ((tx i).last = true ↔ l = []) ∧ Marked tx id l

section Marked

variable {tx tx' : ℕ → TxSlot} {id i j : ℕ} {l : List ℕ}

theorem Marked.nbl (h : Marked tx id l) (hi : i ∈ l) : (tx i).nbl = some id := by
  induction l with
  | nil => cases hi
  | cons j l ih =>
    rcases List.mem_cons.mp hi with rfl | hi
    · exact h.1
    · exact ih h.2.2 hi

theorem Marked.unique (h : Marked tx id l) (hi : i ∈ l) (hj : j ∈ l) (li : (tx i).last = true) (lj : (tx j).last = true) :
    i = j := by
  induction l with
  | nil => cases hi
  | cons k l ih =>
    rcases List.mem_cons.mp hi with rfl | later
    · cases h.2.1.mp li
      exact (List.mem_singleton.mp hj).symm
    · rcases List.mem_cons.mp hj with rfl | later'
      · rw [h.2.1.mp lj] at later
        exact absurd later List.not_mem_nil
      · exact ih h.2.2 later later'

theorem Marked.exists_last (h : Marked tx id l) (ne : l ≠ []) : ∃ i ∈ l, (tx i).last = true := by
  induction l with
  | nil => exact absurd rfl ne
  | cons i l ih =>
    by_cases last : l = []
    · exact ⟨i, List.mem_cons_self, h.2.1.mpr last⟩
    · obtain ⟨j, hj, marked⟩ := ih h.2.2 last
      exact ⟨j, List.mem_cons_of_mem _ hj, marked⟩

theorem Marked.congr (h : Marked tx id l) (same : ∀ i ∈ l, (tx' i).nbl = (tx i).nbl ∧ (tx' i).last = (tx i).last) :
    Marked tx' id l := by
  induction l with
  | nil => trivial
  | cons i l ih =>
    obtain ⟨nbl, last⟩ := same i List.mem_cons_self
    exact ⟨nbl.trans h.1, last ▸ h.2.1, ih h.2.2 fun j hj => same j (List.mem_cons_of_mem _ hj)⟩

/-- A window of slots whose last one is marked. -/
theorem marked_window {start n : ℕ} (h : n ≤ gemRingSize)
    (nbl : ∀ i ∈ window gemRingSize start n, (tx i).nbl = some id)
    (last : ∀ i ∈ window gemRingSize start n, (tx i).last = true ↔ i = (start + (n - 1)) % gemRingSize) :
    Marked tx id (window gemRingSize start n) := by
  induction n generalizing start with
  | zero => trivial
  | succ n ih =>
    rw [window_succ] at nbl last ⊢
    refine ⟨nbl _ List.mem_cons_self, ?_, ih (by omega) (fun i hi => nbl i (List.mem_cons_of_mem _ hi)) fun i hi => ?_⟩
    · rw [last _ List.mem_cons_self, Nat.add_sub_cancel]
      constructor
      · intro eq
        have := place_injective (k := 0) eq (by omega) (by omega)
        simp [← this]
      · intro none
        have := congrArg List.length none
        simp only [length_window, List.length_nil] at this
        simp [this]
    · rw [last i (List.mem_cons_of_mem _ hi)]
      obtain ⟨k, hk, -⟩ := mem_window.mp hi
      rw [show start + 1 + (n - 1) = start + (n + 1 - 1) by omega]

end Marked

/-- The lists in the ring, each with the slots it still has. -/
abbrev Queue := List (ℕ × List ℕ)

/-- The ring holds the lists of the queue, and `out` are those that left it. -/
structure Ring (a : Adapter) (w : Books) (queue : Queue) (out : List ℕ) : Prop where
  head : a.txHead = (a.txTail + a.txCount) % gemRingSize
  room : a.txCount < gemRingSize
  tail : a.txTail < gemRingSize
  places : queue.flatMap Prod.snd = window gemRingSize a.txTail a.txCount
  marked : ∀ p ∈ queue, p.2 ≠ [] ∧ Marked a.tx p.1 p.2
  vacant : ∀ i, i ∉ window gemRingSize a.txTail a.txCount → (a.tx i).nbl = none
  distinct : (queue.map Prod.fst ++ out).Nodup
  known : ∀ id, (w id).isSome ↔ id ∈ queue.map Prod.fst ∨ id ∈ out
  waiting : ∀ p ∈ queue, ∀ c, w p.1 = some c → ∀ i ∈ c.waiting, i ∈ p.2 ∧ ¬Used (a.control i)
  settled : ∀ id ∈ out, ∀ c, w id = some c → c.waiting = []
  lengths : ∀ i, (a.tx i).length ≤ gemFrameMax

/-- The hardware has released `r` descriptors that the driver did not take back, and has
`k` more. -/
structure Flow (a : Adapter) (r k : ℕ) : Prop where
  total : r + k = a.txCount
  position : a.position = (a.txTail + r) % gemRingSize
  owned : ∀ i, ¬Used (a.control i) ↔ i ∈ window gemRingSize (a.txTail + r) k
  wrap : ∀ i ∈ window gemRingSize (a.txTail + r) k, a.control i &&& gemTxWrap ≠ 0 ↔ i = gemRingSize - 1

namespace Ring

variable {a b : Adapter} {w : Books} {queue : Queue} {out : List ℕ} {id i : ℕ}

theorem mem_place (h : Ring a w queue out) : i ∈ window gemRingSize a.txTail a.txCount ↔ ∃ p ∈ queue, i ∈ p.2 := by
  rw [← h.places, List.mem_flatMap]

theorem nbl_of_mem (h : Ring a w queue out) {p : ℕ × List ℕ} (hp : p ∈ queue) (hi : i ∈ p.2) : (a.tx i).nbl = some p.1 :=
  (h.marked p hp).2.nbl hi

/-- A slot has a list exactly if it lies between the tail and the head. -/
theorem held_iff (h : Ring a w queue out) : (a.tx i).nbl ≠ none ↔ i ∈ window gemRingSize a.txTail a.txCount := by
  constructor
  · intro held
    by_contra outside
    exact held (h.vacant i outside)
  · intro inside
    obtain ⟨p, hp, hi⟩ := h.mem_place.mp inside
    simp [h.nbl_of_mem hp hi]

theorem exists_of_nbl (h : Ring a w queue out) (nbl : (a.tx i).nbl = some id) : ∃ p ∈ queue, i ∈ p.2 ∧ p.1 = id := by
  have held : (a.tx i).nbl ≠ none := by simp [nbl]
  obtain ⟨p, hp, hi⟩ := h.mem_place.mp (h.held_iff.mp held)
  exact ⟨p, hp, hi, Option.some_inj.mp ((h.nbl_of_mem hp hi).symm.trans nbl)⟩

/-- A list is in the ring exactly if a slot has it. -/
theorem mem_queue_iff (h : Ring a w queue out) : id ∈ queue.map Prod.fst ↔ ∃ i < gemRingSize, (a.tx i).nbl = some id := by
  constructor
  · intro hid
    obtain ⟨p, hp, rfl⟩ := List.mem_map.mp hid
    obtain ⟨i, hi⟩ := List.exists_mem_of_ne_nil _ (h.marked p hp).1
    exact ⟨i, lt_of_mem_window (h.mem_place.mpr ⟨p, hp, hi⟩) (by decide), h.nbl_of_mem hp hi⟩
  · rintro ⟨i, -, nbl⟩
    obtain ⟨p, hp, -, rfl⟩ := h.exists_of_nbl nbl
    exact List.mem_map_of_mem hp

theorem nodup_queue (h : Ring a w queue out) : (queue.map Prod.fst).Nodup := (List.nodup_append.mp h.distinct).1

theorem eq_of_fst_eq (h : Ring a w queue out) {p q : ℕ × List ℕ} (hp : p ∈ queue) (hq : q ∈ queue) (eq : p.1 = q.1) : p = q :=
  List.inj_on_of_nodup_map h.nodup_queue hp hq eq

end Ring

end Pi5Drivers.Ethernet
