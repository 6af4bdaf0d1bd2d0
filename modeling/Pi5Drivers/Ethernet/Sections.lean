import Mathlib.Data.List.Nodup
import Pi5Drivers.Ethernet.Transmit

/-! What the sections that hold the lock do to the ring: the staging and the publication
of a list, and the two ways in which slots are emptied. -/

namespace Pi5Drivers.Ethernet

/-! ### Control words -/

theorem ofNat_and_high {n : ℕ} (h : n ≤ gemFrameMax) {m : BitVec 32} (high : ∀ j < 15, m.getLsbD j = false) :
    BitVec.ofNat 32 n &&& m = 0 := by
  have small : n < 2 ^ 15 := by
    simp only [gemFrameMax] at h
    omega
  apply BitVec.eq_of_getLsbD_eq
  intro j hj
  simp only [BitVec.getLsbD_and, BitVec.getLsbD_ofNat]
  by_cases low : j < 15
  · simp [high j low]
  · have : n < 2 ^ j := lt_of_lt_of_le small (Nat.pow_le_pow_right (by omega) (by omega))
    simp [Nat.testBit_lt_two_pow this]

theorem word_and {n i : ℕ} (h : n ≤ gemFrameMax) {m : BitVec 32} (high : ∀ j < 15, m.getLsbD j = false)
    (last : gemTxLast &&& m = 0) : word n i &&& m = wrapBit i &&& m := by
  have (a b c : BitVec 32) : (a ||| b ||| c) &&& m = (a &&& m) ||| (b &&& m) ||| (c &&& m) := by
    rw [← BitVec.and_or_distrib_right, ← BitVec.and_or_distrib_right]
  rw [word, this, ofNat_and_high h high, last]
  simp

/-- A descriptor that is handed over is the hardware's. -/
theorem not_used_word {n i : ℕ} (h : n ≤ gemFrameMax) : ¬Used (word n i) := by
  have := word_and (i := i) h (m := gemTxUsed) (by decide) (by decide)
  unfold Used wrapBit at *
  split at this
  · simp [this]
    decide
  · simp [this]

theorem wrap_word {n i : ℕ} (h : n ≤ gemFrameMax) : word n i &&& gemTxWrap ≠ 0 ↔ i = gemRingSize - 1 := by
  rw [word_and h (by decide) (by decide), wrapBit]
  by_cases last : i = gemRingSize - 1
  · rw [if_pos last]
    exact ⟨fun _ => last, fun _ => by decide⟩
  · rw [if_neg last]
    exact ⟨fun h => absurd (by decide) h, fun h => absurd h last⟩

theorem used_or (c e : BitVec 32) : Used (c ||| gemTxUsed ||| e) := by
  intro h
  have := congrArg (·.getLsbD 31) h
  simp [gemTxUsed] at this

theorem used_initial (i : ℕ) : Used (gemTxUsed ||| wrapBit i) := by
  unfold wrapBit
  split <;> decide

namespace Adapter

variable {a : Adapter} {id : ℕ}

/-! ### Staging -/

/-- The lengths fit. -/
def Fits (buffers : List NetBuffer) : Prop := ∀ b ∈ buffers, b.bytes.length ≤ gemFrameMax

theorem countBuffers_valid {l : List NetBuffer} {n m : ℕ} (h : countBuffers n l = (m, true)) :
    m = n + l.length ∧ Fits l := by
  induction l generalizing n with
  | nil =>
    cases h
    exact ⟨rfl, fun _ h => by cases h⟩
  | cons b l ih =>
    rw [countBuffers] at h
    split at h
    · cases h
    · rename_i short
      obtain ⟨eq, fits⟩ := ih h
      refine ⟨by simp only [List.length_cons]; omega, fun c hc => ?_⟩
      rcases List.mem_cons.mp hc with rfl | hc
      · omega
      · exact fits c hc

/-- What it takes for a list to be staged. -/
theorem admission_success {buffers : List NetBuffer} {n : ℕ} (h : a.admission buffers = (n, .success)) :
    a.running = true ∧ a.surpriseRemoved = false ∧ a.speed ≠ 0 ∧ n = buffers.length ∧ Fits buffers ∧ 0 < n ∧
      a.txCount + n ≤ gemRingSize - 1 := by
  unfold admission at h
  split at h
  · cases h
  · split at h
    · cases h
    · rename_i on speed
      rcases hc : countBuffers 0 buffers with ⟨m, valid⟩
      simp only [hc, Prod.mk.injEq] at h
      obtain ⟨rfl, status⟩ := h
      split at status
      · cases status
      · split at status
        · cases status
        · rename_i room good
          have valid : valid = true := by
            by_contra no
            exact good (.inr (by simpa using no))
          subst valid
          obtain ⟨eq, fits⟩ := countBuffers_valid hc
          refine ⟨by simpa using fun h => on (.inl h), by simpa using fun h => on (.inr h), speed, by omega, fits, ?_, ?_⟩
          · exact Nat.pos_of_ne_zero fun h => good (.inl h)
          · by_cases big : a.txCount ≤ gemRingSize - 1
            · omega
            · exact absurd (.inl (by omega)) good

/-- Staging leaves everything but frames, lengths and kinds alone. -/
def Staged (a b : Adapter) : Prop :=
  ∃ tx frame, b = { a with tx := tx, frame := frame } ∧ (∀ i, (tx i).nbl = (a.tx i).nbl ∧ (tx i).last = (a.tx i).last) ∧
    ((∀ i, (a.tx i).length ≤ gemFrameMax) → ∀ i, (tx i).length ≤ gemFrameMax)

theorem Staged.refl (a : Adapter) : Staged a a := ⟨a.tx, a.frame, rfl, fun _ => ⟨rfl, rfl⟩, fun h => h⟩

theorem Staged.trans {a b c : Adapter} (hab : Staged a b) (hbc : Staged b c) : Staged a c := by
  obtain ⟨tx, frame, rfl, same, fits⟩ := hab
  obtain ⟨tx', frame', rfl, same', fits'⟩ := hbc
  exact ⟨tx', frame', rfl, fun i => ⟨(same' i).1.trans (same i).1, (same' i).2.trans (same i).2⟩, fun h => fits' (fits h)⟩

theorem Staged.kept {a b : Adapter} (h : Staged a b) : b.txHead = a.txHead ∧ b.txCount = a.txCount ∧ b.trace = a.trace := by
  obtain ⟨tx, frame, rfl, -⟩ := h
  exact ⟨rfl, rfl, rfl⟩

theorem paddedLength_le {n : ℕ} (h : n ≤ gemFrameMax) : paddedLength n ≤ gemFrameMax := by
  unfold paddedLength gemFrameMax at *
  split <;> omega

theorem staged_fill {i : ℕ} {bytes : List (BitVec 8)} (h : bytes.length ≤ gemFrameMax) : Staged a (a.fill i bytes) := by
  refine ⟨_, _, rfl, fun j => ?_, fun fits j => ?_⟩ <;> by_cases eq : j = i
  · subst eq
    simp [setSlot]
  · simp [setSlot, eq]
  · subst eq
    simpa [setSlot] using paddedLength_le h
  · simpa [setSlot, eq] using fits j

theorem staged_stage {l : List NetBuffer} (fits : Fits l) (index : ℕ) : Staged a (a.stage index l).1 := by
  induction l generalizing a index with
  | nil => exact .refl a
  | cons b l ih =>
    rw [stage]
    split
    · exact (staged_fill (fits b (by simp))).trans (ih (fun c hc => fits c (by simp [hc])) _)
    · exact .refl a

/-- After a whole list the index is as many places further. -/
theorem stage_index {l : List NetBuffer} {i : ℕ} (lt : i < gemRingSize) (h : (a.stage i l).2.2 = .success) :
    (a.stage i l).2.1 = (i + l.length) % gemRingSize := by
  induction l generalizing a i with
  | nil => exact (Nat.mod_eq_of_lt lt).symm
  | cons b l ih =>
    rw [stage] at h ⊢
    split at h
    · rename_i mapped
      rw [if_pos mapped, ih (Nat.mod_lt _ (by decide)) h, List.length_cons, Nat.mod_add_mod]
      congr 1
      omega
    · cases h

/-! ### Publication -/

/-- The slots that a list takes, and the words of their descriptors. -/
theorem publish_eq {n k : ℕ} (hk : k ≤ n) (hn : n ≤ gemRingSize) (a : Adapter) :
    publish id n k a =
      { a with
        tx := fun i => if i ∈ window gemRingSize a.txHead k then
          { a.tx i with nbl := some id, last := decide (i = (a.txHead + (n - 1)) % gemRingSize) } else a.tx i
        control := fun i => if i ∈ window gemRingSize a.txHead k then word (a.tx i).length i else a.control i
        trace := (window gemRingSize a.txHead k).map (Event.published id) ++ a.trace } := by
  induction k generalizing a with
  | zero => simp [publish]
  | succ k ih =>
    rw [publish, ih (by omega)]
    have apart : (a.txHead + k) % gemRingSize ∉ window gemRingSize a.txHead k := by
      intro h
      obtain ⟨j, hj, eq⟩ := mem_window.mp h
      have := place_injective eq (by omega) (by omega)
      omega
    have final : (k + 1 = n) ↔ (a.txHead + k) % gemRingSize = (a.txHead + (n - 1)) % gemRingSize := by
      constructor
      · rintro rfl
        rfl
      · intro eq
        have := place_injective eq (by omega) (by omega)
        omega
    simp only [publishAt, setSlot, window_succ_end, List.mem_append, List.mem_singleton, List.map_append, List.map_cons,
      List.map_nil, List.append_assoc, List.singleton_append]
    congr 1 <;> funext i <;> by_cases eq : i = (a.txHead + k) % gemRingSize
    · subst eq
      simp [apart, final]
    · by_cases inside : i ∈ window gemRingSize a.txHead k
      · simp only [eq, inside, Function.update_of_ne, ne_eq, not_false_eq_true, true_or, if_true]
        rfl
      · simp [eq, inside]
    · subst eq
      simp [apart]
    · by_cases inside : i ∈ window gemRingSize a.txHead k <;> simp [eq, inside]

/-! ### Emptying -/

/-- The list that ends in a slot. -/
def endsAt (a : Adapter) (i : ℕ) : Option ℕ := if (a.tx i).last = true then (a.tx i).nbl else none

theorem endsAt_eq_some {i : ℕ} : a.endsAt i = some id ↔ (a.tx i).nbl = some id ∧ (a.tx i).last = true := by
  unfold endsAt
  split <;> simp_all

/-- The slots after some of them are emptied. -/
def cleared (a : Adapter) (l : List ℕ) : ℕ → TxSlot := fun i => if i ∈ l then (a.tx i).clear else a.tx i

/-- What differs then. -/
def Emptied (a b : Adapter) (tx : ℕ → TxSlot) : Prop :=
  ∃ status statistics, b = { a with tx := tx, status := status, statistics := statistics }

theorem discardSlots_eq {s : Status} {l : List ℕ} (nodup : l.Nodup) (a : Adapter) (completed : List ℕ) :
    (discardSlots s l a completed).2 = (l.filterMap a.endsAt).reverse ++ completed ∧
      Emptied a (discardSlots s l a completed).1 (a.cleared l) := by
  induction l generalizing a completed with
  | nil => exact ⟨rfl, a.status, a.statistics, rfl⟩
  | cons i l ih =>
    have apart : i ∉ l := (List.nodup_cons.mp nodup).1
    have step (b : Adapter) (done : List ℕ) (status : ℕ → Status) (statistics : Statistics)
        (eq : b = { a with tx := Function.update a.tx i (a.tx i).clear, status := status, statistics := statistics })
        (ends : (a.endsAt i).toList ++ completed = done) :
        (discardSlots s l b done).2 = ((i :: l).filterMap a.endsAt).reverse ++ completed ∧
          Emptied a (discardSlots s l b done).1 (a.cleared (i :: l)) := by
      subst eq
      obtain ⟨lists, status', statistics', rest⟩ := ih (List.nodup_cons.mp nodup).2
        { a with tx := Function.update a.tx i (a.tx i).clear, status := status, statistics := statistics } done
      refine ⟨?_, status', statistics', ?_⟩
      · have : l.filterMap (endsAt { a with
            tx := Function.update a.tx i (a.tx i).clear, status := status, statistics := statistics }) =
            l.filterMap a.endsAt := by
          refine List.filterMap_congr fun j hj => ?_
          have : j ≠ i := fun h => apart (h ▸ hj)
          simp [endsAt, this]
        rw [lists, this, ← ends]
        cases h : a.endsAt i <;> simp [h]
      · rw [rest]
        congr 1
        funext j
        by_cases eq : j = i
        · subst eq
          simp [cleared, apart]
        · simp [cleared, eq]
    unfold discardSlots
    split
    · rename_i id nbl last
      exact step _ _ _ _ rfl (by simp [endsAt_eq_some.mpr ⟨nbl, last⟩])
    · rename_i other
      refine step _ _ a.status a.statistics rfl ?_
      have : a.endsAt i = none := by
        refine Option.eq_none_iff_forall_ne_some.mpr fun id h => ?_
        obtain ⟨nbl, last⟩ := endsAt_eq_some.mp h
        exact other id nbl last
      simp [this]

end Adapter

end Pi5Drivers.Ethernet
