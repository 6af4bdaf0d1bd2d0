import Mathlib.Data.List.GetD
import Mathlib.Data.Set.Insert
import Pi5Drivers.Lib.Effect
import Pi5Drivers.Lib.Memory

/-! Memory that is painted over: at some addresses every byte is the one that a picture has there, and
the others are as before. Painting the same address twice does no harm, so that a loop has painted
what its rounds have, in whatever order they come and however they overlap. -/

namespace Pi5Drivers

/-- Puts bytes one after the other. -/
def Memory.put (a : ℕ) (bytes : List (BitVec 8)) (m : Memory) : Memory := fun i =>
  if a ≤ i ∧ i < a + bytes.length then bytes.getD (i - a) 0 else m i

/-- The bytes from an address on. -/
def Memory.bytesAt (m : Memory) (a n : ℕ) : List (BitVec 8) := (List.range' a n).map m

/-- The addresses of some bytes one after the other. -/
def stretch (a n : ℕ) : Set ℕ := { i | a ≤ i ∧ i < a + n }

structure Painted (picture : Memory) (done : Set ℕ) (before after : Memory) : Prop where
  inside : ∀ i ∈ done, after i = picture i
  outside : ∀ i ∉ done, after i = before i

namespace Painted

variable {picture before after : Memory} {done : Set ℕ} {a : ℕ} {bytes : List (BitVec 8)}

theorem refl (picture before : Memory) : Painted picture ∅ before before := ⟨fun _ no => no.elim, fun _ _ => rfl⟩

/-- Bytes of the picture are put into memory. -/
theorem put (h : Painted picture done before after) (same : ∀ k < bytes.length, bytes.getD k 0 = picture (a + k)) :
    Painted picture (done ∪ stretch a bytes.length) before (after.put a bytes) where
  inside i hi := by
    by_cases here : a ≤ i ∧ i < a + bytes.length
    · rw [Memory.put, if_pos here, same _ (by omega), Nat.add_sub_cancel' here.1]
    · rw [Memory.put, if_neg here]
      exact h.inside i (hi.resolve_right here)
  outside i hi := by
    obtain ⟨other, here⟩ := not_or.mp hi
    exact (if_neg here).trans (h.outside i other)

end Painted

theorem length_bytesAt (m : Memory) (a n : ℕ) : (m.bytesAt a n).length = n := by
  rw [Memory.bytesAt, List.length_map, List.length_range']

theorem getD_bytesAt (m : Memory) {a n k : ℕ} (hk : k < n) : (m.bytesAt a n).getD k 0 = m (a + k) := by
  rw [List.getD_eq_getElem _ _ (by rwa [length_bytesAt])]
  simp [Memory.bytesAt]

/-- Stretches of one length behind each other. -/
theorem stretch_units {a unit n : ℕ} (pos : 0 < unit) (whole : unit ∣ n) :
    { i | ∃ k ∈ List.range (n / unit), i ∈ stretch (a + k * unit) unit } = stretch a n := by
  ext i
  obtain ⟨count, rfl⟩ := whole
  rw [Nat.mul_div_cancel_left _ pos]
  constructor
  · rintro ⟨k, hk, low, high⟩
    have := Nat.mul_le_mul_right unit (Nat.succ_le_of_lt (List.mem_range.mp hk))
    rw [Nat.succ_mul] at this
    rw [Nat.mul_comm unit count]
    exact ⟨by omega, by omega⟩
  · rintro ⟨low, high⟩
    refine ⟨(i - a) / unit, List.mem_range.mpr (Nat.div_lt_of_lt_mul (by omega)), ?_⟩
    have := Nat.div_add_mod (i - a) unit
    have := Nat.mod_lt (i - a) pos
    rw [Nat.mul_comm unit] at *
    exact ⟨by omega, by omega⟩

/-- A loop of which every round adds to what was done. -/
theorem Effect.Triple.each_grow {σ ε γ α : Type} {A : Set α → σ → Prop} {E : ε → σ → Prop} {f : γ → Effect σ ε Unit}
    {R : γ → Set α} {l : List γ}
    (h : ∀ c ∈ l, ∀ done, Triple (A done) (f c) (fun _ => A (done ∪ R c)) E) (done : Set α) :
    Triple (A done) (Effect.each f l) (fun _ => A (done ∪ { x | ∃ c ∈ l, x ∈ R c })) E := by
  induction l generalizing done with
  | nil =>
    have none : { x : α | ∃ c ∈ ([] : List γ), x ∈ R c } = ∅ := Set.eq_empty_of_forall_notMem fun _ ⟨_, no, _⟩ => nomatch no
    rw [none, Set.union_empty]
    exact Triple.pure fun s hs => hs
  | cons c l ih =>
    refine Triple.bind (h c List.mem_cons_self done) fun _ => ?_
    refine (ih (fun d hd => h d (List.mem_cons_of_mem c hd)) (done ∪ R c)).mono (fun _ hs => hs) (fun _ s hs => ?_) fun _ _ hs => hs
    rwa [Set.union_assoc, show R c ∪ { x | ∃ d ∈ l, x ∈ R d } = { x | ∃ d ∈ c :: l, x ∈ R d } from ?_] at hs
    ext x
    simp

end Pi5Drivers
