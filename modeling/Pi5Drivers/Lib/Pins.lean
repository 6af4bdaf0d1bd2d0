import Pi5Drivers.Lib.Common
import Mathlib.Data.Set.Disjoint
import Mathlib.Data.Set.Insert
import Mathlib.Tactic.Tauto

/-! A word as the set of its bits, which stand for pins, and the tables of pins that callers pass. -/

namespace Pi5Drivers

variable {w : ℕ} {a b : BitVec w} {p : ℕ}

/-- The pins of a mask. -/
def pins (m : BitVec w) : Set ℕ := { p | m.getLsbD p = true }

@[simp] theorem mem_pins : p ∈ pins a ↔ a.getLsbD p = true := Iff.rfl

@[simp] theorem pins_zero : pins (0 : BitVec w) = ∅ := by
  ext p
  simp

@[simp] theorem pins_or : pins (a ||| b) = pins a ∪ pins b := by
  ext p
  simp

theorem lt_of_mem_pins (h : p ∈ pins a) : p < w := BitVec.lt_of_getLsbD h

@[simp] theorem pins_and_not : pins (a &&& ~~~b) = pins a \ pins b := by
  ext p
  have : p ∈ pins a → p < w := lt_of_mem_pins
  simp only [mem_pins, BitVec.getLsbD_and, BitVec.getLsbD_not, Set.mem_sdiff, Bool.and_eq_true, Bool.not_eq_true, decide_eq_true_eq,
    Bool.not_eq_eq_eq_not, Bool.not_true] at this ⊢
  exact ⟨fun h => ⟨h.1, h.2.2⟩, fun h => ⟨h.1, this h.1, h.2⟩⟩

/-- The mask of a pin. -/
def pinBit (p : ℕ) : BitVec w := 1#w <<< p

theorem getLsbD_pinBit (h : p < w) (q : ℕ) : (pinBit p : BitVec w).getLsbD q = decide (q = p) := by
  rw [pinBit, ← BitVec.twoPow_eq, BitVec.getLsbD_twoPow, decide_eq_true h, Bool.true_and]
  exact decide_eq_decide.mpr eq_comm

theorem pins_pinBit (h : p < w) : pins (pinBit p : BitVec w) = {p} := by
  ext q
  rw [mem_pins, getLsbD_pinBit h, decide_eq_true_eq, Set.mem_singleton_iff]

/-- Masks without a common pin. -/
theorem and_eq_zero : a &&& b = 0 ↔ Disjoint (pins a) (pins b) := by
  rw [Set.disjoint_left]
  constructor
  · intro none p ha hb
    have bit := congrArg (BitVec.getLsbD · p) none
    simp only [BitVec.getLsbD_and, mem_pins.mp ha, mem_pins.mp hb, BitVec.ofNat_eq_ofNat, BitVec.getLsbD_zero] at bit
    cases bit
  · intro apart
    refine BitVec.eq_of_getLsbD_eq fun p _ => ?_
    rw [BitVec.getLsbD_and, BitVec.ofNat_eq_ofNat, BitVec.getLsbD_zero, Bool.and_eq_false_iff]
    by_cases ha : a.getLsbD p = true
    · exact .inr (Bool.eq_false_iff.mpr (apart ha))
    · exact .inl (Bool.eq_false_iff.mpr ha)

/-- A mask that holds no other pins. -/
theorem and_not_eq_zero : a &&& ~~~b = 0 ↔ pins a ⊆ pins b := by
  constructor
  · intro none p ha
    have bit := congrArg (BitVec.getLsbD · p) none
    have bound := lt_of_mem_pins ha
    simpa [mem_pins.mp ha, bound] using bit
  · intro sub
    refine BitVec.eq_of_getLsbD_eq fun p hp => ?_
    by_cases ha : a.getLsbD p = true
    · simp [ha, mem_pins.mp (sub ha), hp]
    · simp [Bool.eq_false_iff.mpr ha]

/-- The pins of a mask in their order, from the first to the one before the last. -/
def pinsFrom (first last : ℕ) (m : BitVec w) : List ℕ := (List.range' first (last - first)).filter fun p => m.getLsbD p

theorem mem_pinsFrom {first last : ℕ} : p ∈ pinsFrom first last a ↔ (first ≤ p ∧ p < last) ∧ p ∈ pins a := by
  simp only [pinsFrom, List.mem_filter, List.mem_range'_1, mem_pins]
  refine and_congr_left fun _ => ?_
  omega

theorem nodup_pinsFrom (first last : ℕ) (m : BitVec w) : (pinsFrom first last m).Nodup :=
  List.Pairwise.filter _ (List.nodup_range' 1)

/-- The mask of a table of pins, none of them listed twice. -/
def gather (limit : ℕ) (valid : BitVec 64) : List ℕ → BitVec 64 → Option (BitVec 64)
  | [], mask => some mask
  | p :: l, mask =>
    if limit ≤ p then none
    else if valid &&& pinBit p = 0 ∨ mask &&& pinBit p ≠ 0 then none
    else gather limit valid l (mask ||| pinBit p)

theorem gather_pins {limit : ℕ} {valid mask m : BitVec 64} {l : List ℕ} (wide : limit ≤ 64) (h : gather limit valid l mask = some m) :
    pins m = pins mask ∪ { p | p ∈ l } ∧ ∀ p ∈ l, p < limit ∧ p ∈ pins valid := by
  induction l generalizing mask with
  | nil =>
    cases h
    simp
  | cons p l ih =>
    unfold gather at h
    split at h
    · cases h
    · next low =>
      split at h
      · cases h
      · next fresh =>
        have bit : pins (pinBit p : BitVec 64) = {p} := pins_pinBit (by omega)
        obtain ⟨same, all⟩ := ih h
        have known : p ∈ pins valid := by
          by_contra unknown
          refine fresh (.inl (and_eq_zero.mpr ?_))
          rw [bit]
          exact Set.disjoint_singleton_right.mpr unknown
        refine ⟨?_, fun q hq => ?_⟩
        · rw [same, pins_or, bit]
          ext q
          simp only [Set.mem_union, Set.mem_singleton_iff, Set.mem_ofPred_eq, List.mem_cons]
          tauto
        · rcases List.mem_cons.mp hq with rfl | hq
          · exact ⟨by omega, known⟩
          · exact all q hq

end Pi5Drivers
