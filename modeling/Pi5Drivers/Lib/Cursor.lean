import Pi5Drivers.Lib.Common
import Mathlib.Data.List.Nodup
import Mathlib.Data.Nat.Notation

/-! Cursors that walk segments one after the other. A cursor stands before a place of a
segment; what lies behind it is a list that grows by one value with every place. Two
cursors over the same segments are compared by the lengths of what lies behind them. -/

namespace Pi5Drivers

variable {α : Type}

/-- The values before place `k` of segment `i`, where segment `j` has `len j` places. -/
def walked (len : ℕ → ℕ) (f : ℕ → ℕ → α) (i k : ℕ) : List α :=
  ((List.range i).flatMap fun j => (List.range (len j)).map (f j)) ++ (List.range k).map (f i)

section Walked

variable {len : ℕ → ℕ} {f : ℕ → ℕ → α} {i j k l n : ℕ}

@[simp] theorem walked_zero (len : ℕ → ℕ) (f : ℕ → ℕ → α) : walked len f 0 0 = [] := rfl

theorem walked_place (len : ℕ → ℕ) (f : ℕ → ℕ → α) (i k : ℕ) : walked len f i (k + 1) = walked len f i k ++ [f i k] := by
  rw [walked, walked, List.range_succ, List.map_append, List.append_assoc]
  rfl

/-- Behind the last place of a segment begins the next one. -/
theorem walked_segment (len : ℕ → ℕ) (f : ℕ → ℕ → α) (i : ℕ) : walked len f i (len i) = walked len f (i + 1) 0 := by
  rw [walked, walked, List.range_succ, List.flatMap_append, List.range_zero, List.map_nil, List.append_nil]
  congr 1
  exact (List.append_nil _).symm

theorem walked_empty (h : len i = 0) : walked len f (i + 1) 0 = walked len f i 0 := by
  rw [← walked_segment, h]

theorem walked_prefix_place (h : k ≤ l) : walked len f i k <+: walked len f i l := by
  obtain ⟨d, rfl⟩ := Nat.exists_eq_add_of_le h
  refine ⟨(List.range d).map fun m => f i (k + m), ?_⟩
  rw [walked, walked, List.append_assoc, List.range_add, List.map_append, List.map_map]
  rfl

theorem walked_prefix_segment (h : i ≤ n) : walked len f i 0 <+: walked len f n 0 := by
  obtain ⟨d, rfl⟩ := Nat.exists_eq_add_of_le h
  clear h
  induction d with
  | zero => exact List.prefix_refl _
  | succ d ih => exact ih.trans (walked_segment len f (i + d) ▸ walked_prefix_place (Nat.zero_le _))

/-- What lies behind a cursor is the start of what lies behind the last segment. -/
theorem walked_prefix (h : i < n) (hk : k ≤ len i) : walked len f i k <+: walked len f n 0 :=
  (walked_prefix_place hk).trans (walked_segment len f i ▸ walked_prefix_segment h)

theorem mem_walked {a : α} (h : a ∈ walked len f n 0) : ∃ i < n, ∃ k < len i, f i k = a := by
  simp only [walked, List.range_zero, List.map_nil, List.append_nil, List.mem_flatMap, List.mem_map, List.mem_range] at h
  obtain ⟨i, hi, k, hk, rfl⟩ := h
  exact ⟨i, hi, k, hk, rfl⟩

/-- Where no two places have the same value, none is walked twice. -/
theorem nodup_walked (apart : ∀ i < n, ∀ j < n, ∀ k < len i, ∀ l < len j, f i k = f j l → i = j ∧ k = l) :
    (walked len f n 0).Nodup := by
  induction n with
  | zero => exact List.nodup_nil
  | succ n ih =>
    have below := ih fun i hi j hj => apart i (Nat.lt_succ_of_lt hi) j (Nat.lt_succ_of_lt hj)
    rw [← walked_segment, walked, List.nodup_append]
    refine ⟨by simpa only [walked, List.range_zero, List.map_nil, List.append_nil] using below, ?_, ?_⟩
    · refine List.Nodup.map_on (fun k hk l hl eq => ?_) List.nodup_range
      exact (apart n (Nat.lt_succ_self n) n (Nat.lt_succ_self n) k (List.mem_range.mp hk) l (List.mem_range.mp hl) eq).2
    · intro a ha b hb eq
      obtain ⟨i, hi, ha⟩ := List.mem_flatMap.mp ha
      obtain ⟨k, hk, rfl⟩ := List.mem_map.mp ha
      obtain ⟨l, hl, rfl⟩ := List.mem_map.mp hb
      have hi := List.mem_range.mp hi
      have := (apart i (Nat.lt_succ_of_lt hi) n (Nat.lt_succ_self n) k (List.mem_range.mp hk) l (List.mem_range.mp hl) eq).1
      omega

end Walked

end Pi5Drivers
