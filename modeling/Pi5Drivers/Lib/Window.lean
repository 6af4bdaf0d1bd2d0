import Pi5Drivers.Lib.Common
import Mathlib.Data.List.Nodup
import Mathlib.Data.Nat.ModEq
import Mathlib.Tactic.Linarith

/-! Consecutive places of a ring. A window is the list of the places from one on, and as
many as it says; it grows at its end and shrinks at its start. -/

namespace Pi5Drivers

/-- The `n` places from `start` on in a ring of `size`. -/
def window (size start n : ℕ) : List ℕ := (List.range' start n).map (· % size)

section Window

variable {size start n m i : ℕ}

@[simp] theorem window_zero (size start : ℕ) : window size start 0 = [] := rfl

@[simp] theorem length_window (size start n : ℕ) : (window size start n).length = n := by simp [window]

theorem window_succ (size start n : ℕ) : window size start (n + 1) = start % size :: window size (start + 1) n := by
  simp [window, List.range'_succ]

theorem window_add (size start n m : ℕ) : window size start (n + m) = window size start n ++ window size (start + n) m := by
  rw [window, window, window, ← List.map_append, List.range'_append_1]

theorem window_succ_end (size start n : ℕ) : window size start (n + 1) = window size start n ++ [(start + n) % size] := by
  rw [window_add, window_succ, window_zero]

theorem mem_window : i ∈ window size start n ↔ ∃ k < n, (start + k) % size = i := by
  simp only [window, List.mem_map, List.mem_range'_1]
  constructor
  · rintro ⟨j, ⟨lo, hi⟩, rfl⟩
    exact ⟨j - start, by omega, by congr 1; omega⟩
  · rintro ⟨k, hk, rfl⟩
    exact ⟨start + k, by omega, rfl⟩

theorem lt_of_mem_window (h : i ∈ window size start n) (pos : 0 < size) : i < size := by
  obtain ⟨k, -, rfl⟩ := mem_window.mp h
  exact Nat.mod_lt _ pos

/-- Only where the start lies in the ring matters. -/
theorem window_congr {start' : ℕ} (h : start % size = start' % size) (n : ℕ) :
    window size start n = window size start' n := by
  induction n generalizing start start' with
  | zero => rfl
  | succ n ih =>
    rw [window_succ, window_succ, h, ih (Nat.ModEq.add_right 1 h)]

@[simp] theorem window_mod (size start n : ℕ) : window size (start % size) n = window size start n :=
  window_congr (Nat.mod_mod _ _) n

theorem place_injective {k l : ℕ} (h : (start + k) % size = (start + l) % size) (hk : k < size) (hl : l < size) : k = l := by
  have : k ≡ l [MOD size] := Nat.ModEq.add_left_cancel' start h
  exact Nat.ModEq.eq_of_lt_of_lt this hk hl

/-- No place is taken twice if there are enough. -/
theorem nodup_window (h : n ≤ size) : (window size start n).Nodup := by
  refine List.Nodup.map_on ?_ List.nodup_range'
  intro x hx y hy eq
  simp only [List.mem_range'_1] at hx hy
  have : (start + (x - start)) % size = (start + (y - start)) % size := by
    rwa [Nat.add_sub_cancel' hx.1, Nat.add_sub_cancel' hy.1]
  have := place_injective this (by omega) (by omega)
  omega

/-- The places that follow a window are others. -/
theorem disjoint_window (h : n + m ≤ size) (first : i ∈ window size start n) : i ∉ window size (start + n) m := by
  have nodup : (window size start (n + m)).Nodup := nodup_window h
  rw [window_add, List.nodup_append] at nodup
  exact fun second => nodup.2.2 i first i second rfl

end Window

end Pi5Drivers
