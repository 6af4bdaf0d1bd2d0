import Pi5Drivers.Lib.Common
import Mathlib.Algebra.BigOperators.Group.Finset.Basic
import Mathlib.Data.Fintype.Basic

/-! Sums over a finite table in which one entry changes. -/

namespace Pi5Drivers

theorem sum_update_of_mem {ι α : Type} [DecidableEq ι] {entries : Finset ι} (f : α → ℕ) (table : ι → α) {i : ι} (a : α)
    (mem : i ∈ entries) :
    (∑ j ∈ entries, f (Function.update table i a j)) + f (table i) = (∑ j ∈ entries, f (table j)) + f a := by
  rw [← Finset.add_sum_erase _ _ mem, ← Finset.add_sum_erase _ _ mem]
  have others : ∑ j ∈ entries.erase i, f (Function.update table i a j) = ∑ j ∈ entries.erase i, f (table j) :=
    Finset.sum_congr rfl fun j hj => by rw [Function.update_of_ne (Finset.ne_of_mem_erase hj)]
  rw [others, Function.update_self]
  omega

theorem sum_update {ι α : Type} [Fintype ι] [DecidableEq ι] (f : α → ℕ) (table : ι → α) (i : ι) (a : α) :
    (∑ j, f (Function.update table i a j)) + f (table i) = (∑ j, f (table j)) + f a :=
  sum_update_of_mem f table a (Finset.mem_univ i)

end Pi5Drivers
