import Mathlib.Algebra.Ring.Nat
import Mathlib.Data.BitVec
import Mathlib.Data.Set.BooleanAlgebra
import Mathlib.Order.CompletePartialOrder

/-! What all modules share: the arithmetic of numbers and words, the order of sets, and the sizes of small index
types, whose elements are written as numerals. -/

namespace Pi5Drivers

instance neZero_two : NeZero 2 := ⟨by decide⟩

instance neZero_three : NeZero 3 := ⟨by decide⟩

instance neZero_four : NeZero 4 := ⟨by decide⟩

instance neZero_nine : NeZero 9 := ⟨by decide⟩

instance neZero_fourteen : NeZero 14 := ⟨by decide⟩

end Pi5Drivers
