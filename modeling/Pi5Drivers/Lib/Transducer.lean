import Pi5Drivers.Lib.Common
import Mathlib.Data.List.Basic

/-! Machines that read a list and write another one, with a state that they carry along. What is read may come in
pieces: the state in between is all that one piece leaves to the next. -/

namespace Pi5Drivers.Transducer

variable {σ α β γ : Type} {step : σ → α → List β × σ} {s : σ} {l m : List α}

/-- What a machine writes. -/
def written (step : σ → α → List β × σ) : σ → List α → List β
  | _, [] => []
  | s, a :: l => (step s a).1 ++ written step (step s a).2 l

/-- The state a machine ends in. -/
def carried (step : σ → α → List β × σ) (s : σ) (l : List α) : σ := l.foldl (fun s a => (step s a).2) s

theorem carried_append (step : σ → α → List β × σ) (s : σ) (l m : List α) :
    carried step s (l ++ m) = carried step (carried step s l) m := List.foldl_append

theorem written_append (step : σ → α → List β × σ) (s : σ) (l m : List α) :
    written step s (l ++ m) = written step s l ++ written step (carried step s l) m := by
  induction l generalizing s with
  | nil => rfl
  | cons a l ih => rw [List.cons_append, written, ih, written, List.append_assoc]; rfl

theorem written_concat (step : σ → α → List β × σ) (s : σ) (l : List α) (a : α) :
    written step s (l ++ [a]) = written step s l ++ (step (carried step s l) a).1 := by
  rw [written_append, written, written, List.append_nil]

theorem carried_concat (step : σ → α → List β × σ) (s : σ) (l : List α) (a : α) :
    carried step s (l ++ [a]) = (step (carried step s l) a).2 := carried_append step s l [a]

/-- A longer input has what a shorter one has, and more. -/
theorem written_take (step : σ → α → List β × σ) (s : σ) (l : List α) (n : ℕ) : written step s (l.take n) <+: written step s l := by
  have whole := written_append step s (l.take n) (l.drop n)
  rw [List.take_append_drop] at whole
  exact ⟨_, whole.symm⟩

end Pi5Drivers.Transducer
