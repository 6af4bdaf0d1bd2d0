import Pi5Drivers.Lib.Common
import Mathlib.Data.List.Infix

/-! Straight-line programs: every step sees the results of the steps before it. Results do not change when
steps are added, and where steps only refer to steps before them each result is the one of its own step. -/

namespace Pi5Drivers.Straightline

variable {N V : Type*} (step : (ℕ → V) → N → V) (default : V)

/-- The results of a program in order. -/
def results : List N → List V :=
  List.foldl (fun vs n => vs ++ [step (fun i => vs.getD i default) n]) []

/-- The result of a step. -/
def result (steps : List N) (i : ℕ) : V := (results step default steps).getD i default

variable {step default} {steps more : List N} {n : N} {i : ℕ}

theorem results_snoc : results step default (steps ++ [n]) =
    results step default steps ++ [step (result step default steps) n] := by
  rw [results, List.foldl_concat]
  rfl

@[simp] theorem length_results : (results step default steps).length = steps.length := by
  induction steps using List.reverseRecOn with
  | nil => rfl
  | append_singleton steps n ih => rw [results_snoc, List.length_append, List.length_append, ih]; rfl

theorem results_append (more : List N) : results step default steps <+: results step default (steps ++ more) := by
  induction more using List.reverseRecOn with
  | nil => rw [List.append_nil]
  | append_singleton more n ih =>
    rw [← List.append_assoc, results_snoc]
    exact ih.trans (List.prefix_append _ _)

/-- Steps that are added change no result. -/
theorem result_extended (h : steps <+: more) (lt : i < steps.length) :
    result step default more i = result step default steps i := by
  obtain ⟨rest, rfl⟩ := h
  obtain ⟨later, eq⟩ : results step default steps <+: results step default (steps ++ rest) := results_append rest
  rw [result, result, ← eq, List.getD_eq_getElem?_getD, List.getD_eq_getElem?_getD,
    List.getElem?_append_left (by rwa [length_results])]

theorem result_snoc : result step default (steps ++ [n]) steps.length = step (result step default steps) n := by
  rw [result, results_snoc, List.getD_eq_getElem?_getD, List.getElem?_append_right length_results.le]
  simp

/-- A step that refers to earlier steps only has its own result. -/
theorem result_eq (at_ : steps[i]? = some n) (local_ : ∀ f g : ℕ → V, (∀ j < i, f j = g j) → step f n = step g n) :
    result step default steps i = step (result step default steps) n := by
  obtain ⟨before, after, rfl, rfl⟩ : ∃ before after, steps = before ++ [n] ++ after ∧ before.length = i := by
    obtain ⟨lt, rfl⟩ := List.getElem?_eq_some_iff.mp at_
    refine ⟨steps.take i, steps.drop (i + 1), ?_, by rw [List.length_take, Nat.min_eq_left lt.le]⟩
    rw [List.append_assoc, List.singleton_append, List.getElem_cons_drop, List.take_append_drop]
  rw [result_extended (List.prefix_append _ _) (by simp), result_snoc]
  refine local_ _ _ fun j lt => ?_
  rw [List.append_assoc]
  exact (result_extended (List.prefix_append _ _) lt).symm

end Pi5Drivers.Straightline
