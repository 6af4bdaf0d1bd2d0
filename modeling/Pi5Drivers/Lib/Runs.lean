import Pi5Drivers.Lib.Common
import Mathlib.Logic.Basic

/-! Systems that take steps in any order. A step is either possible, and then it has one
result, or it is not. What holds at first and is kept by every step of a kind holds in
all states that steps of this kind lead to. -/

namespace Pi5Drivers

/-- States, and the steps between them. -/
structure System (σ ε : Type) where
  init : σ
  next : σ → ε → Option σ

namespace System

variable {σ ε : Type} {M : System σ ε} {P Q : σ → ε → Prop} {I : σ → Prop} {s t : σ}

/-- The states that steps with a property lead to. -/
inductive Reaches (M : System σ ε) (P : σ → ε → Prop) : σ → Prop
  | init : Reaches M P M.init
  | step {s t : σ} (e : ε) : Reaches M P s → P s e → M.next s e = some t → Reaches M P t

/-- The states that any steps lead to. -/
abbrev Reachable (M : System σ ε) : σ → Prop := M.Reaches fun _ _ => True

theorem Reaches.invariant (init : I M.init) (kept : ∀ {s t} e, I s → P s e → M.next s e = some t → I t)
    (h : M.Reaches P s) : I s := by
  induction h with
  | init => exact init
  | step e _ hp next ih => exact kept e ih hp next

theorem Reaches.mono (h : M.Reaches P s) (imp : ∀ s e, P s e → Q s e) : M.Reaches Q s := by
  induction h with
  | init => exact .init
  | step e _ hp next ih => exact .step e ih (imp _ _ hp) next

theorem Reachable.step (e : ε) (h : M.Reachable s) (next : M.next s e = some t) : M.Reachable t :=
  Reaches.step e h trivial next

/-- The steps of a list, one after the other. -/
def runFrom (M : System σ ε) : σ → List ε → Option σ
  | s, [] => some s
  | s, e :: l => (M.next s e).bind fun t => M.runFrom t l

theorem Reaches.runFrom {K : ε → Prop} (h : M.Reaches (fun _ e => K e) s) {l : List ε} (all : ∀ e ∈ l, K e)
    (run : M.runFrom s l = some t) : M.Reaches (fun _ e => K e) t := by
  induction l generalizing s with
  | nil =>
    cases run
    exact h
  | cons e l ih =>
    obtain ⟨u, next, rest⟩ := Option.bind_eq_some_iff.mp run
    obtain ⟨here, later⟩ := List.forall_mem_cons.mp all
    exact ih (.step e h here next) later rest

theorem reaches_of_run {K : ε → Prop} {l : List ε} (all : ∀ e ∈ l, K e) (run : M.runFrom M.init l = some s) :
    M.Reaches (fun _ e => K e) s :=
  Reaches.runFrom Reaches.init all run

theorem reachable_of_run {l : List ε} (run : M.runFrom M.init l = some s) : M.Reachable s :=
  reaches_of_run (fun _ _ => trivial) run

/-- The steps of a list, as long as each has a property where it is taken. -/
def runWhile (M : System σ ε) (P : σ → ε → Prop) [∀ s e, Decidable (P s e)] : σ → List ε → Option σ
  | s, [] => some s
  | s, e :: l => if P s e then (M.next s e).bind fun t => M.runWhile P t l else none

theorem Reaches.runWhile [∀ s e, Decidable (P s e)] (h : M.Reaches P s) {l : List ε}
    (run : M.runWhile P s l = some t) : M.Reaches P t := by
  induction l generalizing s with
  | nil =>
    cases run
    exact h
  | cons e l ih =>
    obtain ⟨here, run⟩ := Option.ite_none_right_eq_some.mp run
    obtain ⟨u, next, rest⟩ := Option.bind_eq_some_iff.mp run
    exact ih (.step e h here next) rest

end System

end Pi5Drivers
