import Pi5Drivers.Lib.Common
import Mathlib.Data.Nat.Notation
import Mathlib.Data.List.Infix

/-! Streaks of equal elements. A list is read from its newest element to the older ones, so
that a count of the current streak can be kept while elements come in. -/

namespace Pi5Drivers

variable {α : Type*} {n : ℕ} {a b : α} {l m : List α}

/-- Some element occurs `n` times in a row. -/
def Repeats (n : ℕ) (l : List α) : Prop := ∃ a, List.replicate n a <:+: l

theorem not_repeats_nil (h : 0 < n) : ¬Repeats n ([] : List α) := by
  rintro ⟨a, part⟩
  have := part.length_le
  simp at this
  omega

@[simp] theorem repeats_reverse : Repeats n l.reverse ↔ Repeats n l := by
  refine exists_congr fun a => ?_
  rw [← List.reverse_infix, List.reverse_reverse, List.reverse_replicate]

theorem Repeats.mono (h : Repeats n l) (sub : l <:+: m) : Repeats n m :=
  h.imp fun _ rep => rep.trans sub

section Count

variable [DecidableEq α]

/-- How often the newest element came since another one did. -/
def streak : List α → ℕ
  | [] => 0
  | [_] => 1
  | a :: b :: l => if a = b then streak (b :: l) + 1 else 1

theorem streak_pos : 0 < streak (a :: l) := by
  cases l with
  | nil => exact Nat.one_pos
  | cons b l =>
    rw [streak]
    split <;> omega

theorem replicate_prefix_iff : List.replicate n a <+: a :: l ↔ n ≤ streak (a :: l) := by
  induction l generalizing n with
  | nil =>
    cases n with
    | zero => simp
    | succ n => simp [streak, List.replicate_succ]
  | cons b l ih =>
    cases n with
    | zero => simp
    | succ n =>
      rw [List.replicate_succ, List.cons_prefix_cons, streak]
      by_cases same : a = b
      · subst same
        simp [ih]
      · cases n with
        | zero => simp [same]
        | succ n => simp [List.replicate_succ, same]

/-- A new element repeats if it prolongs the streak far enough. -/
theorem repeats_cons (pos : 0 < n) : Repeats n (a :: l) ↔ n ≤ streak (a :: l) ∨ Repeats n l := by
  obtain ⟨n, rfl⟩ := Nat.exists_eq_succ_of_ne_zero pos.ne'
  constructor
  · rintro ⟨b, rep⟩
    rcases List.infix_cons_iff.mp rep with first | later
    · have : b = a := (List.cons_prefix_cons.mp (List.replicate_succ ▸ first)).1
      subst this
      exact .inl (replicate_prefix_iff.mp first)
    · exact .inr ⟨b, later⟩
  · rintro (long | rep)
    · exact ⟨a, (replicate_prefix_iff.mpr long).isInfix⟩
    · exact rep.mono (List.infix_cons List.infix_rfl)

end Count

end Pi5Drivers
