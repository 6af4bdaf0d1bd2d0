import Pi5Drivers.Lib.Effect

/-! Ends of a computation that may stop: what holds of its value, and of its error. -/

namespace Pi5Drivers

variable {σ ε α β : Type}

/-- A value has `Q`, and an error has `E`. -/
def Outcome (E : ε → Prop) (r : Except ε α) (Q : α → Prop) : Prop :=
  match r with
  | .ok a => Q a
  | .error e => E e

namespace Outcome

variable {E : ε → Prop} {r : Except ε α} {Q Q' : α → Prop} {R : β → Prop}

theorem of_ok (h : Outcome E r Q) {a : α} (same : r = .ok a) : Q a := by
  rw [same] at h
  exact h

theorem of_error (h : Outcome E r Q) {e : ε} (same : r = .error e) : E e := by
  rw [same] at h
  exact h

theorem mono (h : Outcome E r Q) (imp : ∀ a, Q a → Q' a) : Outcome E r Q' := by
  cases r with
  | ok a => exact imp a h
  | error e => exact h

theorem bind {f : α → Except ε β} (hr : Outcome E r Q) (hf : ∀ a, Q a → Outcome E (f a) R) : Outcome E (r >>= f) R := by
  cases r with
  | ok a => exact hf a hr
  | error e => exact hr

theorem map {f : α → β} (h : Outcome E r fun a => R (f a)) : Outcome E (r.map f) R := by
  cases r with
  | ok a => exact h
  | error e => exact h

theorem ite {c : Prop} [Decidable c] {r' : Except ε α} (yes : c → Outcome E r Q) (no : ¬c → Outcome E r' Q) :
    Outcome E (if c then r else r') Q := by
  split
  · exact yes ‹_›
  · exact no ‹_›

/-- What holds after each step of a fold holds after the fold, of the elements that were read. -/
theorem foldlM {f : β → α → Except ε β} {I : List α → β → Prop} {l : List α} {b : β} (first : I [] b)
    (step : ∀ front a b, front ++ [a] <+: l → I front b → Outcome E (f b a) (I (front ++ [a]))) : Outcome E (l.foldlM f b) (I l) := by
  induction l using List.reverseRecOn with
  | nil => exact first
  | append_singleton l a ih =>
    rw [List.foldlM_append]
    refine (ih fun front x b within => step front x b (within.trans (List.prefix_append l [a]))).bind fun b had => ?_
    refine Outcome.bind (step l a b (List.prefix_refl _) had) fun b' now => ?_
    exact now

/-- Every element of a list has its own value. -/
theorem mapM {f : α → Except ε β} {g : α → β} {l : List α} (each : ∀ a ∈ l, Outcome E (f a) (· = g a)) :
    Outcome E (l.mapM f) (· = l.map g) := by
  induction l with
  | nil => exact rfl
  | cons a l ih =>
    rw [List.mapM_cons]
    refine (each a List.mem_cons_self).bind fun b first => (ih fun x mem => each x (List.mem_cons_of_mem a mem)).bind fun rest same => ?_
    rw [first, same]
    exact rfl

end Outcome

/-- A program that runs such a computation. -/
theorem Effect.Triple.ofOutcome {P : σ → Prop} {E : ε → Prop} {r : Except ε α} {Q : α → Prop} (h : Outcome E r Q) :
    Effect.Triple P (Effect.ofExcept r) (fun a s => Q a ∧ P s) fun e s => E e ∧ P s := by
  cases r with
  | ok a => exact Effect.Triple.pure fun _ hs => ⟨h, hs⟩
  | error e => exact Effect.Triple.stop fun _ hs => ⟨h, hs⟩

end Pi5Drivers
