import Pi5Drivers.Lib.Common
import Mathlib.Logic.Basic

/-! Programs that change a state and may stop early. A program that stops keeps
the state it stopped in, as a function of a driver does that returns an error
after half of its work. `Triple P x Q E` says that a run started in `P` ends in
`Q` when it returns and in `E` when it stops. -/

namespace Pi5Drivers

variable {σ ε α β : Type}

/-- A program with state `σ` that may stop with an `ε`. -/
def Effect (σ ε α : Type) := σ → Except ε α × σ

namespace Effect

def run (x : Effect σ ε α) (s : σ) : Except ε α × σ := x s

protected def pure (a : α) : Effect σ ε α := fun s => (.ok a, s)

protected def bind (x : Effect σ ε α) (f : α → Effect σ ε β) : Effect σ ε β := fun s =>
  match x s with
  | (.ok a, t) => f a t
  | (.error e, t) => (.error e, t)

instance : Monad (Effect σ ε) where
  pure := Effect.pure
  bind := Effect.bind

def stop (e : ε) : Effect σ ε α := fun s => (.error e, s)

/-- Goes on with `handler` where the program stops. -/
def orElse (x : Effect σ ε α) (handler : ε → Effect σ ε α) : Effect σ ε α := fun s =>
  match x s with
  | (.ok a, t) => (.ok a, t)
  | (.error e, t) => handler e t

def get : Effect σ ε σ := fun s => (.ok s, s)

def modify (f : σ → σ) : Effect σ ε Unit := fun s => (.ok (), f s)

/-- Reports how the program ended instead of stopping. -/
def attempt {ε' : Type} (x : Effect σ ε α) : Effect σ ε' (Except ε α) := fun s => (.ok (x s).1, (x s).2)

/-- Runs on a part of a larger state. -/
def zoom {τ : Type} (part : τ → σ) (put : σ → τ → τ) (x : Effect σ ε α) : Effect τ ε α := fun t =>
  ((x (part t)).1, put (x (part t)).2 t)

/-- Stops unless the condition holds. -/
def require (c : Prop) [Decidable c] (e : ε) : Effect σ ε Unit := if c then pure () else stop e

def when (c : Prop) [Decidable c] (x : Effect σ ε Unit) : Effect σ ε Unit := if c then x else pure ()

def mapError {ε' : Type} (f : ε → ε') (x : Effect σ ε α) : Effect σ ε' α := fun s =>
  match x s with
  | (.ok a, t) => (.ok a, t)
  | (.error e, t) => (.error (f e), t)

def ofExcept : Except ε α → Effect σ ε α
  | .ok a => pure a
  | .error e => stop e

/-- Does something for every element, first to last. -/
def each {γ : Type} (f : γ → Effect σ ε Unit) : List γ → Effect σ ε Unit
  | [] => pure ()
  | c :: l => do
    f c
    each f l

/-! ### Runs -/

theorem run_bind_ok {x : Effect σ ε α} {f : α → Effect σ ε β} {s t : σ} {a : α} (h : x.run s = (.ok a, t)) :
    (x >>= f).run s = (f a).run t := by
  change (match x s with
    | (.ok a, t) => f a t
    | (.error e, t) => (.error e, t)) = _
  rw [show x s = (.ok a, t) from h]
  rfl

theorem run_bind_error {x : Effect σ ε α} {f : α → Effect σ ε β} {s t : σ} {e : ε} (h : x.run s = (.error e, t)) :
    (x >>= f).run s = (.error e, t) := by
  change (match x s with
    | (.ok a, t) => f a t
    | (.error e, t) => (.error e, t)) = _
  rw [show x s = (.error e, t) from h]

theorem run_require_of_pos {c : Prop} [Decidable c] {e : ε} {s : σ} (h : c) :
    (require c e : Effect σ ε Unit).run s = (.ok (), s) := by
  rw [require, if_pos h]
  rfl

theorem run_require_of_neg {c : Prop} [Decidable c] {e : ε} {s : σ} (h : ¬c) :
    (require c e : Effect σ ε Unit).run s = (.error e, s) := by
  rw [require, if_neg h]
  rfl

/-! ### Rules -/

/-- Started in `P`, the program returns in `Q` or stops in `E`. -/
def Triple (P : σ → Prop) (x : Effect σ ε α) (Q : α → σ → Prop) (E : ε → σ → Prop) : Prop :=
  ∀ ⦃s⦄, P s → match x.run s with
    | (.ok a, t) => Q a t
    | (.error e, t) => E e t

namespace Triple

variable {P P' : σ → Prop} {x : Effect σ ε α} {Q Q' : α → σ → Prop} {E E' : ε → σ → Prop}
  {f : α → Effect σ ε β} {R : β → σ → Prop}

theorem of_ok (h : Triple P x Q E) {s t : σ} {a : α} (hs : P s) (hx : x.run s = (.ok a, t)) : Q a t := by
  have := h hs
  rwa [hx] at this

theorem of_error (h : Triple P x Q E) {s t : σ} {e : ε} (hs : P s) (hx : x.run s = (.error e, t)) : E e t := by
  have := h hs
  rwa [hx] at this

theorem mono (h : Triple P x Q E) (hP : ∀ s, P' s → P s) (hQ : ∀ a s, Q a s → Q' a s)
    (hE : ∀ e s, E e s → E' e s) : Triple P' x Q' E' := by
  intro s hs
  have := h (hP s hs)
  rcases hx : x.run s with ⟨a | a, t⟩ <;> rw [hx] at this
  · exact hE _ _ this
  · exact hQ _ _ this

theorem pure {a : α} (h : ∀ s, P s → Q a s) : Triple P (Pure.pure a : Effect σ ε α) Q E :=
  fun s hs => h s hs

theorem stop {e : ε} (h : ∀ s, P s → E e s) : Triple P (Effect.stop e : Effect σ ε α) Q E :=
  fun s hs => h s hs

theorem bind (hx : Triple P x Q E) (hf : ∀ a, Triple (Q a) (f a) R E) : Triple P (x >>= f) R E := by
  intro s hs
  have first := hx hs
  change match (match x.run s with
      | (.ok a, t) => f a t
      | (.error e, t) => (.error e, t)) with
    | (.ok b, t) => R b t
    | (.error e, t) => E e t
  rcases run : x.run s with ⟨a | a, t⟩ <;> rw [run] at first
  · exact first
  · exact hf a first

theorem orElse {handler : ε → Effect σ ε α} (hx : Triple P x Q E) (hh : ∀ e, Triple (E e) (handler e) Q E') :
    Triple P (x.orElse handler) Q E' := by
  intro s hs
  have first := hx hs
  change match (match x.run s with
      | (.ok a, t) => (Except.ok a, t)
      | (.error e, t) => handler e t) with
    | (.ok b, t) => Q b t
    | (.error e, t) => E' e t
  rcases run : x.run s with ⟨a | a, t⟩ <;> rw [run] at first
  · exact hh a first
  · exact first

/-- What follows is told the state it starts in. -/
theorem get_bind {f : σ → Effect σ ε β} (h : ∀ s, P s → Triple (· = s) (f s) R E) :
    Triple P ((Effect.get : Effect σ ε σ) >>= f) R E :=
  fun s hs => h s hs rfl

theorem modify {g : σ → σ} {Q : Unit → σ → Prop} (h : ∀ s, P s → Q () (g s)) :
    Triple P (Effect.modify g : Effect σ ε Unit) Q E :=
  fun s hs => h s hs

theorem require {c : Prop} [Decidable c] {e : ε} {Q : Unit → σ → Prop} (yes : ∀ s, P s → c → Q () s)
    (no : ∀ s, P s → ¬c → E e s) : Triple P (Effect.require c e : Effect σ ε Unit) Q E := by
  unfold Effect.require
  split
  · exact pure fun s hs => yes s hs ‹_›
  · exact stop fun s hs => no s hs ‹_›

theorem when {c : Prop} [Decidable c] {x : Effect σ ε Unit} {Q : Unit → σ → Prop} (hx : c → Triple P x Q E)
    (skip : ∀ s, P s → ¬c → Q () s) : Triple P (Effect.when c x) Q E := by
  unfold Effect.when
  split
  · exact hx ‹_›
  · exact pure fun s hs => skip s hs ‹_›

theorem mapError {ε' : Type} {f : ε → ε'} {E' : ε' → σ → Prop} (h : Triple P x Q fun e => E' (f e)) :
    Triple P (x.mapError f) Q E' := by
  intro s hs
  have := h hs
  simp only [Effect.run, Effect.mapError] at this ⊢
  rcases hx : x s with ⟨a | a, t⟩ <;> rw [hx] at this <;> exact this

theorem ofExcept {r : Except ε α} (yes : ∀ a s, P s → Q a s) (no : ∀ e s, P s → E e s) :
    Triple P (Effect.ofExcept r) Q E := by
  cases r with
  | ok a => exact pure (yes a)
  | error e => exact stop (no e)

/-- What follows is told the result. -/
theorem ofExcept_ok {r : Except ε α} (no : ∀ e s, P s → E e s) :
    Triple P (Effect.ofExcept r) (fun a s => r = .ok a ∧ P s) E := by
  cases r with
  | ok a => exact pure fun _ hs => ⟨rfl, hs⟩
  | error e => exact stop (no e)

theorem ite {c : Prop} [Decidable c] {y : Effect σ ε α} (hx : c → Triple P x Q E) (hy : ¬c → Triple P y Q E) :
    Triple P (if c then x else y) Q E := by
  split
  · exact hx ‹_›
  · exact hy ‹_›

/-- What each round keeps, the loop keeps. -/
theorem each {γ : Type} {l : List γ} {f : γ → Effect σ ε Unit} (h : ∀ c ∈ l, Triple P (f c) (fun _ => P) E) :
    Triple P (Effect.each f l) (fun _ => P) E := by
  induction l with
  | nil => exact pure fun _ hs => hs
  | cons c l ih =>
    exact bind (h c List.mem_cons_self) fun _ => ih fun d hd => h d (List.mem_cons_of_mem c hd)

/-- What holds of the elements still to come, while each of them is dealt with. -/
theorem each_rest {γ : Type} {f : γ → Effect σ ε Unit} {I : List γ → σ → Prop}
    (h : ∀ c l, Triple (I (c :: l)) (f c) (fun _ => I l) E) (l : List γ) :
    Triple (I l) (Effect.each f l) (fun _ => I []) E := by
  induction l with
  | nil => exact pure fun _ hs => hs
  | cons c l ih => exact bind (h c l) fun _ => ih

theorem attempt {ε' : Type} {E' : ε' → σ → Prop} {R : Except ε α → σ → Prop}
    (h : Triple P x (fun a => R (.ok a)) (fun e => R (.error e))) :
    Triple P (x.attempt : Effect σ ε' (Except ε α)) R E' := by
  intro s hs
  have := h hs
  change R (x.run s).1 (x.run s).2
  rcases hx : x.run s with ⟨a | a, t⟩ <;> rw [hx] at this <;> exact this

/-- What follows an attempt, where it worked and where it did not. -/
theorem attempt_bind {ε' : Type} {E' : ε' → σ → Prop} {f : Except ε α → Effect σ ε' β} (h : Triple P x Q E)
    (ok : ∀ a, Triple (Q a) (f (.ok a)) R E') (error : ∀ e, Triple (E e) (f (.error e)) R E') :
    Triple P ((x.attempt : Effect σ ε' (Except ε α)) >>= f) R E' := by
  intro s hs
  have first := h hs
  rw [show ((x.attempt : Effect σ ε' (Except ε α)) >>= f).run s = (f (x.run s).1).run (x.run s).2 from rfl]
  rcases run : x.run s with ⟨e | a, t⟩ <;> rw [run] at first
  · exact error e first
  · exact ok a first

theorem zoom {τ : Type} {part : τ → σ} {put : σ → τ → τ} {P : τ → Prop} {Q : α → τ → Prop} {E : ε → τ → Prop}
    (h : ∀ t, P t → Triple (· = part t) x (fun a s => Q a (put s t)) fun e s => E e (put s t)) :
    Triple P (Effect.zoom part put x) Q E := by
  intro t ht
  have := h t ht rfl
  rw [show (Effect.zoom part put x).run t = ((x.run (part t)).1, put (x.run (part t)).2 t) from rfl]
  rcases hx : x.run (part t) with ⟨a | a, s⟩ <;> rw [hx] at this <;> exact this

/-- A precondition that names a value of an earlier state. -/
theorem of_exists {ι : Type} {P : ι → σ → Prop} (h : ∀ i, Triple (P i) x Q E) :
    Triple (fun s => ∃ i, P i s) x Q E :=
  fun _ ⟨i, hs⟩ => h i hs

/-- A part of the precondition that does not mention the state is a hypothesis. -/
theorem assume {p : Prop} (h : p → Triple P x Q E) : Triple (fun s => p ∧ P s) x Q E :=
  fun _ hs => h hs.1 hs.2

end Triple

end Effect

/-! ### Results without a state -/

section Results

variable {x : Except ε α} {f : α → Except ε β} {a : α} {b : β} {e : ε} {c : Prop} [Decidable c]

/-- A result that passed a check. -/
theorem of_check (h : (if c then .error e else x) = .ok a) : ¬c ∧ x = .ok a := by
  split at h
  · cases h
  · exact ⟨‹_›, h⟩

/-- A result that another one came before. -/
theorem of_bind (h : x >>= f = .ok b) : ∃ a, x = .ok a ∧ f a = .ok b := by
  cases x with
  | error e => cases h
  | ok a => exact ⟨a, rfl, h⟩

end Results

/-! ### Traces -/

/-- Every event of the trace, the newest first, was allowed after the ones before it. -/
def Admissible {η : Type} (allows : List η → η → Prop) : List η → Prop
  | [] => True
  | e :: older => allows older e ∧ Admissible allows older

theorem Admissible.allows {η : Type} {allows : List η → η → Prop} {newer older : List η} {e : η}
    (h : Admissible allows (newer ++ e :: older)) : allows older e := by
  induction newer with
  | nil => exact h.1
  | cons _ _ ih => exact ih h.2

end Pi5Drivers
