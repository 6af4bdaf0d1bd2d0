import Pi5Drivers.Lib.Common
import Mathlib.Data.Set.Basic

/-! Computations that record what they look up. A `Tracked` computation may read
values of an environment, carries a state from which the recorded keys can be
read off, and may fail. Each one brings the proof that its outcome depends on
the environment only through the recorded keys, so two environments that agree
there give the same outcome. Programs written with `do` in this monad need no
further argument for that. -/

namespace Pi5Drivers

variable {ι V σ ε : Type} {log : σ → Set ι} {α β : Type}

/-- A computation from environments `ι → V` with state `σ` and failures `ε`. `log`
gives the keys recorded in a state; it never shrinks along a run. -/
structure Tracked (ι V : Type) {σ : Type} (ε : Type) (log : σ → Set ι) (α : Type) where
  run : (ι → V) → σ → Except ε α × σ
  /-- The states a run passes through, one for each change; it ends in the last one. -/
  states : (ι → V) → σ → List σ
  last : ∀ u s, (states u s).getLastD s = (run u s).2
  grows : ∀ u s, log s ⊆ log (run u s).2
  agree : ∀ u u' s, (∀ i ∈ log (run u s).2, u i = u' i) → run u' s = run u s

namespace Tracked

protected def pure (a : α) : Tracked ι V ε log α where
  run _ s := (.ok a, s)
  states _ _ := []
  last _ _ := rfl
  grows _ _ := subset_rfl
  agree _ _ _ _ := rfl

/-- The rest of a run, which a failure skips. -/
def andThen (f : α → Tracked ι V ε log β) (u : ι → V) : Except ε α × σ → Except ε β × σ
  | (.ok a, s) => (f a).run u s
  | (.error e, s) => (.error e, s)

/-- The states of the rest of a run. -/
def statesThen (f : α → Tracked ι V ε log β) (u : ι → V) : Except ε α × σ → List σ
  | (.ok a, s) => (f a).states u s
  | (.error _, _) => []

theorem andThen_grows (f : α → Tracked ι V ε log β) (u : ι → V) (r : Except ε α × σ) :
    log r.2 ⊆ log (andThen f u r).2 := by
  obtain ⟨r, s⟩ := r
  cases r with
  | ok a => exact (f a).grows u s
  | error e => exact subset_rfl

theorem statesThen_last (f : α → Tracked ι V ε log β) (u : ι → V) (r : Except ε α × σ) :
    (statesThen f u r).getLastD r.2 = (andThen f u r).2 := by
  obtain ⟨r, s⟩ := r
  cases r with
  | ok a => exact (f a).last u s
  | error e => rfl

protected def bind (x : Tracked ι V ε log α) (f : α → Tracked ι V ε log β) : Tracked ι V ε log β where
  run u s := andThen f u (x.run u s)
  states u s := x.states u s ++ statesThen f u (x.run u s)
  last u s := by
    rw [List.getLastD_eq_getLast?, List.getLast?_append, Option.getD_or, ← List.getLastD_eq_getLast?,
      ← List.getLastD_eq_getLast?, x.last, statesThen_last]
  grows u s := (x.grows u s).trans (andThen_grows f u _)
  agree u u' s h := by
    rw [x.agree u u' s fun i hi => h i (andThen_grows f u _ hi)]
    rcases hx : x.run u s with ⟨a | a, t⟩
    · rfl
    · rw [hx] at h
      exact (f a).agree u u' t h

instance : Monad (Tracked ι V ε log) where
  pure := Tracked.pure
  bind := Tracked.bind

/-- Stop with a failure. -/
def fail (e : ε) : Tracked ι V ε log α where
  run _ s := (.error e, s)
  states _ _ := []
  last _ _ := rfl
  grows _ _ := subset_rfl
  agree _ _ _ _ := rfl

/-- Fail where a condition holds. -/
def reject (e : ε) (c : Prop) [Decidable c] : Tracked ι V ε log Unit := if c then fail e else pure ()

def get : Tracked ι V ε log σ where
  run _ s := (.ok s, s)
  states _ _ := []
  last _ _ := rfl
  grows _ _ := subset_rfl
  agree _ _ _ _ := rfl

/-- Change the state without forgetting a recorded key. -/
def modify (f : σ → σ) (hf : ∀ s, log s ⊆ log (f s) := by exact fun _ => subset_rfl) :
    Tracked ι V ε log Unit where
  run _ s := (.ok (), f s)
  states _ s := [f s]
  last _ _ := rfl
  grows _ s := hf s
  agree _ _ _ _ := rfl

/-- Look a key up and record it. -/
def look (i : ι) (record : σ → σ) (hr : ∀ s, i ∈ log (record s)) (hs : ∀ s, log s ⊆ log (record s)) :
    Tracked ι V ε log V where
  run u s := (.ok (u i), record s)
  states _ s := [record s]
  last _ _ := rfl
  grows _ s := hs s
  agree u u' s h := by rw [h i (hr s)]

/-- Change the failure. -/
def mapFailure (f : ε → ε) (x : Tracked ι V ε log α) : Tracked ι V ε log α where
  run u s := ((x.run u s).1.mapError f, (x.run u s).2)
  states := x.states
  last := x.last
  grows := x.grows
  agree u u' s h := by rw [x.agree u u' s h]

section Run

variable (u : ι → V) (s : σ)

@[simp] theorem run_pure (a : α) : (pure a : Tracked ι V ε log α).run u s = (.ok a, s) := rfl

@[simp] theorem run_fail (e : ε) : (fail e : Tracked ι V ε log α).run u s = (.error e, s) := rfl

@[simp] theorem run_get : (get : Tracked ι V ε log σ).run u s = (.ok s, s) := rfl

@[simp] theorem run_modify (f : σ → σ) (hf : ∀ s, log s ⊆ log (f s)) :
    (modify f hf : Tracked ι V ε log Unit).run u s = (.ok (), f s) := rfl

@[simp] theorem run_look (i : ι) (record : σ → σ) (hr hs) :
    (look i record hr hs : Tracked ι V ε log V).run u s = (.ok (u i), record s) := rfl

theorem run_bind (x : Tracked ι V ε log α) (f : α → Tracked ι V ε log β) :
    (x >>= f).run u s = andThen f u (x.run u s) := rfl

theorem states_bind (x : Tracked ι V ε log α) (f : α → Tracked ι V ε log β) :
    (x >>= f).states u s = x.states u s ++ statesThen f u (x.run u s) := rfl

/-- A run ends in a state it passes through, if not in the one it starts in. -/
theorem run_mem (x : Tracked ι V ε log α) : (x.run u s).2 ∈ s :: x.states u s := by
  rw [← x.last]
  exact List.getLastD_mem_cons

variable {u s} {t : σ}

/-- A run that succeeds passed its first part. -/
theorem bind_ok {x : Tracked ι V ε log α} {f : α → Tracked ι V ε log β} {b : β} :
    (x >>= f).run u s = (.ok b, t) ↔ ∃ a m, x.run u s = (.ok a, m) ∧ (f a).run u m = (.ok b, t) := by
  rw [run_bind]
  rcases x.run u s with ⟨e | a, m⟩
  · simp [andThen]
  · refine ⟨fun h => ⟨a, m, rfl, h⟩, ?_⟩
    rintro ⟨a', m', h, hf⟩
    cases h
    exact hf

@[simp] theorem mapFailure_ok {f : ε → ε} {x : Tracked ι V ε log α} {a : α} :
    (x.mapFailure f).run u s = (.ok a, t) ↔ x.run u s = (.ok a, t) := by
  simp only [mapFailure]
  rcases x.run u s with ⟨e | b, m⟩ <;> simp [Except.mapError]

/-- A run that succeeds took one of two branches. -/
theorem ite_ok {c : Prop} [Decidable c] {x y : Tracked ι V ε log β} {b : β} :
    (if c then x else y).run u s = (.ok b, t) ↔
      (c ∧ x.run u s = (.ok b, t)) ∨ (¬c ∧ y.run u s = (.ok b, t)) := by
  by_cases h : c <;> simp [h]

@[simp] theorem pure_ok {a b : α} :
    (pure a : Tracked ι V ε log α).run u s = (.ok b, t) ↔ a = b ∧ s = t := by
  simp [run_pure]

@[simp] theorem fail_ok {e : ε} {b : β} :
    (fail e : Tracked ι V ε log β).run u s = (.ok b, t) ↔ False := by
  simp [run_fail]

@[simp] theorem modify_ok {f : σ → σ} {hf : ∀ s, log s ⊆ log (f s)} {b : Unit} :
    (modify f hf : Tracked ι V ε log Unit).run u s = (.ok b, t) ↔ f s = t := by
  simp [run_modify]

@[simp] theorem look_ok {i : ι} {record : σ → σ} {hr hs} {v : V} :
    (look i record hr hs : Tracked ι V ε log V).run u s = (.ok v, t) ↔ u i = v ∧ record s = t := by
  simp [run_look]

@[simp] theorem reject_ok {e : ε} {c : Prop} [Decidable c] {a : Unit} :
    (reject e c : Tracked ι V ε log Unit).run u s = (.ok a, t) ↔ ¬c ∧ s = t := by
  unfold reject
  split <;> simp [*]

end Run

end Tracked

end Pi5Drivers
