import Pi5Drivers.Lib.Tracked
import Mathlib.Data.List.Basic

/-! `Tracked` computations that keep an invariant and only extend their state, at every step and also where they
fail. A relation says what it is to extend a state, so that facts about an earlier state need not be carried along:
they are looked up there. `Advances` is about runs from one state; what follows a step is verified from any state
that the step may end in. -/

namespace Pi5Drivers.Tracked

variable {ι V σ ε : Type} {log : σ → Set ι} {α β : Type}

/-- All states on the way from `s` to `t` have the invariant, and each extends the earlier ones. -/
def Along (I : σ → Prop) (R : σ → σ → Prop) (s t : σ) (states : List σ) : Prop := ∀ m ∈ states, I m ∧ R s m ∧ R m t

/-- A run from `s` keeps the invariant `I` and extends the state; a result has the property `Q`. -/
def Advances (u : ι → V) (I : σ → Prop) (R : σ → σ → Prop) (s : σ) (x : Tracked ι V ε log α) (Q : α → σ → Prop) : Prop :=
  I s → Along I R s (x.run u s).2 (x.states u s) ∧ I (x.run u s).2 ∧ R s (x.run u s).2 ∧
    ∀ a, (x.run u s).1 = .ok a → Q a (x.run u s).2

theorem along_nil {I : σ → Prop} {R : σ → σ → Prop} {s t : σ} : Along I R s t [] := fun _ mem => absurd mem List.not_mem_nil

namespace Advances

variable {u : ι → V} {I : σ → Prop} {R : σ → σ → Prop} {s : σ} {x y : Tracked ι V ε log α} {Q Q' : α → σ → Prop}
  {f : α → Tracked ι V ε log β} {S : β → σ → Prop}

theorem weaken (h : Advances u I R s x Q) (hQ : ∀ a t, I t → R s t → Q a t → Q' a t) : Advances u I R s x Q' := by
  intro inv
  obtain ⟨along, kept, extends_, result⟩ := h inv
  exact ⟨along, kept, extends_, fun a ok => hQ a _ kept extends_ (result a ok)⟩

/-- The result is that of the run. -/
theorem outcome (h : Advances u I R s x Q) : Advances u I R s x fun a t => Q a t ∧ x.run u s = (.ok a, t) := by
  intro inv
  obtain ⟨along, kept, extends_, result⟩ := h inv
  exact ⟨along, kept, extends_, fun a ok => ⟨result a ok, Prod.ext ok rfl⟩⟩

/-- A weaker relation. -/
theorem relax {R' : σ → σ → Prop} (weaker : ∀ {a b}, R a b → R' a b) (h : Advances u I R s x Q) : Advances u I R' s x Q := by
  intro inv
  obtain ⟨along, kept, extends_, result⟩ := h inv
  refine ⟨fun m mem => ?_, kept, weaker extends_, result⟩
  obtain ⟨holds, later, earlier⟩ := along m mem
  exact ⟨holds, weaker later, weaker earlier⟩

/-- What an invariant gives may be used. -/
theorem given (h : I s → Advances u I R s x Q) : Advances u I R s x Q := fun inv => h inv inv

section Order

variable (refl_ : ∀ s, R s s)
include refl_

theorem pure {a : α} (h : Q a s) : Advances u I R s (Pure.pure a : Tracked ι V ε log α) Q := by
  intro inv
  refine ⟨along_nil, inv, refl_ s, fun b ok => ?_⟩
  obtain rfl := Except.ok.inj ok
  exact h

theorem fail {e : ε} : Advances u I R s (Tracked.fail e : Tracked ι V ε log α) Q :=
  fun inv => ⟨along_nil, inv, refl_ s, fun _ ok => nomatch ok⟩

theorem reject {e : ε} {c : Prop} [Decidable c] {Q : Unit → σ → Prop} (h : ¬c → Q () s) :
    Advances u I R s (Tracked.reject e c : Tracked ι V ε log Unit) Q := by
  unfold Tracked.reject
  split
  · exact fail refl_
  · exact pure refl_ (h (by assumption))

end Order

theorem bind (trans_ : ∀ {a b c}, R a b → R b c → R a c) (hx : Advances u I R s x Q)
    (hf : ∀ a t, R s t → Q a t → Advances u I R t (f a) S) : Advances u I R s (x >>= f) S := by
  intro inv
  obtain ⟨along, kept, extends_, result⟩ := hx inv
  rw [Tracked.run_bind, Tracked.states_bind]
  rcases outcome : x.run u s with ⟨e | a, t⟩
  · rw [outcome] at along kept extends_
    rw [statesThen, List.append_nil]
    exact ⟨along, kept, extends_, fun _ ok => nomatch ok⟩
  · rw [outcome] at along kept extends_ result
    obtain ⟨along', kept', extends', result'⟩ := hf a t extends_ (result a rfl) kept
    refine ⟨fun m mem => ?_, kept', trans_ extends_ extends', result'⟩
    obtain before | after := List.mem_append.mp mem
    · obtain ⟨holds, later, earlier⟩ := along m before
      exact ⟨holds, later, trans_ earlier extends'⟩
    · obtain ⟨holds, later, earlier⟩ := along' m after
      exact ⟨holds, trans_ extends_ later, earlier⟩

/-- What follows sees the state. -/
theorem get_bind {f : σ → Tracked ι V ε log β} (h : Advances u I R s (f s) S) :
    Advances u I R s ((Tracked.get : Tracked ι V ε log σ) >>= f) S := h

section Order

variable (refl_ : ∀ s, R s s)
include refl_

theorem modify {g : σ → σ} {hg : ∀ s, log s ⊆ log (g s)} {Q : Unit → σ → Prop} (inv : I s → I (g s)) (ext : R s (g s))
    (h : Q () (g s)) : Advances u I R s (Tracked.modify g hg : Tracked ι V ε log Unit) Q := by
  refine fun kept => ⟨fun m mem => ?_, inv kept, ext, fun _ _ => h⟩
  obtain rfl := List.mem_singleton.mp mem
  exact ⟨inv kept, ext, refl_ _⟩

theorem look {i : ι} {record : σ → σ} {hr hs} {Q : V → σ → Prop} (inv : I s → I (record s)) (ext : R s (record s))
    (h : Q (u i) (record s)) : Advances u I R s (Tracked.look i record hr hs : Tracked ι V ε log V) Q := by
  refine fun kept => ⟨fun m mem => ?_, inv kept, ext, fun v ok => ?_⟩
  · obtain rfl := List.mem_singleton.mp mem
    exact ⟨inv kept, ext, refl_ _⟩
  · obtain rfl := Except.ok.inj ok
    exact h

end Order

theorem ite {c : Prop} [Decidable c] (hx : c → Advances u I R s x Q) (hy : ¬c → Advances u I R s y Q) :
    Advances u I R s (if c then x else y) Q := by
  split
  · exact hx (by assumption)
  · exact hy (by assumption)

theorem mapFailure {g : ε → ε} (h : Advances u I R s x Q) : Advances u I R s (x.mapFailure g) Q := by
  intro inv
  obtain ⟨along, kept, extends_, result⟩ := h inv
  refine ⟨along, kept, extends_, fun a ok => result a ?_⟩
  have mapped : ((x.run u s).1.mapError g) = .ok a := ok
  rcases outcome : (x.run u s).1 with e | b
  · rw [outcome] at mapped
    exact nomatch mapped
  · rw [outcome] at mapped
    exact mapped

end Advances

end Pi5Drivers.Tracked
