import Pi5Drivers.Lib.Tracked
import Mathlib.Data.List.Basic

/-! Preconditions and postconditions of `Tracked` computations. `Ensures u P x Q` says that
every run of `x` that starts in `P` and succeeds ends in `Q`; a run that fails ends
nowhere. The rules follow the combinators of the monad. -/

namespace Pi5Drivers.Tracked

variable {ι V σ ε : Type} {log : σ → Set ι} {α β : Type} {u : ι → V}

/-- Started in `P`, a run that succeeds ends in `Q`. -/
def Ensures (u : ι → V) (P : σ → Prop) (x : Tracked ι V ε log α) (Q : α → σ → Prop) : Prop :=
  ∀ ⦃s a t⦄, P s → x.run u s = (.ok a, t) → Q a t

namespace Ensures

variable {P P' : σ → Prop} {x : Tracked ι V ε log α} {Q Q' : α → σ → Prop}
  {f : α → Tracked ι V ε log β} {R : β → σ → Prop}

theorem mono (h : Ensures u P x Q) (hP : ∀ s, P' s → P s) (hQ : ∀ a s, Q a s → Q' a s) :
    Ensures u P' x Q' := fun _ _ _ hs hx => hQ _ _ (h (hP _ hs) hx)

theorem weaken (h : Ensures u P x Q) (hQ : ∀ a s, Q a s → Q' a s) : Ensures u P x Q' :=
  h.mono (fun _ => id) hQ

theorem bind (hx : Ensures u P x Q) (hf : ∀ a, Ensures u (Q a) (f a) R) : Ensures u P (x >>= f) R := by
  intro s b t hs h
  obtain ⟨a, m, ha, hb⟩ := Tracked.bind_ok.mp h
  exact hf a (hx hs ha) hb

theorem pure {a : α} (h : ∀ s, P s → Q a s) : Ensures u P (Pure.pure a : Tracked ι V ε log α) Q := by
  intro s b t hs hb
  obtain ⟨rfl, rfl⟩ := Tracked.pure_ok.mp hb
  exact h _ hs

theorem fail {e : ε} : Ensures u P (Tracked.fail e : Tracked ι V ε log α) Q :=
  fun _ _ _ _ h => (Tracked.fail_ok.mp h).elim

/-- What follows may use that the state it is given is the current one. -/
theorem get_bind {f : σ → Tracked ι V ε log β} (h : ∀ s, P s → Ensures u (· = s) (f s) R) :
    Ensures u P ((Tracked.get : Tracked ι V ε log σ) >>= f) R := by
  intro s b t hs hb
  obtain ⟨s', m, hget, hb⟩ := Tracked.bind_ok.mp hb
  obtain ⟨rfl, rfl⟩ : s = s' ∧ s = m := by simpa [Tracked.run_get] using hget
  exact h s hs rfl hb

theorem modify {g : σ → σ} {hg : ∀ s, log s ⊆ log (g s)} {Q : Unit → σ → Prop} (h : ∀ s, P s → Q () (g s)) :
    Ensures u P (Tracked.modify g hg : Tracked ι V ε log Unit) Q := by
  intro s b t hs hb
  obtain rfl := Tracked.modify_ok.mp hb
  exact h s hs

theorem reject {e : ε} {c : Prop} [Decidable c] {Q : Unit → σ → Prop} (h : ∀ s, P s → ¬c → Q () s) :
    Ensures u P (Tracked.reject e c : Tracked ι V ε log Unit) Q := by
  intro s b t hs hb
  obtain ⟨hc, rfl⟩ := Tracked.reject_ok.mp hb
  exact h s hs hc

theorem ite {c : Prop} [Decidable c] {y : Tracked ι V ε log α} (hx : c → Ensures u P x Q)
    (hy : ¬c → Ensures u P y Q) : Ensures u P (if c then x else y) Q := by
  split
  · exact hx ‹_›
  · exact hy ‹_›

/-- What each step of a loop keeps, the loop keeps. -/
theorem forM {γ : Type} {l : List γ} {f : γ → Tracked ι V ε log PUnit}
    (h : ∀ c ∈ l, Ensures u P (f c) fun _ => P) : Ensures u P (l.forM f) fun _ => P := by
  induction l with
  | nil => exact pure fun _ => id
  | cons c l ih =>
    exact bind (h c (by simp)) fun _ => ih fun c hc => h c (by simp [hc])

/-- A precondition that does not mention the state is a hypothesis. -/
theorem assume {p : Prop} (h : p → Ensures u P x Q) : Ensures u (fun s => P s ∧ p) x Q :=
  fun _ _ _ hs hx => h hs.2 hs.1 hx

end Ensures

end Pi5Drivers.Tracked
