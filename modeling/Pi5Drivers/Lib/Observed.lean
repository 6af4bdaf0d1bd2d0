import Mathlib.Data.Nat.Notation
import Pi5Drivers.Lib.Effect

/-! Programs that note what they do. Such a program has a state of its own, asks a
world for what it does not decide, and leaves a trace of events. An observer reads the
trace alone and says which events are in order; an assertion relates what the program
and the observer know. -/

namespace Pi5Drivers

open Effect

/-- Who reads a trace, and what it takes for an event to be in order. -/
structure Observer (η ω : Type) where
  init : ω
  saw : ω → η → ω
  Allows : ω → η → Prop

namespace Observer

variable {η ω : Type} (O : Observer η ω)

/-- What the observer knows after a trace, the newest event first. -/
def watch : List η → ω
  | [] => O.init
  | e :: older => O.saw (watch older) e

/-- Every event of the trace was in order. -/
def InOrder (trace : List η) : Prop := Admissible (fun older e => O.Allows (O.watch older) e) trace

theorem InOrder.allows {O : Observer η ω} {newer older : List η} {e : η} (h : O.InOrder (newer ++ e :: older)) :
    O.Allows (O.watch older) e :=
  Admissible.allows h

end Observer

/-- The state of a program, the trace so far, and the world it asks by the count of
what it has asked before. -/
structure Recorded (ρ σ η : Type) where
  world : ρ
  clock : ℕ
  state : σ
  trace : List η

namespace Recorded

variable {ρ σ η ω ε α β : Type}

/-- A value that the world decides. -/
def ask (f : ρ → ℕ → α) : Effect (Recorded ρ σ η) ε α := fun c =>
  (.ok (f c.world c.clock), { c with clock := c.clock + 1 })

def look : Effect (Recorded ρ σ η) ε σ := fun c => (.ok c.state, c)

def change (f : σ → σ) : Effect (Recorded ρ σ η) ε Unit := modify fun c => { c with state := f c.state }

def record (e : η) : Effect (Recorded ρ σ η) ε Unit := modify fun c => { c with trace := e :: c.trace }

/-- The trace is in order, and the state and the observer are in a relation. -/
def Assert (O : Observer η ω) (A : σ → ω → Prop) (c : Recorded ρ σ η) : Prop :=
  O.InOrder c.trace ∧ A c.state (O.watch c.trace)

section Rules

variable {O : Observer η ω} {A B : σ → ω → Prop} {Q : α → Recorded ρ σ η → Prop} {E : ε → Recorded ρ σ η → Prop}

theorem Assert.mono {c : Recorded ρ σ η} (h : Assert O A c) (imp : ∀ s w, A s w → B s w) : Assert O B c :=
  ⟨h.1, imp _ _ h.2⟩

theorem ask_rule (f : ρ → ℕ → α) : Triple (Assert O A) (ask f : Effect (Recorded ρ σ η) ε α) (fun _ => Assert O A) E :=
  fun _ hc => hc

theorem look_rule {f : σ → Effect (Recorded ρ σ η) ε α} (h : ∀ s, Triple (Assert O fun s' w => s' = s ∧ A s' w) (f s) Q E) :
    Triple (Assert O A) (look >>= f) Q E :=
  fun c hc => h c.state ⟨hc.1, rfl, hc.2⟩

/-- What follows is told the state it starts in. -/
theorem look_bind {P : Recorded ρ σ η → Prop} {f : σ → Effect (Recorded ρ σ η) ε α}
    (h : ∀ c, P c → Triple (· = c) (f c.state) Q E) : Triple P (look >>= f) Q E :=
  fun c hc => h c hc rfl

/-- The state is looked at, but nothing is concluded from it. -/
theorem glance_rule {f : σ → Effect (Recorded ρ σ η) ε α} (h : ∀ s, Triple (Assert O A) (f s) Q E) :
    Triple (Assert O A) (look >>= f) Q E :=
  fun c hc => h c.state hc

theorem change_rule (f : σ → σ) (h : ∀ s w, A s w → B (f s) w) :
    Triple (Assert O A) (change f : Effect (Recorded ρ σ η) ε Unit) (fun _ => Assert O B) E :=
  Triple.modify fun _ hc => ⟨hc.1, h _ _ hc.2⟩

theorem record_rule (e : η) (allowed : ∀ s w, A s w → O.Allows w e) (h : ∀ s w, A s w → B s (O.saw w e)) :
    Triple (Assert O A) (record e : Effect (Recorded ρ σ η) ε Unit) (fun _ => Assert O B) E :=
  Triple.modify fun _ hc => ⟨⟨allowed _ _ hc.2, hc.1⟩, h _ _ hc.2⟩

theorem pure_rule {a : α} : Triple (Assert O A) (pure a : Effect (Recorded ρ σ η) ε α) (fun _ => Assert O A) E :=
  Triple.pure fun _ hc => hc

theorem stop_rule {e : ε} {F : ε → σ → ω → Prop} (h : ∀ s w, A s w → F e s w) :
    Triple (Assert O A) (stop e : Effect (Recorded ρ σ η) ε α) Q fun e => Assert O (F e) :=
  Triple.stop fun _ hc => hc.mono h

theorem require_rule {p : Prop} [Decidable p] {e : ε} {F : ε → σ → ω → Prop} (h : ¬p → ∀ s w, A s w → F e s w) :
    Triple (Assert O A) (require p e : Effect (Recorded ρ σ η) ε Unit) (fun _ => Assert O fun s w => p ∧ A s w)
      fun e => Assert O (F e) :=
  Triple.require (fun _ hc yes => ⟨hc.1, yes, hc.2⟩) fun _ hc no => hc.mono (h no)

/-- A part of the assertion that mentions neither the state nor the observer. -/
theorem assume_rule {p : Prop} {x : Effect (Recorded ρ σ η) ε α} (h : p → Triple (Assert O A) x Q E) :
    Triple (Assert O fun s w => p ∧ A s w) x Q E :=
  fun _ ⟨trace, hp, ha⟩ => h hp ⟨trace, ha⟩

theorem of_exists {ι : Sort*} {x : Effect (Recorded ρ σ η) ε α} {A : ι → σ → ω → Prop}
    (h : ∀ i, Triple (Assert O (A i)) x Q E) : Triple (Assert O fun s w => ∃ i, A i s w) x Q E :=
  fun _ ⟨trace, i, ha⟩ => h i ⟨trace, ha⟩

/-- Two ways to start. -/
theorem either_rule {x : Effect (Recorded ρ σ η) ε α} (ha : Triple (Assert O A) x Q E) (hb : Triple (Assert O B) x Q E) :
    Triple (Assert O fun s w => A s w ∨ B s w) x Q E :=
  fun _ ⟨trace, h⟩ => h.elim (fun h => ha ⟨trace, h⟩) fun h => hb ⟨trace, h⟩

end Rules

end Recorded

end Pi5Drivers
