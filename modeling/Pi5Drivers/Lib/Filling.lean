import Pi5Drivers.Lib.Effect
import Mathlib.Data.Set.Lattice
import Mathlib.Logic.Function.Basic

/-! Programs that fill a memory. Such a program puts values into cells, each of them a value that its cell may have. A
cell that has such a value keeps one then, whatever is written later, and a loop fills what its rounds fill. The program
may stop for the reasons it is allowed to. -/

namespace Pi5Drivers

variable {ι V ε α β : Type}

/-- The cells `S` have values they may have, and so do all cells that had one before. -/
def Filled (P : ι → V → Prop) (S : Set ι) (m t : ι → V) : Prop := (∀ i ∈ S, P i (t i)) ∧ ∀ i, P i (m i) → P i (t i)

/-- Returns what `Q` says with the cells `S` filled, or stops with what `E` allows. -/
def Fills (E : ε → Prop) (P : ι → V → Prop) (S : Set ι) (x : Effect (ι → V) ε α) (Q : α → Prop) : Prop :=
  ∀ m, Effect.Triple (· = m) x (fun a t => Q a ∧ Filled P S m t) fun e _ => E e

namespace Effect

/-- A loop over the numbers below a bound, with a value that it carries along. -/
def forUpTo {σ : Type} (f : ℕ → β → Effect σ ε β) : ℕ → β → Effect σ ε β
  | 0, b => pure b
  | n + 1, b => do
    let b ← forUpTo f n b
    f n b

/-- What each round keeps, the loop keeps. -/
theorem Triple.forUpTo {σ : Type} {f : ℕ → β → Effect σ ε β} {I : ℕ → σ → Prop} {E : ε → σ → Prop} {n : ℕ}
    (h : ∀ k < n, ∀ b, Triple (I k) (f k b) (fun _ => I (k + 1)) E) (b : β) :
    Triple (I 0) (Effect.forUpTo f n b) (fun _ => I n) E := by
  induction n with
  | zero => exact Triple.pure fun _ => id
  | succ n ih => exact (ih fun k small => h k (Nat.lt_succ_of_lt small)).bind fun b => h n (Nat.lt_succ_self n) b

end Effect

namespace Fills

open Effect

variable {E : ε → Prop} {P : ι → V → Prop} {S T : Set ι} {x y : Effect (ι → V) ε α} {Q Q' : α → Prop}

theorem filled_refl (m : ι → V) : Filled P ∅ m m := ⟨fun _ no => absurd no (Set.notMem_empty _), fun _ => id⟩

theorem pure {a : α} (h : Q a) : Fills E P ∅ (Pure.pure a) Q := by
  refine fun m => Triple.pure fun t same => ⟨h, ?_⟩
  rw [same]
  exact filled_refl m

theorem stop {e : ε} (h : E e) : Fills E P S (Effect.stop e : Effect (ι → V) ε α) Q := fun _ => Triple.stop fun _ _ => h

theorem require {c : Prop} [Decidable c] {e : ε} (h : ¬c → E e) : Fills E P ∅ (Effect.require c e) fun _ => c :=
  fun _ => Triple.require (fun t same yes => ⟨yes, same ▸ filled_refl t⟩) fun _ _ => h

theorem bind {f : α → Effect (ι → V) ε β} {R : β → Prop} (hx : Fills E P S x Q) (hf : ∀ a, Q a → Fills E P T (f a) R) :
    Fills E P (S ∪ T) (x >>= f) R := by
  intro m
  refine (hx m).bind fun a t ⟨ha, own, other⟩ => ?_
  have later := hf a ha t rfl
  rcases run : (f a).run t with ⟨e | b, u⟩ <;> rw [run] at later
  · exact later
  obtain ⟨hb, ownLater, otherLater⟩ := later
  refine ⟨hb, fun i mem => ?_, fun i had => otherLater i (other i had)⟩
  rcases mem with inS | inT
  · exact otherLater i (own i inS)
  · exact ownLater i inT

theorem subset (h : Fills E P S x Q) (sub : T ⊆ S) (imp : ∀ a, Q a → Q' a) : Fills E P T x Q' :=
  fun m => (h m).mono (fun _ => id) (fun a _ both => ⟨imp a both.1, fun i mem => both.2.1 i (sub mem), both.2.2⟩) fun _ _ => id

/-- What comes first fills nothing that counts. -/
theorem after {f : α → Effect (ι → V) ε β} {R : β → Prop} (hx : Fills E P S x Q) (hf : ∀ a, Q a → Fills E P T (f a) R) :
    Fills E P T (x >>= f) R := (hx.bind hf).subset Set.subset_union_right fun _ => id

theorem ite {c : Prop} [Decidable c] (hx : c → Fills E P S x Q) (hy : ¬c → Fills E P S y Q) :
    Fills E P S (if c then x else y) Q := by
  split
  · exact hx ‹_›
  · exact hy ‹_›

theorem ofExcept {r : Except ε α} (yes : ∀ a, r = .ok a → Q a) (no : ∀ e, r = .error e → E e) :
    Fills E P ∅ (Effect.ofExcept r) Q := by
  cases r with
  | ok a => exact pure (yes a rfl)
  | error e => exact stop (no e rfl)

theorem put [DecidableEq ι] {i : ι} {v : V} (h : P i v) :
    Fills E P {i} (Effect.modify fun m => Function.update m i v) fun _ => True := by
  refine fun m => Triple.modify fun _ same => ⟨trivial, fun j here => ?_, fun j had => ?_⟩
  · obtain rfl := here
    rwa [Function.update_self]
  · rw [same, Function.update_apply]
    split
    · rename_i here
      exact here ▸ h
    · exact had

/-- The rounds of a loop fill what the loop fills. -/
theorem forUpTo {f : ℕ → β → Effect (ι → V) ε β} {J : ℕ → β → Prop} {S : ℕ → Set ι} {n : ℕ}
    (h : ∀ k < n, ∀ b, J k b → Fills E P (S k) (f k b) (J (k + 1))) {b : β} (first : J 0 b) :
    Fills E P {i | ∃ k < n, i ∈ S k} (Effect.forUpTo f n b) (J n) := by
  induction n with
  | zero =>
    refine (pure first).subset (fun i mem => ?_) fun _ => id
    obtain ⟨k, none, -⟩ := mem
    exact absurd none (Nat.not_lt_zero k)
  | succ n ih =>
    refine ((ih fun k small => h k (Nat.lt_succ_of_lt small)).bind (h n (Nat.lt_succ_self n))).subset (fun i mem => ?_) fun _ => id
    obtain ⟨k, small, mem⟩ := mem
    rcases Nat.lt_succ_iff_lt_or_eq.mp small with earlier | rfl
    · exact .inl ⟨k, earlier, mem⟩
    · exact .inr mem

-- the rule above stands for the loop: nothing unrolls its rounds
attribute [irreducible] Effect.forUpTo

end Fills

end Pi5Drivers
