import Pi5Drivers.Lib.Common
import Mathlib.Data.Set.Insert

/-! Commands with footprints. A state is made of cells; a command that writes only
some cells, with values that depend only on some cells, has these as its
footprint. Two commands whose footprints do not meet commute, a command moves
in front of a block of commands it commutes with, and doing two commands at once
is the same as doing one after the other when the second looks at nothing the
first writes. -/

namespace Pi5Drivers

/-- The cells of a state, which determine it. -/
structure Cells (ι σ : Type) where
  Value : ι → Type
  get : (i : ι) → σ → Value i
  ext : ∀ s s', (∀ i, get i s = get i s') → s = s'

namespace Cells

variable {ι σ : Type} (C : Cells ι σ)

/-- `f` writes only the cells of `writes`, with values determined by those of `reads`. -/
structure Within (reads writes : Set ι) (f : σ → σ) : Prop where
  frame : ∀ s, ∀ i ∉ writes, C.get i (f s) = C.get i s
  determined : ∀ s s', (∀ i ∈ reads, C.get i s = C.get i s') → ∀ i ∈ writes, C.get i (f s) = C.get i (f s')

/-- Neither command writes what the other touches. -/
structure Apart (r w r' w' : Set ι) : Prop where
  reads : ∀ i ∈ w, i ∉ r'
  writes : ∀ i ∈ w, i ∉ w'
  reads' : ∀ i ∈ w', i ∉ r

variable {C} {r w r' w' : Set ι} {f g : σ → σ}

theorem Apart.symm (h : Apart r w r' w') : Apart r' w' r w :=
  ⟨h.reads', fun i hi hi' => h.writes i hi' hi, h.reads⟩

/-- What `f` writes is still there after a command that leaves `f` alone. -/
theorem Within.get_after (hf : C.Within r w f) (hg : C.Within r' w' g) (h : Apart r w r' w') (s : σ) :
    ∀ i ∈ w, C.get i (g (f s)) = C.get i (f (g s)) := by
  intro i hi
  rw [hg.frame _ i (h.writes i hi)]
  exact (hf.determined (g s) s (fun j hj => hg.frame s j fun hj' => h.reads' j hj' hj) i hi).symm

/-- Commands that are apart commute. -/
theorem Within.comm (hf : C.Within r w f) (hg : C.Within r' w' g) (h : Apart r w r' w') (s : σ) :
    g (f s) = f (g s) := by
  refine C.ext _ _ fun i => ?_
  by_cases hi : i ∈ w
  · exact hf.get_after hg h s i hi
  · by_cases hi' : i ∈ w'
    · exact (hg.get_after hf h.symm s i hi').symm
    · rw [hg.frame _ i hi', hf.frame _ i hi, hf.frame _ i hi, hg.frame _ i hi']

/-- Both commands at once, each from the state before. -/
structure Both (C : Cells ι σ) (w w' : Set ι) (f g both : σ → σ) : Prop where
  first : ∀ s, ∀ i ∈ w, C.get i (both s) = C.get i (f s)
  second : ∀ s, ∀ i ∈ w', C.get i (both s) = C.get i (g s)
  frame : ∀ s, ∀ i ∉ w, i ∉ w' → C.get i (both s) = C.get i s

/-- The first command may well overwrite what the second has read, so doing both at
once is doing them in order as long as the second looks at nothing the first writes. -/
theorem Both.eq_comp {both : σ → σ} (hb : Both C w w' f g both) (hf : C.Within r w f) (hg : C.Within r' w' g)
    (hreads : ∀ i ∈ w, i ∉ r') (hwrites : ∀ i ∈ w, i ∉ w') (s : σ) : both s = g (f s) := by
  refine C.ext _ _ fun i => ?_
  by_cases hi : i ∈ w
  · rw [hb.first s i hi, hg.frame _ i (hwrites i hi)]
  · by_cases hi' : i ∈ w'
    · rw [hb.second s i hi']
      exact hg.determined s (f s) (fun j hj => (hf.frame s j fun hj' => hreads j hj' hj).symm) i hi'
    · rw [hb.frame s i hi hi', hg.frame _ i hi', hf.frame _ i hi]

end Cells

/-- A command moves in front of a block of commands it commutes with, where `P` holds throughout. -/
theorem foldl_move {σ κ : Type} (step : σ → κ → σ) (x : κ) (ks : List κ) (P : σ → Prop)
    (hP : ∀ s k, k ∈ ks → P s → P (step s k))
    (h : ∀ s, P s → ∀ k ∈ ks, step (step s k) x = step (step s x) k) (s : σ) (hs : P s)
    (hx : P (step s x)) : step (ks.foldl step s) x = ks.foldl step (step s x) := by
  induction ks generalizing s with
  | nil => rfl
  | cons k ks ih =>
    rw [List.foldl_cons, List.foldl_cons, ← h s hs k (by simp)]
    refine ih (fun s k hk => hP s k (by simp [hk])) (fun s hs k hk => h s hs k (by simp [hk])) _
      (hP s k (by simp) hs) ?_
    rw [h s hs k (by simp)]
    exact hP _ k (by simp) hx

end Pi5Drivers
