import Pi5Drivers.Lib.Common
import Mathlib.Data.List.Nodup

/-! A state that remembers every state it went through. Some property may hold all the way from one
point to a later one; it is steady if it does so whenever it holds at both ends. -/

namespace Pi5Drivers

structure Journal (σ : Type) where
  now : σ
  /-- What every step has led to, the last step first. -/
  past : List σ

namespace Journal

variable {σ ι : Type} {P Q : σ → Prop} {i j k : Journal σ} {f : σ → σ}

def write (f : σ → σ) (j : Journal σ) : Journal σ := ⟨f j.now, f j.now :: j.past⟩

@[simp] theorem write_now (f : σ → σ) (j : Journal σ) : (j.write f).now = f j.now := rfl

/-- Every state that was gone through since has the property, the last one in any case. -/
def Passed (P : σ → Prop) (j k : Journal σ) : Prop := P k.now ∧ ∃ l, k.past = l ++ j.past ∧ ∀ s ∈ l, P s

theorem Passed.refl (h : P j.now) : Passed P j j := ⟨h, [], rfl, nofun⟩

theorem Passed.write (h : P (f j.now)) : Passed P j (j.write f) :=
  ⟨h, [f j.now], rfl, fun _ mem => List.mem_singleton.mp mem ▸ h⟩

theorem Passed.trans (h : Passed P i j) (h' : Passed P j k) : Passed P i k := by
  obtain ⟨-, l, past, all⟩ := h
  obtain ⟨now, l', past', all'⟩ := h'
  refine ⟨now, l' ++ l, ?_, fun s mem => (List.mem_append.mp mem).elim (all' s) (all s)⟩
  rw [past', past, List.append_assoc]

theorem Passed.mono (h : Passed P j k) (imp : ∀ s, P s → Q s) : Passed Q j k :=
  ⟨imp _ h.1, h.2.imp fun _ hl => ⟨hl.1, fun s mem => imp s (hl.2 s mem)⟩⟩

/-- Nothing changes whether the property holds. -/
def Keeps (Q : σ → Prop) (j k : Journal σ) : Prop := Passed (fun s => Q s ↔ Q j.now) j k

theorem Keeps.refl : Keeps Q j j := Passed.refl Iff.rfl

theorem Keeps.trans (h : Keeps Q i j) (h' : Keeps Q j k) : Keeps Q i k :=
  Passed.trans h (h'.mono fun _ same => same.trans h.1)

/-- Where the property holds at both ends it holds all the way. -/
def Steady (Q : σ → Prop) (j k : Journal σ) : Prop := Q j.now → Q k.now → Passed Q j k

theorem Keeps.steady (h : Keeps Q j k) : Steady Q j k := fun start _ => Passed.mono h fun _ same => same.mpr start

theorem Keeps.trans_steady (h : Keeps Q i j) (h' : Steady Q j k) : Steady Q i k := fun start finish =>
  (Passed.mono h fun _ same => same.mpr start).trans (h' (h.1.mpr start) finish)

theorem Steady.trans_keeps (h : Steady Q i j) (h' : Keeps Q j k) : Steady Q i k := fun start finish =>
  (h start (h'.1.mp finish)).trans (Passed.mono h' fun _ same => same.mpr (h'.1.mp finish))

/-! ### Loops -/

section Loops

variable {g : ι → Journal σ → Journal σ} {l : List ι}

/-- One round after the other. -/
def rounds (g : ι → Journal σ → Journal σ) (l : List ι) (j : Journal σ) : Journal σ := l.foldl (fun j x => g x j) j

theorem Keeps.rounds (h : ∀ x ∈ l, ∀ j, Keeps Q j (g x j)) (j : Journal σ) : Keeps Q j (j.rounds g l) := by
  induction l generalizing j with
  | nil => exact .refl
  | cons x l ih => exact (h x List.mem_cons_self j).trans (ih (fun y hy => h y (List.mem_cons_of_mem x hy)) (g x j))

theorem Passed.rounds {R : σ → σ → Prop} (refl : ∀ s, R s s) (trans : ∀ {s t u}, R s t → R t u → R s u)
    (h : ∀ x ∈ l, ∀ j, Passed (R j.now) j (g x j)) (j : Journal σ) : Passed (R j.now) j (j.rounds g l) := by
  induction l generalizing j with
  | nil => exact .refl (refl j.now)
  | cons x l ih =>
    have first := h x List.mem_cons_self j
    exact first.trans ((ih (fun y hy => h y (List.mem_cons_of_mem x hy)) (g x j)).mono fun _ later => trans first.1 later)

theorem holds_rounds {q : σ → Prop} (kept : ∀ x ∈ l, ∀ j, q j.now → q (g x j).now) {j : Journal σ} (h : q j.now) :
    q (j.rounds g l).now := by
  induction l generalizing j with
  | nil => exact h
  | cons x l ih => exact ih (fun y hy => kept y (List.mem_cons_of_mem x hy)) (kept x List.mem_cons_self j h)

/-- One of the rounds establishes what all of them keep. -/
theorem establish_rounds {q : σ → Prop} {y : ι} (mem : y ∈ l) (own : ∀ j, q (g y j).now)
    (kept : ∀ x ∈ l, ∀ j, q j.now → q (g x j).now) (j : Journal σ) : q (j.rounds g l).now := by
  induction l generalizing j with
  | nil => cases mem
  | cons x l ih =>
    have rest (z : ι) (hz : z ∈ l) := kept z (List.mem_cons_of_mem x hz)
    rcases List.mem_cons.mp mem with here | later
    · exact holds_rounds rest (here ▸ own j)
    · exact ih later rest (g x j)

/-- Only one of the rounds has something to do with the property. -/
theorem Steady.rounds {Q : ι → σ → Prop} {y : ι} (other : ∀ x ∈ l, x ≠ y → ∀ j, Keeps (Q y) j (g x j))
    (own : y ∈ l → ∀ j, Steady (Q y) j (g y j)) (once : l.Nodup) (j : Journal σ) : Steady (Q y) j (j.rounds g l) := by
  induction l generalizing j with
  | nil => exact Keeps.refl.steady
  | cons x l ih =>
    obtain ⟨fresh, once⟩ := List.nodup_cons.mp once
    have rest (z : ι) (hz : z ∈ l) := other z (List.mem_cons_of_mem x hz)
    by_cases here : x = y
    · rw [← here] at rest ⊢
      have apart (z : ι) (hz : z ∈ l) : z ≠ x := fun same => fresh (same ▸ hz)
      exact (here ▸ own (here ▸ List.mem_cons_self) j).trans_keeps (.rounds (fun z hz => rest z hz (apart z hz)) _)
    · exact (other x List.mem_cons_self here j).trans_steady (ih rest (fun hy => own (List.mem_cons_of_mem x hy)) once _)

end Loops

end Journal

end Pi5Drivers
