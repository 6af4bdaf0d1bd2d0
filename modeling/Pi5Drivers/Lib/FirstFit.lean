import Pi5Drivers.Lib.Common
import Mathlib.Algebra.Order.Monoid.Unbundled.Basic
import Mathlib.Data.List.Basic
import Mathlib.Order.Interval.Set.Disjoint

/-! First fit. A block of a given size is to be placed where it meets none of the ranges that are taken. The
search goes to the right past all ranges it meets at once; it never passes a place that is free, and each
range holds it up at most once. -/

namespace Pi5Drivers.FirstFit

variable {α : Type*} [LinearOrder α] [Add α]

/-- The block at `a` and the range share a place. -/
def Meets (size a : α) (p : α × α) : Prop := max a p.1 < min (a + size) p.2

instance (size a : α) (p : α × α) : Decidable (Meets size a p) := inferInstanceAs (Decidable (_ < _))

theorem meets_iff {size a : α} {p : α × α} : Meets size a p ↔ ¬Disjoint (Set.Ico a (a + size)) (Set.Ico p.1 p.2) := by
  rw [Set.Ico_disjoint_Ico, not_le, Meets]

/-- The block at `a` meets no range. -/
def Free (taken : List (α × α)) (size a : α) : Prop := ∀ p ∈ taken, ¬Meets size a p

/-- The end of the last range that the block at `a` meets, or `next` if that is further. -/
def skip (size a : α) : List (α × α) → (next : α) → α
  | [], next => next
  | p :: taken, next => skip size a taken (if Meets size a p ∧ next < p.2 then p.2 else next)

/-- At most `steps` places from `a` to `last` are tried. -/
def search (taken : List (α × α)) (size last : α) : (steps : ℕ) → (a : α) → Option α
  | 0, _ => none
  | steps + 1, a =>
    if a ≤ last then
      if skip size a taken a = a then some a else search taken size last steps (skip size a taken a)
    else none

section Skip

variable {taken : List (α × α)} {size a b g next : α}

theorem le_skip (taken : List (α × α)) (size a next : α) : next ≤ skip size a taken next := by
  induction taken generalizing next with
  | nil => exact le_rfl
  | cons p taken ih =>
    refine le_trans ?_ (ih _)
    split
    · rename_i h
      exact h.2.le
    · exact le_rfl

/-- The search goes on behind every range it has met. -/
theorem end_le_skip {p : α × α} (mem : p ∈ taken) (meets : Meets size a p) (next : α) : p.2 ≤ skip size a taken next := by
  induction taken generalizing next with
  | nil => exact nomatch mem
  | cons q taken ih =>
    rcases List.mem_cons.mp mem with rfl | mem
    · unfold skip
      refine le_trans ?_ (le_skip taken size a _)
      split
      · exact le_rfl
      · rename_i h
        exact not_lt.mp fun lt => h ⟨meets, lt⟩
    · exact ih mem _

/-- It goes on where it was or at the end of a range it has met. -/
theorem skip_cases (taken : List (α × α)) (size a next : α) :
    skip size a taken next = next ∨ ∃ p ∈ taken, Meets size a p ∧ next < p.2 ∧ skip size a taken next = p.2 := by
  induction taken generalizing next with
  | nil => exact .inl rfl
  | cons q taken ih =>
    unfold skip
    split
    · rename_i h
      rcases ih q.2 with same | ⟨p, mem, meets, lt, eq⟩
      · exact .inr ⟨q, List.mem_cons_self, h.1, h.2, same⟩
      · exact .inr ⟨p, List.mem_cons_of_mem _ mem, meets, h.2.trans lt, eq⟩
    · rcases ih next with same | ⟨p, mem, meets, lt, eq⟩
      · exact .inl same
      · exact .inr ⟨p, List.mem_cons_of_mem _ mem, meets, lt, eq⟩

theorem Meets.lt_end {p : α × α} (h : Meets size a p) : a < p.2 :=
  (le_max_left _ _).trans_lt (h.trans_le (min_le_right _ _))

/-- A place is tried for good only if it is free. -/
theorem skip_eq_self : skip size a taken a = a ↔ Free taken size a := by
  constructor
  · intro same p mem meets
    exact (meets.lt_end.trans_le (same ▸ end_le_skip mem meets a)).false
  · intro free
    rcases skip_cases taken size a a with same | ⟨p, mem, meets, -⟩
    · exact same
    · exact absurd meets (free p mem)

variable [AddRightMono α]

/-- No free place is passed. -/
theorem skip_le (free : Free taken size g) (room : g < g + size) (le : a ≤ g) : skip size a taken a ≤ g := by
  rcases skip_cases taken size a a with same | ⟨p, mem, meets, -, eq⟩
  · exact same.trans_le le
  · rw [eq]
    by_contra lt
    rw [not_le] at lt
    have before : p.1 < g + size :=
      (le_max_right a p.1).trans_lt (meets.trans_le ((min_le_left _ _).trans (add_le_add_left le size)))
    have proper : p.1 < p.2 := (le_max_right a p.1).trans_lt (meets.trans_le (min_le_right _ _))
    exact free p mem (max_lt (lt_min room lt) (lt_min before proper))

end Skip

section Search

variable {taken : List (α × α)} {size last a b g : α} {steps : ℕ}

/-- What is found is free, is not behind `last`, and is the first place tried or the end of a range. -/
theorem search_some (h : search taken size last steps a = some b) :
    Free taken size b ∧ b ≤ last ∧ (b = a ∨ ∃ p ∈ taken, b = p.2) := by
  induction steps generalizing a with
  | zero => exact nomatch h
  | succ steps ih =>
    unfold search at h
    split at h
    · rename_i le
      split at h
      · rename_i same
        obtain rfl := Option.some.inj h
        exact ⟨skip_eq_self.mp same, le, .inl rfl⟩
      · obtain ⟨free, le, start | part⟩ := ih h
        · rcases skip_cases taken size a a with same | ⟨p, mem, -, -, eq⟩
          · exact absurd same (by assumption)
          · exact ⟨free, le, .inr ⟨p, mem, start.trans eq⟩⟩
        · exact ⟨free, le, .inr part⟩
    · exact nomatch h

/-- The ranges that may still hold the search up at `a`. -/
def ahead (taken : List (α × α)) (a : α) : List (α × α) := taken.filter (a < ·.2)

omit [Add α] in
theorem length_ahead_le (taken : List (α × α)) (a : α) : (ahead taken a).length ≤ taken.length :=
  List.length_filter_le _ _

/-- Where the search is held up, one range less is ahead. -/
theorem length_ahead_skip (h : skip size a taken a ≠ a) :
    (ahead taken (skip size a taken a)).length < (ahead taken a).length := by
  obtain ⟨p, mem, meets, -, eq⟩ := (skip_cases taken size a a).resolve_left h
  have sub : (ahead taken (skip size a taken a)).Sublist ((ahead taken a).filter (skip size a taken a < ·.2)) := by
    rw [ahead, ahead, List.filter_filter]
    refine List.monotone_filter_right taken fun q later => ?_
    rw [decide_eq_true_eq] at later
    rw [Bool.and_eq_true, decide_eq_true_eq, decide_eq_true_eq]
    exact ⟨later, (le_skip taken size a a).trans_lt later⟩
  refine sub.length_le.trans_lt (List.length_filter_lt_length_iff_exists.mpr ⟨p, ?_, ?_⟩)
  · exact List.mem_filter.mpr ⟨mem, decide_eq_true meets.lt_end⟩
  · rw [eq, decide_eq_true_eq]
    exact lt_irrefl _

/-- **The steps suffice.** One step more than there are ranges finds a free place wherever there is one. -/
theorem search_isSome [AddRightMono α] (free : Free taken size g) (room : g < g + size) (le : a ≤ g) (inside : g ≤ last)
    (enough : (ahead taken a).length < steps) : (search taken size last steps a).isSome := by
  induction steps generalizing a with
  | zero => exact absurd enough (Nat.not_lt_zero _)
  | succ steps ih =>
    rw [search, if_pos (le.trans inside)]
    by_cases same : skip size a taken a = a
    · rw [if_pos same]
      rfl
    · rw [if_neg same]
      exact ih (skip_le free room le) ((length_ahead_skip same).trans_le (Nat.le_of_lt_succ enough))

end Search

end Pi5Drivers.FirstFit
