import Pi5Drivers.Lib.Common
import Mathlib.Data.Nat.Notation

/-! Streams that are cut into items. What an item is can be seen from the front of the
stream, and more input does not change it. Then it does not matter in which pieces the
input comes. -/

namespace Pi5Drivers

/-- What the front of a stream is: too short to tell, wrong, or an item with the rest behind it. -/
inductive Front (α β ε : Type)
  | more
  | bad (e : ε)
  | item (b : β) (rest : List α)
deriving DecidableEq

/-- A way to cut streams into items. -/
structure Framing (α β ε : Type) where
  next : List α → Front α β ε
  nothing : next [] = .more
  shorter {s rest : List α} {b : β} : next s = .item b rest → rest.length < s.length
  item_append {s rest : List α} {b : β} (t : List α) : next s = .item b rest → next (s ++ t) = .item b (rest ++ t)
  bad_append {s : List α} {e : ε} (t : List α) : next s = .bad e → next (s ++ t) = .bad e

namespace Framing

variable {α β ε : Type} (F : Framing α β ε)

/-- The items of a stream up to the first mistake, and what is left of it if there is none. -/
def parse (s : List α) : List β × Except ε (List α) :=
  match _h : F.next s with
  | .more => ([], .ok s)
  | .bad e => ([], .error e)
  | .item b rest => (b :: (parse rest).1, (parse rest).2)
termination_by s.length
decreasing_by exact F.shorter _h

variable {F} {s rest : List α} {b : β} {e : ε}

theorem parse_more (h : F.next s = .more) : F.parse s = ([], .ok s) := by
  rw [parse]
  split <;> simp_all

theorem parse_bad (h : F.next s = .bad e) : F.parse s = ([], .error e) := by
  rw [parse]
  split <;> simp_all

theorem parse_item (h : F.next s = .item b rest) : F.parse s = (b :: (F.parse rest).1, (F.parse rest).2) := by
  rw [parse]
  split <;> simp_all

theorem parse_nil : F.parse [] = ([], .ok []) := parse_more F.nothing

/-- What is left is too short to tell. -/
theorem next_of_parse {left : List α} (h : (F.parse s).2 = .ok left) : F.next left = .more := by
  induction len : s.length using Nat.strongRecOn generalizing s with
  | _ n ih =>
    rcases front : F.next s with _ | e | ⟨b, rest⟩
    · rw [parse_more front] at h
      obtain rfl : s = left := Except.ok.inj h
      exact front
    · rw [parse_bad front] at h
      cases h
    · rw [parse_item front] at h
      exact ih rest.length (len ▸ F.shorter front) h rfl

/-- A stream that goes on after what is left. -/
theorem parse_append_ok {left : List α} (t : List α) (h : (F.parse s).2 = .ok left) :
    F.parse (s ++ t) = ((F.parse s).1 ++ (F.parse (left ++ t)).1, (F.parse (left ++ t)).2) := by
  induction len : s.length using Nat.strongRecOn generalizing s with
  | _ n ih =>
    rcases front : F.next s with _ | e | ⟨b, rest⟩
    · rw [parse_more front] at h ⊢
      obtain rfl : s = left := Except.ok.inj h
      rfl
    · rw [parse_bad front] at h
      cases h
    · rw [parse_item front] at h ⊢
      rw [parse_item (F.item_append t front), ih rest.length (len ▸ F.shorter front) h rfl]
      rfl

/-- Nothing is read after a mistake. -/
theorem parse_append_error (t : List α) (h : (F.parse s).2 = .error e) :
    F.parse (s ++ t) = ((F.parse s).1, .error e) := by
  induction len : s.length using Nat.strongRecOn generalizing s with
  | _ n ih =>
    rcases front : F.next s with _ | e' | ⟨b, rest⟩
    · rw [parse_more front] at h
      cases h
    · rw [parse_bad front] at h ⊢
      obtain rfl : e' = e := Except.error.inj h
      exact parse_bad (F.bad_append t front)
    · rw [parse_item front] at h ⊢
      rw [parse_item (F.item_append t front), ih rest.length (len ▸ F.shorter front) h rfl]

end Framing

end Pi5Drivers
