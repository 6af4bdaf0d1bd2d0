import Pi5Drivers.Lib.Window

/-! A ring buffer of a given size. Values are put at its head and taken at its tail, and
a count tells a full ring from an empty one. Read from the tail on, the ring is a queue. -/

namespace Pi5Drivers

/-- The cells of a ring, where the next value is put, where the next is taken, and how
many wait. -/
structure Ring (α : Type) where
  cells : ℕ → α
  head : ℕ
  tail : ℕ
  count : ℕ

namespace Ring

variable {α : Type} {size : ℕ} {r : Ring α}

/-- Puts a value at the head. -/
def push (size : ℕ) (r : Ring α) (a : α) : Ring α :=
  { r with
    cells := fun i => if i = r.head then a else r.cells i
    head := (r.head + 1) % size
    count := r.count + 1 }

/-- The value that is taken next. -/
def first (r : Ring α) : α := r.cells r.tail

/-- Takes the value at the tail. -/
def pop (size : ℕ) (r : Ring α) : Ring α := { r with tail := (r.tail + 1) % size, count := r.count - 1 }

/-- Forgets what waits. -/
def clear (r : Ring α) : Ring α := { r with head := 0, tail := 0, count := 0 }

/-- What waits, the oldest first. -/
def contents (size : ℕ) (r : Ring α) : List α := (window size r.tail r.count).map r.cells

/-- The head is as far behind the tail as the count says, and the count is not too large. -/
structure Fits (size : ℕ) (r : Ring α) : Prop where
  head : r.head = (r.tail + r.count) % size
  tail : r.tail < size
  count : r.count ≤ size

@[simp] theorem length_contents (size : ℕ) (r : Ring α) : (r.contents size).length = r.count := by simp [contents]

@[simp] theorem contents_clear (size : ℕ) (r : Ring α) : r.clear.contents size = [] := rfl

theorem Fits.clear (pos : 0 < size) (r : Ring α) : r.clear.Fits size := ⟨(Nat.zero_mod size).symm, pos, size.zero_le⟩

theorem Fits.push (h : r.Fits size) (room : r.count < size) (a : α) : (r.push size a).Fits size where
  head := by
    rw [Ring.push, h.head, Nat.mod_add_mod]
    rfl
  tail := h.tail
  count := room

/-- A value that is put into a ring with room waits behind the others. -/
theorem contents_push (h : r.Fits size) (room : r.count < size) (a : α) :
    (r.push size a).contents size = r.contents size ++ [a] := by
  have apart : r.head ∉ window size r.tail r.count := by
    intro taken
    have next : r.head ∈ window size (r.tail + r.count) 1 := by
      rw [window_succ, ← h.head]
      exact List.mem_cons_self
    exact disjoint_window room taken next
  change (window size r.tail (r.count + 1)).map _ = _
  rw [window_succ_end, List.map_append, contents, ← h.head]
  congr 1
  · refine List.map_congr_left fun i hi => if_neg ?_
    rintro rfl
    exact apart hi
  · exact congrArg (· :: []) (if_pos rfl)

theorem Fits.pop (h : r.Fits size) (some : r.count ≠ 0) : (r.pop size).Fits size where
  head := by
    change r.head = ((r.tail + 1) % size + (r.count - 1)) % size
    rw [h.head, Nat.mod_add_mod]
    congr 1
    omega
  tail := Nat.mod_lt _ (Nat.zero_lt_of_lt h.tail)
  count := (Nat.sub_le _ _).trans h.count

/-- The oldest value is taken first. -/
theorem contents_pop (h : r.Fits size) (some : r.count ≠ 0) :
    r.contents size = r.first :: (r.pop size).contents size := by
  obtain ⟨n, eq⟩ := Nat.exists_eq_succ_of_ne_zero some
  change _ = r.cells r.tail :: (window size ((r.tail + 1) % size) (r.count - 1)).map r.cells
  rw [contents, eq, window_succ, window_mod, List.map_cons, Nat.mod_eq_of_lt h.tail]
  rfl

end Ring

end Pi5Drivers
