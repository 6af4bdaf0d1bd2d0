import Mathlib.Data.List.GetD
import Pi5Drivers.Spb.Request

/-! The copies between the scattered buffers of a request and the buffer of the driver. A part
of a buffer may fail to be mapped, and a buffer may be shorter than its transfer; both end
the copy. What a copy that ends well has done does not depend on how the buffer is cut. -/

namespace Pi5Drivers.Spb

/-- Bytes are put into a buffer, from a position on. -/
def blit (position : ℕ) (bytes : List UInt8) (buffer : ℕ → UInt8) : ℕ → UInt8 := fun i =>
  if position ≤ i ∧ i < position + bytes.length then bytes.getD (i - position) 0 else buffer i

/-- Copies the parts of a scattered buffer to a position until nothing is left to copy. Whether its
`k`-th part can be mapped is up to the system. -/
def gather (maps : ℕ → Bool) : (left position k : ℕ) → Mdl → (ℕ → UInt8) → Except Status (ℕ → UInt8)
  | left, _, _, [], buffer => if left = 0 then .ok buffer else .error .invalidBufferSize
  | left, position, k, mdl :: next, buffer =>
    if left = 0 then .ok buffer
    else if maps k = false then .error .insufficientResources
    else
      let bytes := mdl.take left
      gather maps (left - bytes.length) (position + bytes.length) (k + 1) next (blit position bytes buffer)

/-- The bytes of a buffer from a position on. -/
def bytesAt (buffer : ℕ → UInt8) (position n : ℕ) : List UInt8 := (List.range' position n).map buffer

/-- Copies from a position into the parts of a scattered buffer. -/
def scatter (maps : ℕ → Bool) (buffer : ℕ → UInt8) : (left position k : ℕ) → Mdl → Except Status Mdl
  | left, _, _, [] => if left = 0 then .ok [] else .error .invalidBufferSize
  | left, position, k, mdl :: next =>
    if left = 0 then .ok (mdl :: next)
    else if maps k = false then .error .insufficientResources
    else
      let n := min mdl.length left
      (scatter maps buffer (left - n) (position + n) (k + 1) next).map
        ((bytesAt buffer position n ++ mdl.drop n) :: ·)

/-- `CopyBuffers` towards the device. -/
def copyIn (maps : ℕ → ℕ → Bool) : (i : ℕ) → List (Part × Mdl) → (ℕ → UInt8) → Except Status (ℕ → UInt8)
  | _, [], buffer => .ok buffer
  | i, (t, mdl) :: rest, buffer =>
    if t.read then copyIn maps (i + 1) rest buffer
    else (gather (maps i) t.length t.offset 0 mdl buffer).bind (copyIn maps (i + 1) rest)

/-- `CopyBuffers` from the device. -/
def copyOut (maps : ℕ → ℕ → Bool) (buffer : ℕ → UInt8) : (i : ℕ) → List (Part × Mdl) → Except Status (List (Part × Mdl))
  | _, [] => .ok []
  | i, (t, mdl) :: rest =>
    if t.read then (scatter (maps i) buffer t.length t.offset 0 mdl).bind fun mdl =>
      (copyOut maps buffer (i + 1) rest).map ((t, mdl) :: ·)
    else (copyOut maps buffer (i + 1) rest).map ((t, mdl) :: ·)

/-! ### What the copies do -/

section Copies

variable {maps : ℕ → Bool} {left position k : ℕ} {mdl mdl' : Mdl} {buffer buffer' : ℕ → UInt8} {bytes bytes' : List UInt8}

theorem blit_nil (position : ℕ) (buffer : ℕ → UInt8) : blit position [] buffer = buffer := by
  funext i
  exact if_neg fun h => Nat.not_lt.mpr h.1 h.2

theorem blit_append (position : ℕ) (bytes bytes' : List UInt8) (buffer : ℕ → UInt8) :
    blit (position + bytes.length) bytes' (blit position bytes buffer) = blit position (bytes ++ bytes') buffer := by
  funext i
  simp only [blit, List.length_append]
  by_cases before : i < position
  · rw [if_neg (by omega), if_neg (by omega), if_neg (by omega)]
  by_cases first : i < position + bytes.length
  · rw [if_neg (by omega), if_pos (by omega), if_pos (by omega), List.getD_append _ _ _ _ (by omega)]
  by_cases second : i < position + bytes.length + bytes'.length
  · rw [if_pos (by omega), if_pos (by omega), List.getD_append_right _ _ _ _ (by omega)]
    congr 1
    omega
  · rw [if_neg (by omega), if_neg (by omega), if_neg (by omega)]

/-- A copy that ends well has put the first bytes of the whole buffer in their place. -/
theorem gather_ok (h : gather maps left position k mdl buffer = .ok buffer') :
    left ≤ mdl.flatten.length ∧ buffer' = blit position (mdl.flatten.take left) buffer := by
  induction mdl generalizing left position k buffer with
  | nil =>
    unfold gather at h
    split at h
    · cases h
      subst left
      exact ⟨Nat.zero_le _, (blit_nil _ _).symm⟩
    · cases h
  | cons part next ih =>
    unfold gather at h
    split at h
    · cases h
      subst left
      exact ⟨Nat.zero_le _, (blit_nil _ _).symm⟩
    · split at h
      · cases h
      · obtain ⟨enough, rfl⟩ := ih h
        rw [List.length_take] at enough
        rw [List.flatten_cons, List.length_append, blit_append, List.take_append]
        refine ⟨by omega, ?_⟩
        congr 3
        rw [List.length_take]
        omega

theorem length_bytesAt (buffer : ℕ → UInt8) (position n : ℕ) : (bytesAt buffer position n).length = n := by simp [bytesAt]

theorem bytesAt_append (buffer : ℕ → UInt8) (position n m : ℕ) :
    bytesAt buffer position n ++ bytesAt buffer (position + n) m = bytesAt buffer position (n + m) := by
  rw [bytesAt, bytesAt, bytesAt, ← List.map_append, List.range'_append_1]

/-- A copy that ends well has put the bytes in front of what lies behind them, and left the cuts. -/
theorem scatter_ok (h : scatter maps buffer left position k mdl = .ok mdl') :
    left ≤ mdl.flatten.length ∧ mdl'.flatten = bytesAt buffer position left ++ mdl.flatten.drop left ∧
      mdl'.map List.length = mdl.map List.length := by
  induction mdl generalizing left position k mdl' with
  | nil =>
    unfold scatter at h
    split at h
    · cases h
      subst left
      exact ⟨Nat.zero_le _, rfl, rfl⟩
    · cases h
  | cons part next ih =>
    unfold scatter at h
    split at h
    · cases h
      subst left
      exact ⟨Nat.zero_le _, rfl, rfl⟩
    · split at h
      · cases h
      · dsimp only at h
        cases rest : scatter maps buffer (left - min part.length left) (position + min part.length left) (k + 1) next with
        | error e =>
          rw [rest] at h
          cases h
        | ok mdl'' =>
          rw [rest] at h
          cases h
          obtain ⟨enough, bytes, cuts⟩ := ih rest
          rw [List.flatten_cons, List.flatten_cons, List.length_append, bytes]
          refine ⟨by omega, ?_, ?_⟩
          · rcases Nat.le_total left part.length with all | some
            · rw [Nat.min_eq_right all, Nat.sub_self, List.drop_append_of_le_length all, List.append_assoc]
              rfl
            · rw [Nat.min_eq_left some, List.drop_length, List.append_nil, ← List.append_assoc, bytesAt_append,
                Nat.add_sub_cancel' some, List.drop_append, List.drop_eq_nil_of_le some, List.nil_append]
          · rw [List.map_cons, List.map_cons, cuts, List.length_append, length_bytesAt, List.length_drop]
            congr 1
            omega

end Copies

/-- A part has a position. -/
def Part.Covers (p : Part) (i : ℕ) : Prop := p.offset ≤ i ∧ i < p.offset + p.length

/-- No two transfers to the device have a position in common. -/
def Apart (l : List (Part × Mdl)) : Prop :=
  l.Pairwise fun x y => x.1.read = false → y.1.read = false → ∀ i, ¬(x.1.Covers i ∧ y.1.Covers i)

section Transfers

variable {maps : ℕ → ℕ → Bool} {i : ℕ} {l l' : List (Part × Mdl)} {buffer buffer' : ℕ → UInt8}

/-- Only the positions of transfers to the device are written. -/
theorem copyIn_other (h : copyIn maps i l buffer = .ok buffer') {p : ℕ} (none : ∀ x ∈ l, x.1.read = false → ¬x.1.Covers p) :
    buffer' p = buffer p := by
  induction l generalizing i buffer with
  | nil =>
    cases h
    rfl
  | cons x l ih =>
    obtain ⟨t, mdl⟩ := x
    have later := fun y hy => none y (List.mem_cons_of_mem _ hy)
    unfold copyIn at h
    split at h
    · exact ih h later
    · rename_i write
      cases first : gather (maps i) t.length t.offset 0 mdl buffer with
      | error e =>
        rw [first] at h
        cases h
      | ok middle =>
        rw [first] at h
        obtain ⟨enough, rfl⟩ := gather_ok first
        refine (ih h later).trans (if_neg fun covered => ?_)
        refine none _ List.mem_cons_self (Bool.eq_false_iff.mpr write) ⟨covered.1, ?_⟩
        rw [List.length_take, Nat.min_eq_left enough] at covered
        exact covered.2

/-- The positions of a transfer to the device get the bytes of its buffer. -/
theorem copyIn_write (h : copyIn maps i l buffer = .ok buffer') (apart : Apart l) {x : Part × Mdl} (hx : x ∈ l)
    (write : x.1.read = false) {k : ℕ} (hk : k < x.1.length) :
    k < x.2.flatten.length ∧ buffer' (x.1.offset + k) = x.2.flatten.getD k 0 := by
  induction l generalizing i buffer with
  | nil => cases hx
  | cons y l ih =>
    obtain ⟨t, mdl⟩ := y
    obtain ⟨head, tail⟩ := List.pairwise_cons.mp apart
    unfold copyIn at h
    split at h
    · rename_i read
      rcases List.mem_cons.mp hx with rfl | hx
      · rw [write] at read
        exact absurd read Bool.false_ne_true
      · exact ih h tail hx
    · cases first : gather (maps i) t.length t.offset 0 mdl buffer with
      | error e =>
        rw [first] at h
        cases h
      | ok middle =>
        rw [first] at h
        rcases List.mem_cons.mp hx with rfl | hx
        · obtain ⟨enough, rfl⟩ := gather_ok first
          have later : buffer' (t.offset + k) = _ := copyIn_other h fun y hy write' covered =>
            head y hy write write' _ ⟨⟨Nat.le_add_right _ _, Nat.add_lt_add_left hk _⟩, covered⟩
          have hk : k < t.length := hk
          refine ⟨Nat.lt_of_lt_of_le hk enough, later.trans ?_⟩
          rw [blit, if_pos (by rw [List.length_take]; omega), Nat.add_sub_cancel_left, List.getD_eq_getElem?_getD,
            List.getElem?_take_of_lt hk, ← List.getD_eq_getElem?_getD]
        · exact ih h tail hx

/-- What became of a transfer when the bytes of the device were copied to its buffer. -/
structure Delivered (buffer : ℕ → UInt8) (x x' : Part × Mdl) : Prop where
  part : x'.1 = x.1
  bytes : x.1.read = true → x'.2.flatten = bytesAt buffer x.1.offset x.1.length ++ x.2.flatten.drop x.1.length
  cuts : x'.2.map List.length = x.2.map List.length
  kept : x.1.read = false → x'.2 = x.2

theorem Delivered.congr {buffer buffer' : ℕ → UInt8} {x x' : Part × Mdl} {n : ℕ} (h : Delivered buffer x x')
    (same : ∀ i < n, buffer i = buffer' i) (inside : x.1.offset + x.1.length ≤ n) : Delivered buffer' x x' := by
  refine ⟨h.part, fun read => (h.bytes read).trans ?_, h.cuts, h.kept⟩
  congr 1
  refine List.map_congr_left fun i hi => same i ?_
  have := List.mem_range'_1.mp hi
  omega

theorem copyOut_ok (h : copyOut maps buffer i l = .ok l') : List.Forall₂ (Delivered buffer) l l' := by
  induction l generalizing i l' with
  | nil =>
    cases h
    exact .nil
  | cons x l ih =>
    obtain ⟨t, mdl⟩ := x
    unfold copyOut at h
    cases rest : copyOut maps buffer (i + 1) l with
    | error e =>
      rw [rest] at h
      split at h
      · cases first : scatter (maps i) buffer t.length t.offset 0 mdl <;> rw [first] at h <;> cases h
      · cases h
    | ok l'' =>
      rw [rest] at h
      split at h
      · rename_i read
        cases first : scatter (maps i) buffer t.length t.offset 0 mdl with
        | error e =>
          rw [first] at h
          cases h
        | ok mdl' =>
          rw [first] at h
          cases h
          obtain ⟨-, bytes, cuts⟩ := scatter_ok first
          exact .cons ⟨rfl, fun _ => bytes, cuts, fun write => absurd (write.symm.trans read) Bool.false_ne_true⟩ (ih rest)
      · rename_i write
        cases h
        exact .cons ⟨rfl, fun read => absurd read write, rfl, fun _ => rfl⟩ (ih rest)

end Transfers

end Pi5Drivers.Spb
