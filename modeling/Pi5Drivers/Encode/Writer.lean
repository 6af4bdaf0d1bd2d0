import Pi5Drivers.Lib.Common
import Mathlib.Data.Nat.Notation
import Mathlib.Logic.Basic

/-! A writer of packets into a buffer of limited size. A write that does not fit, or a value that does not
fit its field, makes the writer invalid for good. The buffer goes on beyond its size here, so that a write
that leaves it would be seen. -/

namespace Pi5Drivers.Encode

/-! ### The writer -/

structure Writer where
  bytes : ℕ → BitVec 8
  capacity : ℕ
  used : ℕ
  packet : ℕ
  length : ℕ
  valid : Bool

/-- Zeros from a place on. -/
def cleared (b : ℕ → BitVec 8) (start n : ℕ) : ℕ → BitVec 8 := fun i => if start ≤ i ∧ i < start + n then 0 else b i

def setBit (b : ℕ → BitVec 8) (i j : ℕ) : ℕ → BitVec 8 := fun k => if k = i then b k ||| 1#8 <<< j else b k

def setByte (b : ℕ → BitVec 8) (i : ℕ) (v : BitVec 8) : ℕ → BitVec 8 := fun k => if k = i then v else b k

namespace Writer

def new (b : ℕ → BitVec 8) (capacity : ℕ) : Writer := ⟨b, capacity, 0, 0, 0, true⟩

def address (w : Writer) (base : BitVec 32) : BitVec 32 := base + BitVec.ofNat 32 w.used

/-- The alignment is a power of two. -/
def align (w : Writer) (alignment : ℕ) : Writer :=
  let next := (w.used + alignment - 1) / alignment * alignment
  if w.capacity < next then { w with valid := false }
  else { w with bytes := cleared w.bytes w.used (next - w.used), used := next }

def begin (w : Writer) (opcode count : ℕ) : Writer :=
  if w.valid = false ∨ count = 0 ∨ w.capacity - w.used < count then { w with valid := false }
  else
    { w with
      bytes := setByte (cleared w.bytes w.used count) w.used (BitVec.ofNat 8 opcode)
      used := w.used + count
      packet := w.used
      length := count }

def bits (w : Writer) (first count : ℕ) (value : BitVec 32) : Writer :=
  if w.valid = false ∨ count = 0 ∨ 32 < count ∨ w.length * 8 < first + count ∨ count < 32 ∧ 2 ^ count ≤ value.toNat then
    { w with valid := false }
  else
    { w with
      bytes := (List.range count).foldl (fun b bit =>
        if value.getLsbD bit then setBit b (w.packet + (first + bit) / 8) ((first + bit) % 8) else b) w.bytes }

end Writer

/-! ### What is written -/

structure Field where
  first : ℕ
  count : ℕ
  value : BitVec 32
deriving DecidableEq, Repr

/-- A packet with its fields, in the order in which they are written, or the room up to the next aligned place. -/
inductive Item
  | packet (opcode count : ℕ) (fields : List Field)
  | align (alignment : ℕ)
deriving DecidableEq, Repr

namespace Writer

def field (w : Writer) (f : Field) : Writer := w.bits f.first f.count f.value

def item (w : Writer) : Item → Writer
  | .packet opcode count fields => fields.foldl field (w.begin opcode count)
  | .align alignment => w.align alignment

def items (w : Writer) (l : List Item) : Writer := l.foldl item w

end Writer

/-! ### Bits of a buffer -/

section Bits

variable {b : ℕ → BitVec 8} {i j n p start : ℕ}

def bitAt (b : ℕ → BitVec 8) (p : ℕ) : Bool := (b (p / 8)).getLsbD (p % 8)

theorem bitAt_cleared (b : ℕ → BitVec 8) (start n p : ℕ) :
    bitAt (cleared b start n) p = if 8 * start ≤ p ∧ p < 8 * (start + n) then false else bitAt b p := by
  unfold bitAt cleared
  have inside : (start ≤ p / 8 ∧ p / 8 < start + n) ↔ 8 * start ≤ p ∧ p < 8 * (start + n) := by omega
  simp only [inside]
  split
  · exact BitVec.getLsbD_zero
  · rfl

theorem bitAt_setBit (b : ℕ → BitVec 8) (p : ℕ) (hj : j < 8) : bitAt (setBit b i j) p = (bitAt b p || decide (8 * i + j = p)) := by
  unfold bitAt setBit
  by_cases here : p / 8 = i
  · rw [here, if_pos rfl, BitVec.getLsbD_or, show 1#8 <<< j = BitVec.twoPow 8 j from rfl, BitVec.getLsbD_twoPow,
      decide_eq_true hj, Bool.true_and]
    congr 2
    exact propext (by omega)
  · have : 8 * i + j ≠ p := by omega
    rw [if_neg here, decide_eq_false this, Bool.or_false]

/-- The bits of a value, one after the other. -/
theorem bitAt_fold (b : ℕ → BitVec 8) (packet first n p : ℕ) (value : BitVec 32) :
    bitAt ((List.range n).foldl (fun b bit =>
        if value.getLsbD bit then setBit b (packet + (first + bit) / 8) ((first + bit) % 8) else b) b) p =
      (bitAt b p || (decide (8 * packet + first ≤ p ∧ p < 8 * packet + first + n) && value.getLsbD (p - (8 * packet + first)))) := by
  induction n with
  | zero =>
    rw [decide_eq_false (by omega), Bool.false_and, Bool.or_false]
    rfl
  | succ n ih =>
    rw [List.range_succ, List.foldl_append, List.foldl_cons, List.foldl_nil]
    have place : 8 * (packet + (first + n) / 8) + (first + n) % 8 = 8 * packet + first + n := by omega
    by_cases here : p = 8 * packet + first + n
    · rw [here] at ih ⊢
      rw [decide_eq_false (by omega), Bool.false_and, Bool.or_false] at ih
      rw [decide_eq_true (by omega), Bool.true_and, Nat.add_sub_cancel_left]
      by_cases one : value.getLsbD n = true
      · rw [if_pos one, bitAt_setBit _ _ (Nat.mod_lt _ (by decide)), place, decide_eq_true rfl, one, Bool.or_true, Bool.or_true]
      · rw [if_neg one, ih, Bool.eq_false_iff.mpr one, Bool.or_false]
    · have same : (8 * packet + first ≤ p ∧ p < 8 * packet + first + (n + 1)) ↔
          (8 * packet + first ≤ p ∧ p < 8 * packet + first + n) := by omega
      simp only [same]
      rw [← ih]
      split
      · rw [bitAt_setBit _ _ (Nat.mod_lt _ (by decide)), place, decide_eq_false (Ne.symm here), Bool.or_false]
      · rfl

/-- Outside of some bytes nothing changes. -/
theorem fold_outside (b : ℕ → BitVec 8) (packet first n i : ℕ) (value : BitVec 32)
    (outside : i < packet ∨ packet * 8 + first + n ≤ 8 * i) :
    (List.range n).foldl (fun b bit =>
        if value.getLsbD bit then setBit b (packet + (first + bit) / 8) ((first + bit) % 8) else b) b i = b i := by
  induction n with
  | zero => rfl
  | succ n ih =>
    rw [List.range_succ, List.foldl_append, List.foldl_cons, List.foldl_nil]
    split
    · rw [setBit, if_neg (by omega)]
      exact ih (by omega)
    · exact ih (by omega)

end Bits

/-! ### Where the items of a list are -/

namespace Item

/-- How many bytes an item takes from a place on. -/
def size (start : ℕ) : Item → ℕ
  | .packet _ count _ => count
  | .align alignment => (start + alignment - 1) / alignment * alignment - start

/-- The bits of an item. -/
def bit (p : ℕ) : Item → Bool
  | .packet opcode _ fields =>
    decide (p < 8) && (BitVec.ofNat 8 opcode).getLsbD p ||
      fields.any fun f => decide (f.first ≤ p ∧ p < f.first + f.count) && f.value.getLsbD (p - f.first)
  | .align _ => false

end Item

/-- The end of a list of items that begins at a place. -/
def ends : ℕ → List Item → ℕ
  | start, [] => start
  | start, i :: l => ends (start + i.size start) l

/-- The buffer holds the items one after the other, from a place on. -/
def Laid (b : ℕ → BitVec 8) : ℕ → List Item → Prop
  | _, [] => True
  | start, i :: l => (∀ p < 8 * i.size start, bitAt b (8 * start + p) = i.bit p) ∧ Laid b (start + i.size start) l

/-- A value is small enough for its field, and the field lies in its packet. -/
def Field.Fits (f : Field) (length : ℕ) : Prop :=
  f.first + f.count ≤ 8 * length ∧ 0 < f.count ∧ f.count ≤ 32 ∧ f.value.toNat < 2 ^ f.count

def Item.Fits : Item → Prop
  | .packet _ count fields => 0 < count ∧ ∀ f ∈ fields, f.Fits count
  | .align _ => True

section Places

variable {b b' : ℕ → BitVec 8} {start : ℕ} {i : Item} {l m : List Item}

theorem ends_append (start : ℕ) (l m : List Item) : ends start (l ++ m) = ends (ends start l) m := by
  induction l generalizing start with
  | nil => rfl
  | cons i l ih => exact ih (start + i.size start)

theorem le_ends (start : ℕ) (l : List Item) : start ≤ ends start l := by
  induction l generalizing start with
  | nil => exact Nat.le_refl start
  | cons i l ih => exact Nat.le_trans (Nat.le_add_right _ _) (ih (start + i.size start))

theorem laid_append (start : ℕ) (l m : List Item) : Laid b start (l ++ m) ↔ Laid b start l ∧ Laid b (ends start l) m := by
  induction l generalizing start with
  | nil => exact (and_iff_right trivial).symm
  | cons i l ih => exact (and_congr_right fun _ => ih (start + i.size start)).trans and_assoc.symm

/-- Only the bytes of the items matter. -/
theorem Laid.congr (h : Laid b start l) (same : ∀ i, start ≤ i → i < ends start l → b' i = b i) : Laid b' start l := by
  induction l generalizing start with
  | nil => trivial
  | cons item l ih =>
    have le := le_ends (start + item.size start) l
    refine ⟨fun p hp => ?_, ih h.2 fun i lo hi => same i (by omega) hi⟩
    rw [← h.1 p hp, bitAt, bitAt, same ((8 * start + p) / 8) (by omega) (by change _ < ends (start + item.size start) l; omega)]

end Places

/-! ### What a writer does -/

/-- A writer went on to another one: it wrote nothing outside of the bytes that it used, it stayed in the buffer, and
it did not become valid again. -/
structure Grows (w w' : Writer) : Prop where
  capacity : w'.capacity = w.capacity
  used : w.used ≤ w'.used
  inside : w'.used ≤ w.capacity
  kept : ∀ i, i < w.used ∨ w.capacity ≤ i → w'.bytes i = w.bytes i
  valid : w'.valid = true → w.valid = true

namespace Grows

variable {w w' w'' : Writer}

theorem refl (h : w.used ≤ w.capacity) : Grows w w := ⟨rfl, Nat.le_refl _, h, fun _ _ => rfl, id⟩

theorem trans (h : Grows w w') (h' : Grows w' w'') : Grows w w'' := by
  have := h.used
  refine ⟨h'.capacity.trans h.capacity, Nat.le_trans h.used h'.used, h.capacity ▸ h'.inside, fun i outside => ?_,
    fun valid => h.valid (h'.valid valid)⟩
  rw [h'.kept i (by rw [h.capacity]; omega), h.kept i outside]

end Grows

section Writers

variable {w : Writer} {f : Field} {fields : List Field} {opcode count : ℕ}

theorem align_grows (h : w.used ≤ w.capacity) (alignment : ℕ) (pos : 0 < alignment) : Grows w (w.align alignment) := by
  have up : w.used ≤ (w.used + alignment - 1) / alignment * alignment := by
    have := Nat.lt_div_mul_add (a := w.used + alignment - 1) pos
    omega
  unfold Writer.align
  simp only
  split
  · exact ⟨rfl, Nat.le_refl _, h, fun _ _ => rfl, fun no => nomatch no⟩
  · refine ⟨rfl, up, by simp only; omega, fun i outside => ?_, id⟩
    exact if_neg (by omega)

/-- The fields of a packet: what is written lies in the packet. -/
structure Filled (w w' : Writer) : Prop where
  capacity : w'.capacity = w.capacity
  used : w'.used = w.used
  packet : w'.packet = w.packet
  length : w'.length = w.length
  kept : ∀ i, i < w.packet ∨ w.packet + w.length ≤ i → w'.bytes i = w.bytes i
  valid : w'.valid = true → w.valid = true

theorem field_filled (w : Writer) (f : Field) : Filled w (w.field f) := by
  unfold Writer.field Writer.bits
  split
  · exact ⟨rfl, rfl, rfl, rfl, fun _ _ => rfl, fun no => nomatch no⟩
  · refine ⟨rfl, rfl, rfl, rfl, fun i outside => ?_, id⟩
    exact fold_outside w.bytes w.packet f.first f.count i f.value (by omega)

theorem fields_filled (w : Writer) (fields : List Field) : Filled w (fields.foldl Writer.field w) := by
  induction fields generalizing w with
  | nil => exact ⟨rfl, rfl, rfl, rfl, fun _ _ => rfl, id⟩
  | cons f l ih =>
    have first := field_filled w f
    have rest := ih (w.field f)
    refine ⟨rest.capacity.trans first.capacity, rest.used.trans first.used, rest.packet.trans first.packet,
      rest.length.trans first.length, fun i outside => ?_, fun valid => first.valid (rest.valid valid)⟩
    rw [List.foldl_cons, rest.kept i (by rw [first.packet, first.length]; exact outside), first.kept i outside]

/-- A field of a writer that stays valid is there, and fits. -/
theorem field_bits (h : (w.field f).valid = true) (p : ℕ) :
    f.Fits w.length ∧ bitAt (w.field f).bytes p = (bitAt w.bytes p ||
      (decide (8 * w.packet + f.first ≤ p ∧ p < 8 * w.packet + f.first + f.count) &&
        f.value.getLsbD (p - (8 * w.packet + f.first)))) := by
  unfold Writer.field Writer.bits at h ⊢
  split at h
  · exact nomatch h
  · rename_i fits
    rw [if_neg fits]
    refine ⟨⟨by omega, by omega, by omega, ?_⟩, bitAt_fold w.bytes w.packet f.first f.count p f.value⟩
    have := f.value.isLt
    by_cases whole : f.count = 32
    · rw [whole]
      exact this
    · omega

theorem fields_bits (h : (fields.foldl Writer.field w).valid = true) :
    (∀ f ∈ fields, f.Fits w.length) ∧ ∀ p, bitAt (fields.foldl Writer.field w).bytes (8 * w.packet + p) =
      (bitAt w.bytes (8 * w.packet + p) ||
        fields.any fun f => decide (f.first ≤ p ∧ p < f.first + f.count) && f.value.getLsbD (p - f.first)) := by
  induction fields generalizing w with
  | nil => exact ⟨fun f no => absurd no List.not_mem_nil, fun p => (Bool.or_false _).symm⟩
  | cons f l ih =>
    have filled := field_filled w f
    have valid := (fields_filled (w.field f) l).valid h
    obtain ⟨fits, bits⟩ := ih h
    refine ⟨fun g mem => ?_, fun p => ?_⟩
    · rcases List.mem_cons.mp mem with rfl | mem
      · exact (field_bits valid 0).1
      · exact filled.length ▸ fits g mem
    · have there := (field_bits valid (8 * w.packet + p)).2
      have place : (8 * w.packet + f.first ≤ 8 * w.packet + p ∧ 8 * w.packet + p < 8 * w.packet + f.first + f.count) ↔
          f.first ≤ p ∧ p < f.first + f.count := by omega
      have index : 8 * w.packet + p - (8 * w.packet + f.first) = p - f.first := by omega
      have rest := bits p
      rw [filled.packet, there, index] at rest
      rw [List.foldl_cons, rest, List.any_cons, Bool.or_assoc]
      simp only [place]

theorem begin_grows (h : w.used ≤ w.capacity) (opcode count : ℕ) : Grows w (w.begin opcode count) := by
  unfold Writer.begin
  split
  · exact ⟨rfl, Nat.le_refl _, h, fun _ _ => rfl, fun no => nomatch no⟩
  · refine ⟨rfl, by simp only; omega, by simp only; omega, fun i outside => ?_, id⟩
    simp only
    rw [setByte, if_neg (by omega)]
    exact if_neg (by omega)

/-- A writer that is not valid writes no fields. -/
theorem fields_invalid (h : w.valid = false) : (fields.foldl Writer.field w).bytes = w.bytes := by
  induction fields generalizing w with
  | nil => rfl
  | cons f l ih =>
    have step : w.field f = { w with valid := false } := if_pos (.inl h)
    rw [List.foldl_cons, step]
    exact ih rfl

/-- A packet that was begun, with the bytes of it. -/
theorem begin_bits (h : (w.begin opcode count).valid = true) :
    0 < count ∧ (w.begin opcode count).packet = w.used ∧ (w.begin opcode count).length = count ∧
      (w.begin opcode count).used = w.used + count ∧
      ∀ p < 8 * count, bitAt (w.begin opcode count).bytes (8 * w.used + p) = (decide (p < 8) && (BitVec.ofNat 8 opcode).getLsbD p) := by
  unfold Writer.begin at h ⊢
  split at h
  · exact nomatch h
  · rename_i room
    rw [if_neg room]
    refine ⟨by omega, rfl, rfl, rfl, fun p hp => ?_⟩
    unfold bitAt setByte
    simp only
    by_cases first : p < 8
    · rw [show (8 * w.used + p) / 8 = w.used by omega, if_pos rfl, decide_eq_true first, Bool.true_and,
        show (8 * w.used + p) % 8 = p by omega]
    · rw [if_neg (by omega), decide_eq_false first, Bool.false_and, cleared, if_pos (by omega)]
      exact BitVec.getLsbD_zero

/-- Every alignment is to some place. -/
def Item.Proper : Item → Prop
  | .packet _ _ _ => True
  | .align alignment => 0 < alignment

theorem item_grows (h : w.used ≤ w.capacity) {i : Item} (proper : i.Proper) : Grows w (w.item i) := by
  cases i with
  | align alignment => exact align_grows h alignment proper
  | packet opcode count fields =>
    have begun := begin_grows h opcode count
    have filled := fields_filled (w.begin opcode count) fields
    refine ⟨filled.capacity.trans begun.capacity, filled.used.symm ▸ begun.used, filled.used.symm ▸ begun.inside,
      fun i outside => ?_, fun valid => begun.valid (filled.valid valid)⟩
    rw [← begun.kept i outside]
    rcases valid : (w.begin opcode count).valid with _ | _
    · exact congrFun (fields_invalid valid) i
    · obtain ⟨-, packet, length, used, -⟩ := begin_bits valid
      have inside := begun.inside
      exact filled.kept i (by rw [packet, length]; omega)

theorem items_grows (h : w.used ≤ w.capacity) {l : List Item} (proper : ∀ i ∈ l, i.Proper) : Grows w (w.items l) := by
  induction l generalizing w with
  | nil => exact Grows.refl h
  | cons i l ih =>
    have first := item_grows h (proper i List.mem_cons_self)
    exact first.trans (ih (first.capacity ▸ first.inside) fun j mem => proper j (List.mem_cons_of_mem i mem))

/-- An item of a writer that stays valid is there. -/
theorem item_laid {i : Item} (h : (w.item i).valid = true) (proper : i.Proper) :
    i.Fits ∧ (w.item i).used = w.used + i.size w.used ∧
      ∀ p < 8 * i.size w.used, bitAt (w.item i).bytes (8 * w.used + p) = i.bit p := by
  cases i with
  | align alignment =>
    refine ⟨trivial, ?_⟩
    have up : w.used ≤ (w.used + alignment - 1) / alignment * alignment := by
      have : 0 < alignment := proper
      have := Nat.lt_div_mul_add (a := w.used + alignment - 1) this
      omega
    change (w.align alignment).valid = true at h
    change (w.align alignment).used = _ ∧ ∀ p < _, bitAt (w.align alignment).bytes _ = _
    unfold Writer.align at h ⊢
    simp only at h ⊢
    split at h
    · exact nomatch h
    · rename_i room
      rw [if_neg room]
      refine ⟨by simp only [Item.size]; omega, fun p hp => ?_⟩
      simp only [Item.size] at hp
      rw [bitAt_cleared, if_pos (by omega)]
      rfl
  | packet opcode count fields =>
    have filled := fields_filled (w.begin opcode count) fields
    obtain ⟨pos, packet, length, used, bits⟩ := begin_bits (filled.valid h)
    obtain ⟨fits, there⟩ := fields_bits h
    refine ⟨⟨pos, fun f mem => length ▸ fits f mem⟩, filled.used.trans used, fun p hp => ?_⟩
    have := there p
    rw [packet, bits p hp] at this
    exact this

/-- The items of a writer that stays valid are in the buffer one after the other. -/
theorem items_laid {l : List Item} (inside : w.used ≤ w.capacity) (h : (w.items l).valid = true) (proper : ∀ i ∈ l, i.Proper) :
    (∀ i ∈ l, i.Fits) ∧ (w.items l).used = ends w.used l ∧ Laid (w.items l).bytes w.used l := by
  induction l generalizing w with
  | nil => exact ⟨fun i no => absurd no List.not_mem_nil, rfl, trivial⟩
  | cons i l ih =>
    have here := proper i List.mem_cons_self
    have rest := fun j mem => proper j (List.mem_cons_of_mem i mem)
    have first := item_grows inside here
    have later := items_grows (first.capacity ▸ first.inside) rest
    obtain ⟨fits, used, bits⟩ := item_laid (later.valid h) here
    obtain ⟨fits', used', laid⟩ := ih (first.capacity ▸ first.inside) h rest
    rw [used] at used' laid
    refine ⟨fun j mem => ?_, used', fun p hp => ?_, laid⟩
    · rcases List.mem_cons.mp mem with rfl | mem
      · exact fits
      · exact fits' j mem
    · have same : (w.items (i :: l)).bytes ((8 * w.used + p) / 8) = (w.item i).bytes ((8 * w.used + p) / 8) :=
        later.kept _ (.inl (by rw [used]; omega))
      rw [← bits p hp, bitAt, bitAt, same]

end Writers

end Pi5Drivers.Encode
