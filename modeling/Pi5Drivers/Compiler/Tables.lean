import Pi5Drivers.Compiler.Masks
import Pi5Drivers.Gpu.Allocation
import Pi5Drivers.Lib.Nearest

/-! What indexed reads obtain. The driver appends the table of a constant buffer to a program (`native/umd.cpp`,
`AppendProgram`) and uploads typed buffers with one element more (`kmd/gpu.cpp`, `Bindings`; `native/texture.cpp`,
`BufferDescriptors`). With what the compiler built, every read is that of the element at its index, and zero if the
index is outside. -/

namespace Pi5Drivers.Compiler

open Abi Compile Tracked Single

/-! ### Constant tables -/

/-- The table of a constant buffer, of `words` words with the first `declared` ones of the buffer (`AppendProgram`).
A buffer has 65536 bytes at most. -/
def appendConstants (constants : ConstantBuffers) (slot declared words : ℕ) : Option (List UWord) :=
  if h : slot < 14 ∧ words ≤ 4096 ∧ declared ≤ words ∧ ∀ k, (constants k).length * 4 ≤ 65536 then
    let copied := (constants ⟨slot, h.1⟩).take declared
    some (copied ++ List.replicate (words - copied.length) 0)
  else none

/-- The texel of a row that is nearest to a coordinate; outside of the row it is zero. -/
def nearestTexel (row : List UWord) (u : UWord) : UWord :=
  if 0 ≤ Single.value u then row.getD ⌊Single.value u * row.length⌋.toNat 0 else 0

/-- Arithmetic of single precision, rounded to nearest. -/
structure Rounds (float : Op → UWord → UWord → UWord) : Prop where
  utof : ∀ x y, Nearest x.toNat (float .utof x y)
  mul : ∀ x y, Number x → Number y → |Single.value x * Single.value y| ≤ 2 ^ 127 → Nearest (Single.value x * Single.value y) (float .mul x y)
  add : ∀ x y, Number x → Number y → |Single.value x + Single.value y| ≤ 2 ^ 127 → Nearest (Single.value x + Single.value y) (float .add x y)

section Tables

variable {j size x : ℕ} {c : Fin 4}

/-- A table has the size of a power of two, and it is not twice as large as needed. -/
theorem doubled_spec (limit rounds words : ℕ) (pos : 0 < words) (enough : limit ≤ words + rounds) :
    ∃ j, doubled limit rounds words = words * 2 ^ j ∧ limit ≤ words * 2 ^ j ∧ (j = 0 ∨ words * 2 ^ j < 2 * limit) := by
  induction rounds generalizing words with
  | zero => exact ⟨0, by rw [doubled, pow_zero, mul_one], by omega, .inl rfl⟩
  | succ rounds ih =>
    rw [doubled]
    split
    · rename_i small
      obtain ⟨j, eq, le, most⟩ := ih (words * 2) (by omega) (by omega)
      have shifted : words * 2 * 2 ^ j = words * 2 ^ (j + 1) := by rw [pow_succ, mul_assoc, mul_comm 2]
      rw [shifted] at eq le most
      refine ⟨j + 1, eq, le, .inr ?_⟩
      obtain rfl | most := most
      · omega
      · exact most
    · exact ⟨0, by rw [pow_zero, mul_one], by omega, .inl rfl⟩

theorem tableWords_spec (most : size ≤ 1024) : ∃ j ≤ 10, tableWords size = 4 * 2 ^ j ∧ size ≤ 2 ^ j := by
  obtain ⟨j, eq, le, near⟩ := doubled_spec (size * 4) (size * 4) 4 (by decide) (by omega)
  refine ⟨j, ?_, eq, by omega⟩
  by_contra large
  have more : 2 ^ 11 ≤ 2 ^ j := Nat.pow_le_pow_right (by decide) (by omega)
  obtain rfl | near := near
  · omega
  · omega

theorem log2_table (j : ℕ) : Nat.log2 (4 * 2 ^ j) = j + 2 := by
  rw [show 4 * 2 ^ j = 2 ^ (j + 2) by rw [pow_add]; ring, Nat.log2_two_pow]

theorem value_tableScale (small : j ≤ 10) : Single.value (tableScale (4 * 2 ^ j)) = 1 / 2 ^ j ∧ Number (tableScale (4 * 2 ^ j)) := by
  rw [tableScale, log2_table, ← Nat.add_zero ((129 - (j + 2)) * 2 ^ 23)]
  refine ⟨?_, number_pattern (by omega) (by decide)⟩
  rw [value_pattern (by omega) (by omega) (by decide), show ((129 - (j + 2) : ℕ) : ℤ) - 150 = -23 - j by omega, zpow_sub₀ (by norm_num), zpow_natCast]
  norm_num
  ring

/-- The middle of a texel of the table. -/
theorem value_tableBias (small : j ≤ 10) (c : Fin 4) :
    Single.value (tableBias (4 * 2 ^ j) c) = (2 * c + 1) / (8 * 2 ^ j) ∧ Number (tableBias (4 * 2 ^ j) c) := by
  rw [tableBias, log2_table]
  have bias (e f : ℕ) (he : 12 < e) (he' : e ≤ 128) (hf : f < 2 ^ 23)
      (exact_ : ((2 ^ 23 + f : ℕ) : ℚ) * 2 ^ (e - 152 : ℤ) = (2 * c + 1) / 8) :
      Single.value (BitVec.ofNat 32 ((e - (j + 2)) * 2 ^ 23 + f)) = (2 * c + 1) / (8 * 2 ^ j) ∧
        Number (BitVec.ofNat 32 ((e - (j + 2)) * 2 ^ 23 + f)) := by
    refine ⟨?_, number_pattern (by omega) hf⟩
    rw [value_pattern (by omega) (by omega) hf, show ((e - (j + 2) : ℕ) : ℤ) - 150 = e - 152 - j by omega, zpow_sub₀ (by norm_num),
      zpow_natCast, ← mul_div_assoc, exact_, div_div]
  fin_cases c
  · exact bias 126 0 (by decide) (by decide) (by decide) (by norm_num)
  · exact bias 127 0x400000 (by decide) (by decide) (by decide) (by norm_num)
  · exact bias 128 0x200000 (by decide) (by decide) (by decide) (by norm_num)
  · exact bias 128 0x600000 (by decide) (by decide) (by decide) (by norm_num)

section Coordinates

variable {inputs : Inputs} {v : UWord}

/-- The products and sums of a coordinate are in the range of the numbers. -/
theorem le_range {r : ℚ} (nonneg : 0 ≤ r) (le : r ≤ 2 ^ 40) : |r| ≤ 2 ^ 127 := by
  rw [abs_of_nonneg nonneg]
  exact le.trans (by norm_num)

/-- An index inside of the table is converted and scaled without rounding, and so is the sum with the bias. -/
theorem coordinate_inside (h : Rounds inputs.float) (small : j ≤ 10) (inside : v.toNat < 2 ^ j) :
    Number (tableCoordinate inputs (4 * 2 ^ j) c v) ∧
      Single.value (tableCoordinate inputs (4 * 2 ^ j) c v) = (8 * v.toNat + 2 * c + 1) / (8 * 2 ^ j) := by
  have most : 2 ^ j ≤ 2 ^ 10 := Nat.pow_le_pow_right (by decide) small
  have one : (1 : ℚ) ≤ 2 ^ j := one_le_pow₀ (by norm_num)
  have vRange : (v.toNat : ℚ) ≤ 2 ^ 10 := by exact_mod_cast inside.le.trans most
  have cRange : ((c : ℕ) : ℚ) ≤ 3 := by exact_mod_cast Nat.le_of_lt_succ c.isLt
  obtain ⟨scale, scaleNumber⟩ := value_tableScale small
  obtain ⟨bias, biasNumber⟩ := value_tableBias small c
  have converted := h.utof v v
  obtain ⟨q, number, same⟩ := exists_value (n := v.toNat) (k := 0) (by omega) (by decide)
  have exactly := converted.eq number (by rw [same, pow_zero, div_one])
  have scaled := h.mul _ _ converted.1 scaleNumber
  rw [exactly, scale] at scaled
  specialize scaled (le_range (by positivity) ?_)
  · rw [mul_one_div, div_le_iff₀ (by positivity)]
    nlinarith
  obtain ⟨q, number, same⟩ := exists_value (n := v.toNat) (k := j) (by omega) (by omega)
  have exactly := scaled.eq number (by rw [same, mul_one_div])
  have biased := h.add _ _ scaled.1 biasNumber
  have sum : (v.toNat : ℚ) * (1 / 2 ^ j) + (2 * c + 1) / (8 * 2 ^ j) = (8 * v.toNat + 2 * c + 1 : ℕ) / 2 ^ (j + 3) := by
    rw [pow_add]
    push_cast
    field_simp
    ring
  rw [exactly, bias, sum] at biased
  specialize biased (le_range (by positivity) ?_)
  · rw [div_le_iff₀ (by positivity), pow_add]
    push_cast
    nlinarith
  obtain ⟨q, number, same⟩ := exists_value (n := 8 * v.toNat + 2 * c + 1) (k := j + 3) (by omega) (by omega)
  refine ⟨biased.1, (biased.eq number same).trans ?_⟩
  rw [pow_add]
  push_cast
  ring

/-- Every other index, however it is rounded, lies behind the table. -/
theorem coordinate_outside (h : Rounds inputs.float) (small : j ≤ 10) (outside : 2 ^ j ≤ v.toNat) :
    Number (tableCoordinate inputs (4 * 2 ^ j) c v) ∧ 1 ≤ Single.value (tableCoordinate inputs (4 * 2 ^ j) c v) := by
  have most : 2 ^ j ≤ 2 ^ 10 := Nat.pow_le_pow_right (by decide) small
  have one : (1 : ℚ) ≤ 2 ^ j := one_le_pow₀ (by norm_num)
  have vRange : (v.toNat : ℚ) ≤ 2 ^ 32 := by exact_mod_cast v.isLt.le
  have cRange : ((c : ℕ) : ℚ) ≤ 3 := by exact_mod_cast Nat.le_of_lt_succ c.isLt
  obtain ⟨scale, scaleNumber⟩ := value_tableScale small
  obtain ⟨bias, biasNumber⟩ := value_tableBias small c
  have converted := h.utof v v
  have least : (2 : ℚ) ^ j ≤ Single.value (inputs.float .utof v v) := by
    obtain ⟨q, number, same⟩ := exists_value (n := 2 ^ j) (k := 0) (by omega) (by decide)
    rw [pow_zero, div_one] at same
    have le := converted.le number (same.trans_le (by exact_mod_cast outside))
    rw [same] at le
    exact_mod_cast le
  have greatest : Single.value (inputs.float .utof v v) ≤ 2 ^ 33 :=
    (converted.le_two_mul (by positivity)).trans (by linarith)
  have scaled := h.mul _ _ converted.1 scaleNumber
  rw [scale, mul_one_div] at scaled
  have above : 1 ≤ Single.value (inputs.float .utof v v) / 2 ^ j := by rwa [one_le_div (by positivity)]
  have below : Single.value (inputs.float .utof v v) / 2 ^ j ≤ 2 ^ 33 := (div_le_self (by linarith) one).trans greatest
  specialize scaled (le_range (by linarith) (by linarith))
  obtain ⟨q, number, same⟩ := exists_value (n := 1) (k := 0) (by decide) (by decide)
  rw [Nat.cast_one, pow_zero, div_one] at same
  have least := same ▸ scaled.le number (same.trans_le above)
  have greatest := (scaled.le_two_mul (by linarith)).trans (by linarith : _ ≤ (2 : ℚ) ^ 34)
  have biased := h.add _ _ scaled.1 biasNumber
  rw [bias] at biased
  have middle : 0 ≤ ((2 * c + 1) / (8 * 2 ^ j) : ℚ) ∧ ((2 * c + 1) / (8 * 2 ^ j) : ℚ) ≤ 1 := by
    refine ⟨by positivity, ?_⟩
    rw [div_le_one (by positivity)]
    linarith
  specialize biased (le_range (by linarith [middle.1]) (by linarith [middle.2]))
  exact ⟨biased.1, same ▸ biased.le number (by linarith [middle.1])⟩

/-- The coordinate of an index is the middle of its texel. -/
theorem nearestTexel_table (h : Rounds inputs.float) (small : j ≤ 10) {row : List UWord} (length : row.length = 4 * 2 ^ j) :
    Number (tableCoordinate inputs (4 * 2 ^ j) c v) ∧
      nearestTexel row (tableCoordinate inputs (4 * 2 ^ j) c v) = row.getD (4 * v.toNat + c) 0 := by
  have pos : (0 : ℚ) < 2 ^ j := by positivity
  rw [nearestTexel, length]
  push_cast
  rcases Nat.lt_or_ge v.toNat (2 ^ j) with inside | outside
  · refine ⟨(coordinate_inside h small inside).1, ?_⟩
    rw [(coordinate_inside h small inside).2, if_pos (by positivity)]
    have texel : ⌊((8 * v.toNat + 2 * c + 1) / (8 * 2 ^ j) : ℚ) * (4 * 2 ^ j)⌋ = ((4 * v.toNat + c : ℕ) : ℤ) := by
      rw [show ((8 * v.toNat + 2 * c + 1) / (8 * 2 ^ j) : ℚ) * (4 * 2 ^ j) = 4 * v.toNat + c + 1 / 2 by field_simp; ring]
      refine Int.floor_eq_iff.mpr ⟨?_, ?_⟩
      · push_cast
        linarith
      · push_cast
        linarith
    rw [texel, Int.toNat_natCast]
  · obtain ⟨number, above⟩ := coordinate_outside (c := c) h small outside
    refine ⟨number, ?_⟩
    rw [if_pos (by linarith)]
    have far : ((4 * 2 ^ j : ℕ) : ℤ) ≤ ⌊Single.value (tableCoordinate inputs (4 * 2 ^ j) c v) * (4 * 2 ^ j)⌋ := by
      refine Int.le_floor.mpr ?_
      push_cast
      nlinarith
    rw [List.getD_eq_default _ _ (by omega), List.getD_eq_default _ _ (by omega)]

end Coordinates

/-- The driver appends the table of a declared buffer, whatever is bound. -/
theorem appendConstants_table {constants : ConstantBuffers} {slot : ℕ} (bounded : ∀ k, (constants k).length * 4 ≤ 65536)
    (hs : slot < 14) (hj : j ≤ 10) (declared : size ≤ 2 ^ j) :
    ∃ row, appendConstants constants slot (size * 4) (4 * 2 ^ j) = some row ∧ row.length = 4 * 2 ^ j ∧
      ∀ i, row.getD i 0 = if i < size * 4 then constants.word slot i else 0 := by
  have most : 2 ^ j ≤ 2 ^ 10 := Nat.pow_le_pow_right (by decide) hj
  refine ⟨_, dif_pos ⟨hs, by omega, by omega, bounded⟩, ?_, fun i => ?_⟩
  · rw [List.length_append, List.length_replicate, List.length_take]
    omega
  · rw [ConstantBuffers.word, dif_pos hs]
    generalize constants ⟨slot, hs⟩ = bound
    rw [List.getD_eq_getElem?_getD, List.getD_eq_getElem?_getD, List.getElem?_append, List.length_take, List.getElem?_take]
    split
    · rw [if_pos (by omega), if_pos (by omega)]
      rfl
    · rw [List.getElem?_replicate]
      have none : (if i - min (size * 4) bound.length < 4 * 2 ^ j - min (size * 4) bound.length then some (0 : UWord) else none).getD 0 = 0 := by
        split <;> rfl
      rw [none]
      split
      · rw [List.getElem?_eq_none (by omega)]
        rfl
      · rfl

end Tables

/-! ### Typed buffers -/

/-- `PI5_MAX_BYTE_ELEMENTS`. -/
def maxByteElements : ℕ := 16 * 1024 * 1024

/-- `Pi5BufferSigned`. -/
def bufferSigned (kind : ℕ) : Bool := kind ∈ [4, 6, 8, 10, 17, 19, 11, 13, 15]

/-- A component, least significant byte first. -/
def component (signed : Bool) (bytes : List (BitVec 8)) : UWord :=
  let raw := BitVec.ofNat (8 * bytes.length) (bytes.foldr (fun byte n => byte.toNat + 256 * n) 0)
  if signed then raw.signExtend 32 else raw.setWidth 32

/-- A view of a typed buffer, and the bytes of the buffer. -/
structure BufferView where
  kind : ℕ
  first : ℕ
  count : ℕ
  bytes : List (BitVec 8)

namespace BufferView

variable (x : BufferView)

/-- What the driver checks before it accepts the view (`native/validate.cpp`). -/
def Valid : Prop :=
  bufferElementBytes x.kind ≠ 0 ∧ x.count ≠ 0 ∧ x.count < maxByteElements ∧
    x.first ≤ x.bytes.length / bufferElementBytes x.kind ∧
    x.count ≤ x.bytes.length / bufferElementBytes x.kind - x.first

instance : Decidable x.Valid := inferInstanceAs (Decidable (_ ∧ _))

/-- The bytes the driver uploads: the elements of the view, and zeros for one element more (`Bindings`). -/
def uploaded : List (BitVec 8) :=
  let elementBytes := bufferElementBytes x.kind
  let copied := x.count * elementBytes
  let packed := ((x.count + 1) * elementBytes + 3) / 4 * 4
  (x.bytes.drop (x.first * elementBytes)).take copied ++ List.replicate (packed - copied) 0

/-- A channel of an element; missing ones are zero, and alpha is one. -/
def element (i : ℕ) (c : Fin 4) : UWord :=
  if c < bufferComponents x.kind then
    component (bufferSigned x.kind) ((x.bytes.drop ((x.first + i) * bufferElementBytes x.kind + c * bufferComponentBytes x.kind)).take
      (bufferComponentBytes x.kind))
  else if c = 3 then 1 else 0

/-- A channel of the zero element. -/
def zeroElement (c : Fin 4) : UWord := if bufferComponents x.kind ≤ c ∧ c = 3 then 1 else 0

end BufferView

/-- What a texture unit is told about a buffer. -/
structure BufferDescriptor where
  elements : ℕ
  format : ℕ
  swizzle : Fin 4 → ℕ

def bufferFormat (kind : ℕ) : ℕ :=
  (if bufferComponentBytes kind = 1 then 96 else if bufferComponentBytes kind = 2 then 102 else 108) +
    (if bufferComponents kind = 1 then 0 else if bufferComponents kind = 2 then 2 else 4) + if bufferSigned kind then 0 else 1

/-- `BufferDescriptors`, without the address and the sampler. -/
def bufferDescriptors (elements kind : ℕ) : Option BufferDescriptor :=
  if elements = 0 ∨ maxByteElements < elements ∨ bufferElementBytes kind = 0 then none
  else
    some {
      elements
      format := bufferFormat kind
      swizzle := fun c => if c < bufferComponents kind then c + 2 else if c = 3 then 1 else 0 }

namespace BufferDescriptor

variable (d : BufferDescriptor)

/-- Components of one, two and four bytes come one, two and four at a time, signed and unsigned. -/
def componentBytes : ℕ := 2 ^ ((d.format - 96) / 6)

def components : ℕ := 2 ^ ((d.format - 96) % 6 / 2)

def signed : Bool := d.format % 2 = 0

/-- A channel that the texture unit delivers: zero, one or a component of an element. -/
def deliver (memory : List (BitVec 8)) (i : ℕ) (c : Fin 4) : UWord :=
  match d.swizzle c with
  | 0 => 0
  | 1 => 1
  | k + 2 => component d.signed ((memory.drop ((i * d.components + k) * d.componentBytes)).take d.componentBytes)

end BufferDescriptor

section Buffers

variable {kind count i : ℕ} {d : BufferDescriptor} {x : BufferView}

theorem known_kind (h : bufferElementBytes kind ≠ 0) : kind ∈ List.range 20 := by
  rw [List.mem_range]
  by_contra far
  refine h ?_
  rw [bufferElementBytes, bufferComponents, if_neg, if_neg, if_neg, Nat.zero_mul] <;>
    · simp only [List.mem_cons, List.not_mem_nil, or_false]
      omega

/-- The format of a kind tells its components. -/
theorem bufferFormat_kind : ∀ kind ∈ List.range 20, bufferElementBytes kind ≠ 0 →
    2 ^ ((bufferFormat kind - 96) % 6 / 2) = bufferComponents kind ∧ 2 ^ ((bufferFormat kind - 96) / 6) = bufferComponentBytes kind ∧
      decide (bufferFormat kind % 2 = 0) = bufferSigned kind := by decide

theorem bufferDescriptors_eq (h : bufferDescriptors count kind = some d) :
    d.components = bufferComponents kind ∧ d.componentBytes = bufferComponentBytes kind ∧ d.signed = bufferSigned kind ∧
      d.swizzle = fun c : Fin 4 => if (c : ℕ) < bufferComponents kind then (c : ℕ) + 2 else if c = 3 then 1 else 0 := by
  unfold bufferDescriptors at h
  split at h
  · exact nomatch h
  · rename_i passed
    obtain rfl := Option.some.inj h
    have nonzero : bufferElementBytes kind ≠ 0 := fun none => passed (.inr (.inr none))
    obtain ⟨components, bytes, signed⟩ := bufferFormat_kind kind (known_kind nonzero) nonzero
    exact ⟨components, bytes, signed, rfl⟩

theorem component_zeros (signed : Bool) (n : ℕ) : component signed (List.replicate n 0) = 0 := by
  have sum : (List.replicate n (0 : BitVec 8)).foldr (fun byte n => byte.toNat + 256 * n) 0 = 0 := by
    induction n with
    | zero => rfl
    | succ n ih => rw [List.replicate_succ, List.foldr_cons, ih]; rfl
  rw [component, sum]
  cases signed
  · exact BitVec.setWidth_zero _ _
  · simp [BitVec.signExtend]

/-- A part of the bytes that were copied. -/
theorem part_inside {α : Type} (l rest : List α) {start length n m : ℕ} (inside : n + m ≤ length) (enough : start + length ≤ l.length) :
    (((l.drop start).take length ++ rest).drop n).take m = (l.drop (start + n)).take m := by
  have copied : ((l.drop start).take length).length = length := by
    rw [List.length_take, List.length_drop]
    omega
  rw [List.drop_append_of_le_length (by omega), List.take_append_of_le_length (by rw [List.length_drop]; omega), List.drop_take,
    List.take_take, List.drop_drop, min_eq_left (by omega)]

/-- A part of the zeros behind them. -/
theorem part_behind {α : Type} (l : List α) {z : α} {start length more n m : ℕ} (behind : length ≤ n) (most : n + m ≤ length + more)
    (enough : start + length ≤ l.length) :
    (((l.drop start).take length ++ List.replicate more z).drop n).take m = List.replicate m z := by
  have copied : ((l.drop start).take length).length = length := by
    rw [List.length_take, List.length_drop]
    omega
  rw [List.drop_append, List.drop_eq_nil_of_le (by omega), List.nil_append, copied, List.drop_replicate, List.take_replicate,
    min_eq_left (by omega)]

/-- **Uploaded buffers.** A texture unit delivers the elements of the view, and the zero element behind them. -/
theorem deliver_uploaded (valid : x.Valid) (h : bufferDescriptors (x.count + 1) x.kind = some d) (le : i ≤ x.count) (c : Fin 4) :
    d.deliver x.uploaded i c = if i < x.count then x.element i c else x.zeroElement c := by
  obtain ⟨components, bytes, signed, swizzle⟩ := bufferDescriptors_eq h
  obtain ⟨-, -, -, fits, enough⟩ := valid
  rw [BufferDescriptor.deliver, swizzle, components, bytes, signed, BufferView.element, BufferView.zeroElement]
  dsimp only
  by_cases has : (c : ℕ) < bufferComponents x.kind
  · have width : bufferElementBytes x.kind = bufferComponents x.kind * bufferComponentBytes x.kind := rfl
    have next : (c + 1) * bufferComponentBytes x.kind ≤ bufferElementBytes x.kind := Nat.mul_le_mul_right _ has
    have start : (i * bufferComponents x.kind + c) * bufferComponentBytes x.kind =
        i * bufferElementBytes x.kind + c * bufferComponentBytes x.kind := by
      rw [width]
      ring
    have long : x.first * bufferElementBytes x.kind + x.count * bufferElementBytes x.kind ≤ x.bytes.length := by
      calc x.first * bufferElementBytes x.kind + x.count * bufferElementBytes x.kind
          = (x.first + x.count) * bufferElementBytes x.kind := (Nat.add_mul _ _ _).symm
        _ ≤ x.bytes.length / bufferElementBytes x.kind * bufferElementBytes x.kind := Nat.mul_le_mul_right _ (by omega)
        _ ≤ x.bytes.length := Nat.div_mul_le_self _ _
    rw [if_pos has, if_pos has, if_neg fun missing : bufferComponents x.kind ≤ c ∧ c = 3 => absurd has (not_lt.mpr missing.1)]
    dsimp only [BufferView.uploaded]
    rw [start]
    rw [Nat.add_mul, Nat.one_mul] at next
    split
    · rename_i before
      have inside : (i + 1) * bufferElementBytes x.kind ≤ x.count * bufferElementBytes x.kind := Nat.mul_le_mul_right _ before
      rw [Nat.add_mul, Nat.one_mul] at inside
      rw [part_inside _ _ (by omega) long, Nat.add_mul, Nat.add_assoc]
    · obtain rfl : i = x.count := by omega
      rw [part_behind _ (by omega) _ long, component_zeros]
      rw [Nat.add_mul, Nat.one_mul]
      omega
  · rw [if_neg has, if_neg has]
    by_cases alpha : c = 3
    · rw [if_pos alpha, if_pos alpha, if_pos (show bufferComponents x.kind ≤ c ∧ c = 3 from ⟨not_lt.mp has, alpha⟩), ite_self]
    · rw [if_neg alpha, if_neg alpha, if_neg fun missing : bufferComponents x.kind ≤ c ∧ c = 3 => alpha missing.2, ite_self]

end Buffers

/-! ### What is bound -/

/-- A level of a texture, and what its texels hold. -/
structure TextureView where
  info : Gpu.AllocationInfo
  first : ℕ
  level : Gpu.Level
  texel : ℕ → ℕ → Fin 4 → UWord

/-- What the drivers check of a texture before it is read. -/
def TextureView.Valid (x : TextureView) : Prop :=
  Gpu.validateAllocation x.info = true ∧ x.info.dimension = 3 ∧ Gpu.allocationLevel x.info x.first = some x.level

/-- A level is not larger than the surfaces that the driver accepts. -/
theorem TextureView.Valid.small {x : TextureView} (h : x.Valid) : x.level.width ≤ 4096 ∧ x.level.height ≤ 4096 := by
  obtain ⟨valid, dimension, found⟩ := h
  have surface := Gpu.surface_of_validateAllocation valid dimension
  have inside : x.first < x.info.levels := by
    by_contra far
    rw [Gpu.allocationLevel, if_pos (.inr (not_lt.mp far))] at found
    cases found
  obtain ⟨level, found', at_⟩ := Gpu.allocationLevel_surface surface inside
  obtain rfl := Option.some.inj (found'.symm.trans found)
  rw [at_.width_eq, at_.height_eq, Texture.minify_eq, Texture.minify_eq]
  have width := surface.width_le
  have height := surface.height_le
  exact ⟨max_le (by decide) ((Nat.div_le_self _ _).trans width), max_le (by decide) ((Nat.div_le_self _ _).trans height)⟩

/-- The constant buffers and, by binding, the buffers and textures that a program is run with. -/
structure Bound where
  constants : ConstantBuffers
  buffers : ℕ → Option BufferView
  textures : ℕ → Option TextureView

/-- The inputs of a program are what is bound: constants, sizes and what its lookups deliver. Tables are sampled
exactly, at the height `0.5`. -/
structure Bound.Supplies (bound : Bound) (s : State) (inputs : Inputs) : Prop where
  rounds : Rounds inputs.float
  bounded : ∀ k, (bound.constants k).length * 4 ≤ 65536
  constant : ∀ k, inputs.constant k = bound.constants.word k.1 k.2.toNat
  table : ∀ group values, s.lookups[group]? = some ⟨.constant, 0, values⟩ → ∀ slot row, s.constantSlot = some slot →
    appendConstants bound.constants slot (s.constantSizes slot * 4) s.constantWords = some row →
      ∀ x, Number x → inputs.texel group 0 x 0x3f000000#32 = nearestTexel row x
  buffer : ∀ b view, bound.buffers b = some view → view.Valid ∧ inputs.word ⟨.bindingElements, 0, b⟩ = BitVec.ofNat 32 view.count ∧
    ∀ group values, s.lookups[group]? = some ⟨.fetch1D, b, values⟩ → ∀ d, bufferDescriptors (view.count + 1) view.kind = some d →
      ∀ x : UWord, x.toNat ≤ view.count → ∀ c : Fin 4, inputs.texel group c x x = d.deliver view.uploaded x.toNat c
  texture : ∀ b view, bound.textures b = some view → view.Valid ∧
    inputs.word ⟨.bindingWidth, 0, b⟩ = BitVec.ofNat 32 view.level.width ∧
    inputs.word ⟨.bindingHeight, 0, b⟩ = BitVec.ofNat 32 view.level.height ∧
    ∀ group values, s.lookups[group]? = some ⟨.fetch2D, b, values⟩ → ∀ x y : UWord, x.toNat < view.level.width →
      y.toNat < view.level.height → ∀ c : Fin 4, inputs.texel group c x y = view.texel x.toNat y.toNat c

/-! ### Reads -/

variable {settings : Settings} {q : Prop} {word : ℕ × UWord → UWord} {s t u : State} {bound : Bound} {inputs : Inputs}

theorem Builds.ok {α : Type} {x : Compile α} {Q : α → State → Prop} {a : α} (h : Builds q word s x Q) (sound : Sound word s)
    (ran : x.run word s = (.ok a, t)) : Sound word t ∧ Later q s t ∧ Q a t := by
  obtain ⟨-, kept, ext, result⟩ := h sound
  rw [ran] at kept ext result
  exact ⟨kept, ext, result a rfl⟩

theorem Gave.lt {x : Compile ℕ} {node : ℕ} (h : Gave word s x t node) : node < t.nodes.length := by
  obtain ⟨v, w, -, -, lt, ext⟩ := h
  exact lt.trans_le ext.length_le

/-- How the relative index of an operand is read. -/
def relativeOf (settings : Settings) (o : Operand) : Option (Compile ℕ) := o.relative1.map fun r => read settings r 0 true

theorem read_eq (o : Operand) (lane : Fin 4) (integer : Bool) :
    read settings o lane integer = readWith settings o (relativeOf settings o) lane integer := by
  obtain ⟨type, dimensions, index0, index1, value, swizzle, mask, modifier, relative0, relative1⟩ := o
  cases relative1 <;> rw [read] <;> rfl

theorem relativeOf_gives (o : Operand) : RelativeGives word (relativeOf settings o) := by
  intro x same
  obtain ⟨r, -, rfl⟩ := Option.map_eq_some_iff.mp same
  exact read_gives r 0 true

/-- Without modifiers a source is what was read. -/
theorem modified_plain {o : Operand} {v : ℕ} {integer : Bool} {Q : ℕ → State → Prop} (plain : o.modifier = 0) (h : Q v s) :
    Builds q word s (modified settings o v integer) Q := by
  unfold modified
  refine Advances.ite (fun _ => Builds.need_bind fun _ => ?_) fun _ => ?_
  · exact Advances.ite (fun some => absurd plain some) fun _ => Builds.pure h
  · have even : ¬o.modifier / 2 % 2 = 1 := by omega
    have sign : ¬o.modifier % 2 = 1 := by omega
    refine Advances.ite (fun some => absurd some even) fun _ => Builds.bind (Builds.pure h) fun w t _ holds => ?_
    exact Advances.ite (fun some => absurd some sign) fun _ => Builds.pure holds

/-- What is read of a constant buffer. -/
theorem read_constantAt {o : Operand} {lane : Fin 4} {integer : Bool} (type : o.type = 8) (plain : o.modifier = 0) :
    Builds True word s (read settings o lane integer) fun r t => ∃ g, Indexed word s t g (relativeOf settings o) ∧
      ConstantAt word t r o.index0 (s.constantSizes o.index0) (o.swizzle lane) fun inputs => g inputs + BitVec.ofNat 32 o.index1 := by
  rw [read_eq]
  refine Builds.need_bind fun _ => Advances.get_bind ?_
  refine Advances.ite (fun no => by omega) fun _ => Advances.ite (fun no => by omega) fun _ => Advances.ite (fun no => by omega) fun _ =>
    Advances.ite (fun no => by omega) fun _ => Advances.ite (fun _ => ?_) fun no => absurd type no
  refine Builds.bind (map_some (readConstant_has (relativeOf_gives o))) fun v t _ holds => ?_
  obtain ⟨r, rfl, holds⟩ := holds
  exact modified_plain plain holds

/-- What is read of an indexable temporary. -/
theorem read_elementAt {o : Operand} {lane : Fin 4} {integer : Bool} (type : o.type = 3) (plain : o.modifier = 0) :
    Builds True word s (read settings o lane integer) fun r t => ∃ g, Indexed word s t g (relativeOf settings o) ∧
      ElementAt word s t r (s.indexable o.index0).values (o.swizzle lane) fun inputs => g inputs + BitVec.ofNat 32 o.index1 := by
  rw [read_eq]
  refine Builds.need_bind fun _ => Advances.get_bind ?_
  refine Advances.ite (fun no => by omega) fun _ => Advances.ite (fun _ => ?_) fun no => absurd type no
  refine Builds.bind (readIndexable_has (relativeOf_gives o)) fun v t _ holds => ?_
  cases v with
  | none => exact Builds.fail
  | some r => exact modified_plain plain (holds r rfl)

/-- The word of a constant at an index; elements outside of the declaration or of what is bound are zero. -/
def Bound.constantAt (bound : Bound) (slot size : ℕ) (c : Fin 4) (x : UWord) : UWord :=
  if x.toNat < size then bound.constants.word slot (x.toNat * 4 + c) else 0

/-- A constant is the one at its index, whether it is known or looked up. -/
theorem constantAt_exact {slot size node : ℕ} {c : Fin 4} {x : Inputs → UWord} (kept : Sound word t) (sound : Sound word u)
    (ext : Later q t u) (agrees : Agrees word inputs u) (supplies : bound.Supplies u inputs) (declared : t.constantSizes slot = size)
    (h : ConstantAt word t node slot size c x) : u.word inputs node = bound.constantAt slot size c (x inputs) := by
  have most := kept.sizes slot
  rw [Bound.constantAt]
  obtain has | ⟨at_, values, group, rfl, looksUp⟩ := h
  · rw [(has.mono ext).word inputs agrees, constantElement]
    refine if_ctx_congr Iff.rfl (fun inside => ?_) fun _ => rfl
    rw [supplies.constant, BitVec.toNat_ofNat, Nat.mod_eq_of_lt (by omega)]
  · have slot_ := ext.slot slot at_
    obtain ⟨-, positive, -, -⟩ := kept.table slot at_
    have still : u.constantSizes slot = size := (ext.sizes slot positive.ne').trans declared
    obtain ⟨small, -, fits, words⟩ := sound.table slot slot_
    rw [still] at fits words
    obtain ⟨j, hj, power, enough⟩ := tableWords_spec fits
    obtain ⟨row, appended, length, texels⟩ := appendConstants_table supplies.bounded small hj enough
    obtain ⟨number, nearest⟩ := nearestTexel_table (c := c) (v := x inputs) supplies.rounds hj length
    have looked := looksUp.mono ext
    rw [(looked.delivers 0).word inputs agrees, power]
    have sampled := supplies.table group values looked.lookup slot row slot_ (by rw [still, words, power]; exact appended) _ number
    refine sampled.trans (nearest.trans ((texels _).trans ?_))
    refine if_ctx_congr (by omega) (fun _ => ?_) fun _ => rfl
    rw [Nat.mul_comm]

theorem BufferView.Valid.described {view : BufferView} (valid : view.Valid) :
    ∃ d, bufferDescriptors (view.count + 1) view.kind = some d := by
  obtain ⟨known, -, few, -⟩ := valid
  exact ⟨_, if_neg (by omega)⟩

/-- An element of a typed buffer is the one at its index, and the zero element behind the view. -/
theorem bufferElement_exact {b group : ℕ} {values : Fin 4 → ℕ} {c : Fin 4} {x : Inputs → UWord} {view : BufferView} (ext : Later q t u)
    (agrees : Agrees word inputs u) (supplies : bound.Supplies u inputs) (at_ : bound.buffers b = some view)
    (h : LooksUp word t .fetch1D b values (fun inputs => clamped (x inputs) (inputs.word ⟨.bindingElements, 0, b⟩))
      (fun inputs => clamped (x inputs) (inputs.word ⟨.bindingElements, 0, b⟩)) group) :
    u.word inputs (values c) = if (x inputs).toNat < view.count then view.element (x inputs).toNat c else view.zeroElement c := by
  obtain ⟨valid, count, delivers⟩ := supplies.buffer b view at_
  obtain ⟨d, described⟩ := valid.described
  have few : view.count < 2 ^ 32 := valid.2.2.1.trans (by decide)
  have looked := h.mono ext
  rw [(looked.delivers c).word inputs agrees, count, clamped, BitVec.toNat_ofNat, Nat.mod_eq_of_lt few]
  split
  · rename_i le
    rw [delivers group values looked.lookup d described _ le, deliver_uploaded valid described le]
  · rename_i far
    have last : (BitVec.ofNat 32 view.count).toNat = view.count := by rw [BitVec.toNat_ofNat, Nat.mod_eq_of_lt few]
    rw [delivers group values looked.lookup d described _ last.le, deliver_uploaded valid described last.le, last,
      if_neg (lt_irrefl _), if_neg (by omega)]

/-- A texel is the one at its indices, and zero if one of them is outside. -/
theorem texel_exact {b group : ℕ} {texels : Fin 4 → ℕ} {x y : UWord} {view : TextureView} (ext : Later q t u)
    (supplies : bound.Supplies u inputs) (at_ : bound.textures b = some view) {f g : Inputs → UWord}
    (h : LooksUp word t .fetch2D b texels f g group) (c : Fin 4) :
    texelWord inputs group c x y (inputs.word ⟨.bindingWidth, 0, b⟩) (inputs.word ⟨.bindingHeight, 0, b⟩) =
      if x.toNat < view.level.width ∧ y.toNat < view.level.height then view.texel x.toNat y.toNat c else 0 := by
  obtain ⟨valid, width, height, delivers⟩ := supplies.texture b view at_
  obtain ⟨narrow, low⟩ := valid.small
  have wide : (BitVec.ofNat 32 view.level.width).toNat = view.level.width := by rw [BitVec.toNat_ofNat, Nat.mod_eq_of_lt (by omega)]
  have high : (BitVec.ofNat 32 view.level.height).toNat = view.level.height := by rw [BitVec.toNat_ofNat, Nat.mod_eq_of_lt (by omega)]
  rw [width, height, texelWord_eq _ _ _ _ _ _ _ (by omega) (by omega), wide, high]
  refine if_ctx_congr Iff.rfl (fun inside => ?_) fun _ => rfl
  exact delivers group texels (h.mono ext).lookup _ _ inside.1 inside.2 c

/-- The word of an operand's index: the one of the relative index, read on the way from `s` to `t`, and the literal one. -/
def IndexWord (settings : Settings) (word : ℕ × UWord → UWord) (inputs : Inputs) (s t : State) (o : Operand) (x : UWord) : Prop :=
  ∃ g, Indexed word s t g (relativeOf settings o) ∧ x = g inputs + BitVec.ofNat 32 o.index1

/-- **Indexed reads are exact.** Whatever is bound, and for all inputs: in every later state of a compilation a read of
a constant buffer, of an indexable temporary, of a typed buffer or of a texel has the word of the element at its index
if that is inside, and of a zero element if it is not. How the index became known is not seen. -/
theorem indexed_reads_exact (settings : Settings) (sound : Sound word s) (final : Sound word u) (agrees : Agrees word inputs u)
    (supplies : bound.Supplies u inputs) :
    (∀ o lane integer node t, o.type = 8 → o.modifier = 0 → (read settings o lane integer).run word s = (.ok node, t) →
      Later False t u → ∃ x, IndexWord settings word inputs s t o x ∧
        u.word inputs node = bound.constantAt o.index0 (s.constantSizes o.index0) (o.swizzle lane) x) ∧
    (∀ o lane integer node t, o.type = 3 → o.modifier = 0 → (read settings o lane integer).run word s = (.ok node, t) →
      Later False t u → ∃ x, IndexWord settings word inputs s t o x ∧
        (∀ register, (s.indexable o.index0).values[x.toNat]? = some register →
          ∃ element, register (o.swizzle lane) = some element ∧ u.word inputs node = s.word inputs element) ∧
        ((s.indexable o.index0).values.length ≤ x.toNat → u.word inputs node = 0)) ∧
    (∀ b address values t view, bound.buffers b = some view → (fetchBuffer settings b address).run word s = (.ok values, t) →
      Later False t u → ∃ index, Gave word s (read settings address 0 true) t index ∧ ∀ c, u.word inputs (values c) =
        if (u.word inputs index).toNat < view.count then view.element (u.word inputs index).toNat c else view.zeroElement c) ∧
    (∀ b address values t view, bound.textures b = some view → (fetchTexel settings b address).run word s = (.ok values, t) →
      Later False t u → ∃ i j, Gave word s (read settings address 0 true) t i ∧ Gave word s (read settings address 1 true) t j ∧
        ∀ c, u.word inputs (values c) =
          if (u.word inputs i).toNat < view.level.width ∧ (u.word inputs j).toNat < view.level.height then
            view.texel (u.word inputs i).toNat (u.word inputs j).toNat c
          else 0) := by
  refine ⟨fun o lane integer node t type plain ran ext => ?_, fun o lane integer node t type plain ran ext => ?_,
    fun b address values t view at_ ran ext => ?_, fun b address values t view at_ ran ext => ?_⟩
  · obtain ⟨kept, built, g, indexed, constant⟩ := Builds.ok (read_constantAt type plain) sound ran
    have declared := congrArg State.constantSizes (built.frame trivial)
    exact ⟨_, ⟨g, indexed, rfl⟩, constantAt_exact kept final ext agrees supplies (congrFun declared o.index0) constant⟩
  · obtain ⟨-, -, g, indexed, element⟩ := Builds.ok (read_elementAt type plain) sound ran
    refine ⟨_, ⟨g, indexed, rfl⟩, fun register found => ?_, fun outside => ?_⟩
    · have stored := element.stored inputs (agrees.mono ext) register found
      obtain ⟨node', named⟩ := Option.ne_none_iff_exists'.mp stored
      refine ⟨node', named, ?_⟩
      rw [(element.has.mono ext).word inputs agrees, State.element, found, Option.elim_some, named, Option.elim_some]
    · rw [(element.has.mono ext).word inputs agrees, State.element, List.getElem?_eq_none outside, Option.elim_none]
  · obtain ⟨-, -, index, group, given, looksUp⟩ := Builds.ok (fetchBuffer_has (read_gives address 0 true)) sound ran
    refine ⟨index, given, fun c => ?_⟩
    rw [ext.word_eq given.lt]
    exact bufferElement_exact ext agrees supplies at_ looksUp
  · obtain ⟨-, -, i, j, texels, group, hi, hj, looksUp, has⟩ := Builds.ok (fetchTexel_has fun lane => read_gives address lane true) sound ran
    refine ⟨i, j, hi, hj, fun c => ?_⟩
    rw [((has c).mono ext).word inputs agrees, ext.word_eq hi.lt, ext.word_eq hj.lt]
    exact texel_exact ext supplies at_ looksUp c

theorem exists_rounds : ∃ float, Rounds float := by
  choose nearest is using exists_nearest
  refine ⟨fun op x y => match op with
    | .utof => nearest x.toNat
    | .mul => nearest (Single.value x * Single.value y)
    | .add => nearest (Single.value x + Single.value y)
    | _ => 0, ?_, ?_, ?_⟩
  · exact fun x _ => is x.toNat
  · exact fun x y _ _ _ => is _
  · exact fun x y _ _ _ => is _

/-- After `dcl_constantbuffer cb0[3], dynamicIndexed` and `dcl_input_ps constant v0.x`. -/
def threeElements : State :=
  { State.initial with
    constantSizes := fun k => if k = 0 then 3 else 0
    inputMasks := fun k => if k = 0 then 1#4 else 0#4 }

/-- `cb0[v0.x + 1].y`. -/
def elementSource : Operand :=
  { type := 8, dimensions := 2, index0 := 0, index1 := 1, value := fun _ => 0, swizzle := fun _ => 1, mask := 0, modifier := 0
    relative0 := none
    relative1 := some ⟨1, 1, 0, 0, fun _ => 0, fun _ => 0, 0, 0, none, none⟩ }

def elementBound : Bound where
  constants k := if k = 0 then [10, 11, 12, 13, 20, 21, 22, 23, 30, 31, 32, 33] else []
  buffers _ := none
  textures _ := none

/-- The state after the source was read. -/
def elementRead : State := ((read ⟨.pixel, none, false, none, 64⟩ elementSource 0 false).run (fun _ => 0) threeElements).2

theorem threeElements_sound : Sound (fun _ => 0) threeElements :=
  { sound_initial with
    sizes := fun k => by
      unfold threeElements
      dsimp only
      split <;> decide
    table := fun k no => nomatch no }

/-- The table of the three elements. -/
def elementRow : List UWord := [10, 11, 12, 13, 20, 21, 22, 23, 30, 31, 32, 33, 0, 0, 0, 0]

theorem elements_supplied {float : Op → UWord → UWord → UWord} (rounds : Rounds float) : elementBound.Supplies elementRead
    { constant := fun k => elementBound.constants.word k.1 k.2.toNat, word := fun _ => 0, texel := fun _ _ x _ => nearestTexel elementRow x
      float } where
  rounds := rounds
  bounded := by decide
  constant _ := rfl
  table group values _ slot row at_ appended x _ := by
    have chosen : elementRead.constantSlot = some 0 := by decide +kernel
    obtain rfl := Option.some.inj (chosen.symm.trans at_)
    have table : appendConstants elementBound.constants 0 (elementRead.constantSizes 0 * 4) elementRead.constantWords = some elementRow := by
      decide +kernel
    obtain rfl := Option.some.inj (table.symm.trans appended)
    rfl
  buffer _ _ no := nomatch no
  texture _ _ no := nomatch no

/-- The element at an index of the lanes. -/
theorem elements_lookedUp : ∃ inputs x, elementBound.Supplies elementRead inputs ∧
    IndexWord ⟨.pixel, none, false, none, 64⟩ (fun _ => 0) inputs threeElements elementRead elementSource x ∧
      elementRead.word inputs 9 = elementBound.constantAt 0 3 1 x := by
  obtain ⟨float, rounds⟩ := exists_rounds
  have supplied := elements_supplied rounds
  have ran : (read ⟨.pixel, none, false, none, 64⟩ elementSource 0 false).run (fun _ => 0) threeElements = (.ok 9, elementRead) :=
    Prod.ext (by decide +kernel) rfl
  obtain ⟨final, -, -⟩ := Builds.ok (read_constantAt rfl rfl) threeElements_sound ran
  have alone : elementRead.specialized = [] := by decide +kernel
  have agrees (inputs : Inputs) : Agrees (fun _ => 0) inputs elementRead := by
    intro k mem
    rw [State.reliedOn, alone] at mem
    obtain ⟨u, mem, -⟩ := mem
    exact absurd mem List.not_mem_nil
  obtain ⟨x, index, exact_⟩ := (indexed_reads_exact ⟨.pixel, none, false, none, 64⟩ threeElements_sound final (agrees _) supplied).1
    elementSource 0 false 9 elementRead rfl rfl ran (Later.refl _)
  exact ⟨_, x, supplied, index, exact_⟩

end Pi5Drivers.Compiler
