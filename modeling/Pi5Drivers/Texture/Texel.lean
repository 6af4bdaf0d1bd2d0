import Pi5Drivers.Texture.Layout

/-! Where the texels of a tiled level lie. Each tiling divides the padded level
into blocks and numbers the blocks; a texel's byte is its block's number and its
place inside the block, so two texels never share a word and none leaves the
level, with or without the XOR of the block row. -/

namespace Pi5Drivers.Texture

variable {l : TextureLevel} {x y x' y' : ℕ}

/-- What a level's padded size must be for its tiling. -/
structure TextureLevel.Shaped (l : TextureLevel) : Prop where
  width_le : l.width ≤ l.paddedWidth
  height_le : l.height ≤ l.paddedHeight
  linear : l.tiling = .linear → l.paddedWidth % 4 = 0 ∧ l.paddedHeight % 4 = 0 ∧
    (l.paddedWidth = 4 ∨ l.paddedHeight = 4)
  ubLinear1 : l.tiling = .ubLinear1 → l.paddedWidth = 8 ∧ l.paddedHeight % 8 = 0
  ubLinear2 : l.tiling = .ubLinear2 → l.paddedWidth = 16 ∧ l.paddedHeight % 8 = 0
  uif : l.tiling = .uif → l.paddedWidth % 32 = 0 ∧ l.paddedHeight % 8 = 0 ∧
    (l.xorEnabled = true → l.paddedHeight / 8 % 32 = 0)

/-! ### Numbering blocks -/

section Blocks

variable {n a a' b b' k : ℕ}

theorem number_inj (hb : b < n) (hb' : b' < n) (h : a * n + b = a' * n + b') : a = a' ∧ b = b' := by
  have pos : 0 < n := by omega
  have quotient := congrArg (· / n) h
  simp only [Nat.mul_comm _ n, Nat.mul_add_div pos, Nat.div_eq_of_lt hb, Nat.div_eq_of_lt hb',
    Nat.add_zero] at quotient
  subst quotient
  exact ⟨rfl, Nat.add_left_cancel h⟩

theorem number_lt (ha : a < k) (hb : b < n) : a * n + b < k * n := by
  calc a * n + b < a * n + n := by omega
    _ = (a + 1) * n := by ring
    _ ≤ k * n := Nat.mul_le_mul_right n ha

/-- The number of a UIF block: columns of four blocks, row after row. -/
theorem uif_number {rows : ℕ} (column block row : ℕ) (h : 0 < rows) :
    column * ((rows - 1) * 4) + (4 * column + block) + row * 4 = 4 * (column * rows + row) + block := by
  obtain ⟨r, rfl⟩ : ∃ r, rows = r + 1 := ⟨rows - 1, by omega⟩
  rw [Nat.add_sub_cancel]
  ring

theorem xor_sixteen_div (b : ℕ) : (b ^^^ 16) / 32 = b / 32 := by
  have shifted := Nat.shiftRight_xor_distrib (a := b) (b := 16) (i := 5)
  simpa only [Nat.shiftRight_eq_div_pow, Nat.reducePow, Nat.reduceDiv, Nat.xor_zero] using shifted

theorem xor_sixteen_lt (hn : n % 32 = 0) (hb : b < n) : b ^^^ 16 < n := by
  have := xor_sixteen_div b
  omega

theorem xor_sixteen_inj (h : b ^^^ 16 = b' ^^^ 16) : b = b' := by
  have twice := congrArg (· ^^^ 16) h
  simpa only [Nat.xor_assoc, Nat.xor_self, Nat.xor_zero] using twice

end Blocks

/-! ### Texels -/

/-- The block row of a UIF texel, after the XOR of its column. -/
def uifRow (l : TextureLevel) (x y : ℕ) : ℕ :=
  if l.xorEnabled ∧ x / 8 / 4 % 2 = 1 then y / 8 ^^^ 16 else y / 8

/-- The byte of a texel in its block of eight by eight. -/
def inBlock (x y : ℕ) : ℕ :=
  (if x / 4 % 2 = 1 then 64 else 0) + (if y / 4 % 2 = 1 then 128 else 0) + (y % 4 * 16 + x % 4 * 4)

theorem inBlock_lt : inBlock x y + 4 ≤ 256 := by
  unfold inBlock
  split <;> split <;> omega

theorem inBlock_inj (h : inBlock x y = inBlock x' y') : x % 8 = x' % 8 ∧ y % 8 = y' % 8 := by
  have bit (n : ℕ) (k : ℕ) : (if n / 4 % 2 = 1 then k else 0) = n / 4 % 2 * k := by
    split <;> simp_all
  unfold inBlock at h
  rw [bit, bit, bit, bit] at h
  omega

theorem inBlock_mod : inBlock x y % 4 = 0 := by
  unfold inBlock
  split <;> split <;> omega

theorem uifRow_lt (shaped : l.Shaped) (tiling : l.tiling = .uif) (hy : y < l.height) :
    uifRow l x y < l.paddedHeight / 8 := by
  obtain ⟨-, height, xor⟩ := shaped.uif tiling
  have := shaped.height_le
  unfold uifRow
  split
  · exact xor_sixteen_lt (xor (by tauto)) (by omega)
  · omega

/-- Texels of one column of blocks in the same row after the XOR are so before it. -/
theorem uifRow_inj (column : x / 32 = x' / 32) (h : uifRow l x y = uifRow l x' y') : y / 8 = y' / 8 := by
  have odd : (x / 8 / 4 % 2 = 1) = (x' / 8 / 4 % 2 = 1) := by
    rw [Nat.div_div_eq_div_mul, Nat.div_div_eq_div_mul, column]
  simp only [uifRow, odd] at h
  split at h
  · exact xor_sixteen_inj h
  · exact h

theorem texelOffset_linear (tiling : l.tiling = .linear) :
    texelOffset l x y = 64 * (x / 4 + y / 4) + (y % 4 * 16 + x % 4 * 4) := by
  simp only [texelOffset, tiling]

theorem texelOffset_ubLinear1 (tiling : l.tiling = .ubLinear1) :
    texelOffset l x y = 256 * (y / 8 * 1 + x / 8) + inBlock x y := by
  simp only [texelOffset, tiling, inBlock]

theorem texelOffset_ubLinear2 (tiling : l.tiling = .ubLinear2) :
    texelOffset l x y = 256 * (y / 8 * 2 + x / 8) + inBlock x y := by
  simp only [texelOffset, tiling, inBlock]

theorem texelOffset_uif_index (tiling : l.tiling = .uif) :
    texelOffset l x y = (x / 8 / 4 * ((l.paddedHeight / 8 - 1) * 4) + x / 8 + uifRow l x y * 4) * 256 +
      inBlock x y := by
  simp only [texelOffset, tiling, inBlock, uifRow]

/-- A UIF texel's byte: its block among the columns of four blocks, then its place in the block. -/
theorem texelOffset_uif (tiling : l.tiling = .uif) (rows : 0 < l.paddedHeight / 8) :
    texelOffset l x y =
      1024 * (x / 32 * (l.paddedHeight / 8) + uifRow l x y) + 256 * (x / 8 % 4) + inBlock x y := by
  have block : x / 8 = 4 * (x / 32) + x / 8 % 4 := by omega
  have number := uif_number (x / 32) (x / 8 % 4) (uifRow l x y) rows
  have column : x / 8 / 4 = x / 32 := by omega
  rw [texelOffset_uif_index tiling, column, show ∀ n, n + x / 8 + uifRow l x y * 4 =
    n + (4 * (x / 32) + x / 8 % 4) + uifRow l x y * 4 from fun n => by rw [← block], number]
  ring

theorem texelOffset_mod : texelOffset l x y % 4 = 0 := by
  have place := inBlock_mod (x := x) (y := y)
  cases tiling : l.tiling with
  | linear => rw [texelOffset_linear tiling]; omega
  | ubLinear1 => rw [texelOffset_ubLinear1 tiling]; omega
  | ubLinear2 => rw [texelOffset_ubLinear2 tiling]; omega
  | uif => rw [texelOffset_uif_index tiling]; omega

/-- Every texel's word lies inside the level. -/
theorem texelOffset_lt (shaped : l.Shaped) (hx : x < l.width) (hy : y < l.height) :
    texelOffset l x y + 4 ≤ l.paddedWidth * l.paddedHeight * 4 := by
  have width := shaped.width_le
  have height := shaped.height_le
  cases tiling : l.tiling with
  | linear =>
    obtain ⟨hw, hh, one | one⟩ := shaped.linear tiling
    all_goals
      rw [texelOffset_linear tiling]
      simp only [one] at width height ⊢
      omega
  | ubLinear1 =>
    obtain ⟨hw, hh⟩ := shaped.ubLinear1 tiling
    have place := inBlock_lt (x := x) (y := y)
    rw [texelOffset_ubLinear1 tiling]
    rw [hw] at width ⊢
    omega
  | ubLinear2 =>
    obtain ⟨hw, hh⟩ := shaped.ubLinear2 tiling
    have place := inBlock_lt (x := x) (y := y)
    rw [texelOffset_ubLinear2 tiling]
    rw [hw] at width ⊢
    omega
  | uif =>
    obtain ⟨hw, hh, -⟩ := shaped.uif tiling
    have rows : 0 < l.paddedHeight / 8 := by omega
    have column : x / 32 < l.paddedWidth / 32 := by omega
    have number := number_lt column (uifRow_lt (x := x) shaped tiling hy)
    have place := inBlock_lt (x := x) (y := y)
    have area : l.paddedWidth * l.paddedHeight * 4 =
        (l.paddedWidth / 32 * (l.paddedHeight / 8)) * 1024 := by
      conv_lhs => rw [show l.paddedWidth = l.paddedWidth / 32 * 32 by omega,
        show l.paddedHeight = l.paddedHeight / 8 * 8 by omega]
      ring
    rw [texelOffset_uif tiling rows, area]
    omega

/-- Two texels of a level never share their offset. -/
theorem texelOffset_inj (shaped : l.Shaped) (hx : x < l.width) (hx' : x' < l.width)
    (hy : y < l.height) (hy' : y' < l.height) (h : texelOffset l x y = texelOffset l x' y') :
    x = x' ∧ y = y' := by
  have width := shaped.width_le
  have height := shaped.height_le
  cases tiling : l.tiling with
  | linear =>
    obtain ⟨hw, hh, one | one⟩ := shaped.linear tiling
    all_goals
      rw [texelOffset_linear tiling, texelOffset_linear tiling] at h
      simp only [one] at width height
      omega
  | ubLinear1 =>
    obtain ⟨hw, hh⟩ := shaped.ubLinear1 tiling
    have place := inBlock_lt (x := x) (y := y)
    have place' : inBlock x' y' + 4 ≤ 256 := inBlock_lt
    rw [texelOffset_ubLinear1 tiling, texelOffset_ubLinear1 tiling] at h
    have same : inBlock x y = inBlock x' y' := by omega
    obtain ⟨hx8, hy8⟩ := inBlock_inj same
    omega
  | ubLinear2 =>
    obtain ⟨hw, hh⟩ := shaped.ubLinear2 tiling
    have place := inBlock_lt (x := x) (y := y)
    have place' : inBlock x' y' + 4 ≤ 256 := inBlock_lt
    rw [texelOffset_ubLinear2 tiling, texelOffset_ubLinear2 tiling] at h
    have same : inBlock x y = inBlock x' y' := by omega
    obtain ⟨hx8, hy8⟩ := inBlock_inj same
    omega
  | uif =>
    obtain ⟨hw, hh, -⟩ := shaped.uif tiling
    have rows : 0 < l.paddedHeight / 8 := by omega
    rw [texelOffset_uif tiling rows, texelOffset_uif tiling rows] at h
    have place := inBlock_lt (x := x) (y := y)
    have place' : inBlock x' y' + 4 ≤ 256 := inBlock_lt
    have number : x / 32 * (l.paddedHeight / 8) + uifRow l x y =
        x' / 32 * (l.paddedHeight / 8) + uifRow l x' y' := by omega
    obtain ⟨column, row⟩ := number_inj (uifRow_lt shaped tiling hy) (uifRow_lt shaped tiling hy') number
    have same : inBlock x y = inBlock x' y' := by omega
    obtain ⟨hx8, hy8⟩ := inBlock_inj same
    have hy_eq := uifRow_inj column row
    omega

end Pi5Drivers.Texture
