import Pi5Drivers.Lib.Memory
import Mathlib.Data.Nat.Log
import Mathlib.Tactic.Ring

/-! The storage format of texture mip chains. Level 0 lies at the end of the
chain, page aligned, and every smaller level directly below the one before it.
The tiling of a level follows from its size, which from level 2 on is that of
the chain rounded up to powers of two. Sizes are products of dimensions of at
most 4096 texels, far below the 32 bits the source computes them in. -/

namespace Pi5Drivers.Texture

/-- `value` rounded up to a multiple of `alignment`, a power of two. -/
def align (value alignment : ℕ) : ℕ := (value + alignment - 1) / alignment * alignment

def pageBytes : ℕ := 4096

def pageCacheRows : ℕ := 32

def pageRowsTimes15 : ℕ := 6

def maxLevels : ℕ := 13

def minify (value level : ℕ) : ℕ := if value / 2 ^ level = 0 then 1 else value / 2 ^ level

def nextPowerOfTwo (value : ℕ) : ℕ := 2 ^ Nat.clog 2 value

/-- The block rows the texture unit adds to a UIF level below the first. -/
def uifPad (paddedHeight : ℕ) : ℕ :=
  let rows := paddedHeight / 8
  let offset := rows % pageCacheRows
  if offset = 0 then 0
  else if offset < pageRowsTimes15 then
    if rows < pageCacheRows then 0 else pageRowsTimes15 - offset
  else if pageCacheRows - pageRowsTimes15 < offset then pageCacheRows - offset
  else 0

inductive Tiling
  | linear
  | ubLinear1
  | ubLinear2
  | uif
  deriving DecidableEq, Repr

structure TextureLevel where
  offset : ℕ
  width : ℕ
  height : ℕ
  paddedWidth : ℕ
  paddedHeight : ℕ
  tiling : Tiling
  xorEnabled : Bool
  deriving DecidableEq, Repr

structure TextureChain where
  levels : ℕ
  bytes : ℕ
  base : ℕ
  level : List TextureLevel
  deriving DecidableEq, Repr

/-- The tiling, padded size and XOR bit of level `i` from its unpadded size. -/
def padLevel (i w h : ℕ) : Tiling × ℕ × ℕ × Bool :=
  if i ≠ 0 ∧ (w ≤ 4 ∨ h ≤ 4) then (.linear, align w 4, align h 4, false)
  else if i ≠ 0 ∧ w ≤ 8 then (.ubLinear1, align w 8, align h 8, false)
  else if i ≠ 0 ∧ w ≤ 16 then (.ubLinear2, align w 16, align h 8, false)
  else if i ≠ 0 then
    let h := align h 8 + uifPad (align h 8) * 8
    (.uif, align w 32, h, h / 8 % pageCacheRows = 0)
  else (.uif, align w 32, align h 8, false)

/-- The size a level is tiled with: its own for the first two levels, from then
on that of the chain rounded up to a power of two. -/
def tiledSize (size i : ℕ) : ℕ :=
  if i < 2 then minify size i else minify (2 * nextPowerOfTwo (minify size 1)) i

/-- Level `i` of a texture of `width` by `height` texels, not placed yet. -/
def levelOf (width height i : ℕ) : TextureLevel :=
  let (tiling, w, h, xor) := padLevel i (tiledSize width i) (tiledSize height i)
  ⟨0, minify width i, minify height i, w, h, tiling, xor⟩

/-- The bytes of the chain set aside for a level. -/
def levelSize (width height i : ℕ) : ℕ :=
  let l := levelOf width height i
  let size := l.paddedWidth * l.paddedHeight * 4
  -- The texture unit page-aligns level 1 when it or a smaller one could be UIF XOR.
  if i = 1 ∧ 32 < l.paddedWidth ∧ (pageCacheRows - pageRowsTimes15) * 8 < l.paddedHeight then
    align size pageBytes
  else size

/-- The bytes of the levels 1 to `i`. -/
def above (width height i : ℕ) : ℕ := ((List.range i).map fun j => levelSize width height (j + 1)).sum

/-- The number of levels of a full chain: `possible` counts up while `largest`
shifted by it is not zero. -/
def possibleLevels (largest : ℕ) : ℕ := Nat.log2 largest + 1

def layoutTextureChain (width height levels : ℕ) : Option TextureChain :=
  if width = 0 ∨ height = 0 ∨ 4096 < width ∨ 4096 < height ∨ levels = 0 ∨ maxLevels < levels then none
  else if possibleLevels (max width height) < levels then none
  else
    let base := align (above width height (levels - 1)) pageBytes
    some {
      levels, base
      bytes := base + levelSize width height 0
      level := (List.range levels).map fun i =>
        { levelOf width height i with offset := base - above width height i } }

/-- The byte of a level that holds texel `(x, y)`. -/
def texelOffset (l : TextureLevel) (x y : ℕ) : ℕ :=
  let utile := y % 4 * 16 + x % 4 * 4
  let inBlock := (if x / 4 % 2 = 1 then 64 else 0) + (if y / 4 % 2 = 1 then 128 else 0) + utile
  match l.tiling with
  | .linear => 64 * (x / 4 + y / 4) + utile
  | .ubLinear1 => 256 * (y / 8 * 1 + x / 8) + inBlock
  | .ubLinear2 => 256 * (y / 8 * 2 + x / 8) + inBlock
  | .uif =>
    let bx := x / 8
    let by_ := if l.xorEnabled ∧ bx / 4 % 2 = 1 then y / 8 ^^^ 16 else y / 8
    (bx / 4 * ((l.paddedHeight / 8 - 1) * 4) + bx + by_ * 4) * 256 + inBlock

/-- A level's texels row by row, as the encoder visits them. -/
def texels (width height : ℕ) : List (ℕ × ℕ) :=
  (List.range height).flatMap fun y => (List.range width).map fun x => (x, y)

/-- Writes one level into a chain at `destination`. The pointers of the source
are four-byte aligned; `source` is the array of words it reads. -/
def encodeTextureLevel (chain : TextureChain) (level : ℕ) (source : ℕ → BitVec 32) (pitch : ℕ)
    (destination : ℕ) (capacity : ℕ) (m : Memory) : Option Memory :=
  match chain.level[level]? with
  | none => none
  | some l =>
    if capacity < chain.bytes ∨ destination % 4 ≠ 0 ∨ pitch % 4 ≠ 0 ∨ pitch < l.width * 4 ∨
        chain.bytes < l.offset + l.paddedWidth * l.paddedHeight * 4 then none
    else some (m.writeAll (fun t => destination + l.offset + texelOffset l t.1 t.2)
      (fun t => source (t.2 * (pitch / 4) + t.1)) (texels l.width l.height))

/-! ### Sizes -/

section Sizes

variable {size width height i j : ℕ}

theorem minify_eq : minify size i = max 1 (size / 2 ^ i) := by
  unfold minify
  generalize size / 2 ^ i = halved
  split <;> omega

theorem minify_pos : 0 < minify size i := by
  rw [minify_eq]
  exact Nat.lt_of_lt_of_le Nat.zero_lt_one (Nat.le_max_left 1 _)

theorem minify_zero (h : 0 < size) : minify size 0 = size := by
  simp [minify]
  omega

theorem minify_one : minify size 1 = max 1 (size / 2) := by
  rw [minify_eq, Nat.pow_one]

theorem minify_le_of_le (h : i ≤ j) : minify size j ≤ minify size i := by
  rw [minify_eq, minify_eq]
  have halved : size / 2 ^ j ≤ size / 2 ^ i :=
    Nat.div_le_div_left (Nat.pow_le_pow_right (by omega) h) (Nat.two_pow_pos i)
  omega

theorem minify_mono {size' : ℕ} (h : size ≤ size') : minify size i ≤ minify size' i := by
  rw [minify_eq, minify_eq]
  have := Nat.div_le_div_right (c := 2 ^ i) h
  omega

theorem le_nextPowerOfTwo : size ≤ nextPowerOfTwo size := Nat.le_pow_clog (by omega) size

theorem nextPowerOfTwo_le {k : ℕ} (h : size ≤ 2 ^ k) : nextPowerOfTwo size ≤ 2 ^ k :=
  Nat.pow_le_pow_right (by omega) (Nat.clog_le_of_le_pow h)

/-- A level is never larger than the size it is tiled with. -/
theorem minify_le_tiledSize : minify size i ≤ tiledSize size i := by
  unfold tiledSize
  split
  · exact le_rfl
  · have half : minify size i ≤ minify (2 * minify size 1) i := by
      obtain ⟨k, rfl⟩ : ∃ k, i = k + 1 := ⟨i - 1, by omega⟩
      rw [minify_eq, minify_eq, minify_one, Nat.pow_succ', ← Nat.div_div_eq_div_mul,
        ← Nat.div_div_eq_div_mul, Nat.mul_div_cancel_left _ (by omega)]
      have := Nat.div_le_div_right (c := 2 ^ k) (Nat.le_max_right 1 (size / 2))
      omega
    exact half.trans (minify_mono (Nat.mul_le_mul_left 2 le_nextPowerOfTwo))

theorem tiledSize_pos : 0 < tiledSize size i := minify_pos.trans_le minify_le_tiledSize

/-- Tiled sizes fall from level to level. -/
theorem tiledSize_le_of_le (hi : 0 < i) (h : i ≤ j) : tiledSize size j ≤ tiledSize size i := by
  unfold tiledSize
  split
  · rw [if_pos (by omega)]
    exact minify_le_of_le h
  · split
    · -- level 1 is tiled with its own size, which the rounded chain halves at least
      obtain rfl : i = 1 := by omega
      refine (minify_le_of_le (show 2 ≤ j by omega)).trans ?_
      rw [minify_eq]
      have pos : 0 < minify size 1 := minify_pos
      rcases Nat.eq_or_lt_of_le (show 1 ≤ minify size 1 from pos) with one | more
      · simp [← one, nextPowerOfTwo]
      · have below : nextPowerOfTwo (minify size 1) < 2 * minify size 1 := by
          have succ := Nat.pow_pred_clog_lt_self (b := 2) (by omega) more
          have cut : 0 < Nat.clog 2 (minify size 1) := Nat.clog_pos (by omega) more
          unfold nextPowerOfTwo
          obtain ⟨c, hc⟩ : ∃ c, Nat.clog 2 (minify size 1) = c + 1 := ⟨_, (Nat.succ_pred_eq_of_pos cut).symm⟩
          rw [hc] at succ ⊢
          simp only [Nat.pred_eq_sub_one, Nat.add_sub_cancel] at succ
          rw [Nat.pow_succ]
          omega
        omega
    · exact minify_le_of_le h

theorem tiledSize_zero (h : 0 < size) : tiledSize size 0 = size := by
  rw [tiledSize, if_pos (by omega), minify_zero h]

theorem tiledSize_le (h : size ≤ 4096) (hi : 0 < i) : tiledSize size i ≤ 2048 := by
  refine (tiledSize_le_of_le (i := 1) (by omega) hi).trans ?_
  rw [tiledSize, if_pos (by omega), minify_one]
  omega

theorem uifPad_le : uifPad height ≤ 5 := by
  unfold uifPad pageCacheRows pageRowsTimes15
  grind

end Sizes

end Pi5Drivers.Texture
