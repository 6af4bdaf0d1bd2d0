import Pi5Drivers.Texture.Chain

/-! The encoder of textures without smaller levels. It numbers the words of a UIF level by a
formula of its own, and it clears what it fills; what it leaves is what a chain of one level
leaves in a cleared buffer. -/

namespace Pi5Drivers.Texture

/-- The bytes from `a` on set to zero. -/
def clear (m : Memory) (a n : ℕ) : Memory := fun i => if a ≤ i ∧ i < a + n then 0 else m i

def textureBytes (width height : ℕ) : ℕ :=
  if width = 0 ∨ height = 0 ∨ 4096 < width ∨ 4096 < height then 0 else (width + 31) / 32 * 32 * ((height + 7) / 8 * 8) * 4

/-- The word of a texel: four blocks of eight by eight in a column, four utiles in a block. -/
def wordOffset (rows x y : ℕ) : ℕ :=
  let block := x / 32 * rows * 4 + y / 8 * 4 + x / 8 % 4
  block * 64 + y / 4 % 2 * 32 + x / 4 % 2 * 16 + y % 4 * 4 + x % 4

/-- Writes a texture at `destination`, and reports its bytes whether it does or not. The pointers of the source
are four-byte aligned; `source` is the array of words it reads. -/
def encodeTexture (width height pitch : ℕ) (source : ℕ → BitVec 32) (destination capacity : ℕ) (m : Memory) : ℕ × Option Memory :=
  let bytes := textureBytes width height
  if bytes = 0 ∨ capacity < bytes ∨ pitch < width * 4 ∨ 16384 < pitch ∨ pitch % 4 ≠ 0 ∨ destination % 4 ≠ 0 then (bytes, none)
  else
    let rows := (height + 7) / 8
    (bytes, some ((clear m destination bytes).writeAll (fun t => destination + wordOffset rows t.1 t.2 * 4)
      (fun t => source (t.2 * (pitch / 4) + t.1)) (texels width height)))

section Single

variable {width height : ℕ}

/-- The word's number is the byte's, without an XOR of the block row. -/
theorem wordOffset_eq {l : TextureLevel} (x y : ℕ) (tiling : l.tiling = .uif) (plain : l.xorEnabled = false) (rows : 0 < l.paddedHeight / 8) :
    wordOffset (l.paddedHeight / 8) x y * 4 = texelOffset l x y := by
  have row : uifRow l x y = y / 8 := by simp [uifRow, plain]
  have bit (n k : ℕ) : (if n / 4 % 2 = 1 then k else 0) = n / 4 % 2 * k := by
    rcases Nat.mod_two_eq_zero_or_one (n / 4) with even | odd
    · simp [even]
    · simp [odd]
  rw [texelOffset_uif tiling rows, row, inBlock, bit, bit, wordOffset]
  ring

/-- The only level of a chain is the texture, padded to whole columns and block rows. -/
def onlyLevel (width height : ℕ) : TextureLevel :=
  ⟨0, width, height, (width + 31) / 32 * 32, (height + 7) / 8 * 8, .uif, false⟩

theorem levelOf_zero (hw : 0 < width) (hh : 0 < height) : levelOf width height 0 = onlyLevel width height := by
  simp [levelOf, padLevel, tiledSize_zero hw, tiledSize_zero hh, minify_zero hw, minify_zero hh, align, onlyLevel]

/-- The layout of a chain of one level: the level at its start, and no other byte. -/
theorem layoutTextureChain_one (hw : 0 < width) (hw' : width ≤ 4096) (hh : 0 < height) (hh' : height ≤ 4096) :
    layoutTextureChain width height 1 = some ⟨1, textureBytes width height, 0, [onlyLevel width height]⟩ := by
  have bytes : levelSize width height 0 = textureBytes width height := by
    have accepted : ¬(width = 0 ∨ height = 0 ∨ 4096 < width ∨ 4096 < height) := by omega
    rw [levelSize, levelOf_zero hw hh, textureBytes, if_neg accepted]
    rfl
  have none_above : above width height 0 = 0 := rfl
  have base : align (above width height 0) pageBytes = 0 := by
    rw [none_above]
    decide
  unfold layoutTextureChain
  rw [if_neg (by unfold maxLevels; omega), if_neg (by unfold possibleLevels; omega)]
  simp only [Nat.sub_self, base, Nat.zero_sub, Nat.zero_add, bytes, List.range_one, List.map_cons, List.map_nil, levelOf_zero hw hh]
  rfl

theorem layoutTextureChain_refused (h : width = 0 ∨ height = 0 ∨ 4096 < width ∨ 4096 < height) :
    layoutTextureChain width height 1 = none := if_pos (by omega)

/-- The two encoders report the same size, accept the same textures up to the longest pitch, and leave the
same memory. -/
theorem encodeTexture_eq (width height pitch : ℕ) (source : ℕ → BitVec 32) (destination capacity : ℕ) (m : Memory) :
    encodeTexture width height pitch source destination capacity m =
      ((layoutTextureChain width height 1).elim 0 TextureChain.bytes,
        if 16384 < pitch then none
        else (layoutTextureChain width height 1).bind fun chain =>
          encodeTextureLevel chain 0 source pitch destination capacity (clear m destination chain.bytes)) := by
  by_cases refused : width = 0 ∨ height = 0 ∨ 4096 < width ∨ 4096 < height
  · have none' : textureBytes width height = 0 := if_pos refused
    simp [encodeTexture, none', layoutTextureChain_refused refused]
  have area : textureBytes width height = (width + 31) / 32 * 32 * ((height + 7) / 8 * 8) * 4 := if_neg refused
  have pos : textureBytes width height ≠ 0 := by
    have columns : (width + 31) / 32 ≠ 0 := by omega
    have rows : (height + 7) / 8 ≠ 0 := by omega
    simp [area, columns, rows]
  rw [layoutTextureChain_one (by omega) (by omega) (by omega) (by omega)]
  have rows : (onlyLevel width height).paddedHeight / 8 = (height + 7) / 8 := Nat.mul_div_cancel _ (by decide)
  have place (x y : ℕ) : destination + wordOffset ((height + 7) / 8) x y * 4 =
      destination + (onlyLevel width height).offset + texelOffset (onlyLevel width height) x y := by
    rw [← rows, wordOffset_eq x y rfl rfl (by omega)]
    rfl
  have inside : ¬textureBytes width height < 0 + (onlyLevel width height).paddedWidth * (onlyLevel width height).paddedHeight * 4 := by
    rw [area, Nat.zero_add]
    exact lt_irrefl _
  simp only [encodeTexture, pos, false_or, Option.elim_some, Option.bind_some, encodeTextureLevel, List.getElem?_cons_zero, place]
  by_cases long : 16384 < pitch
  · simp [long]
  · rw [if_neg long, ← apply_ite (Prod.mk (textureBytes width height))]
    refine congrArg _ (if_congr ?_ rfl rfl)
    have := inside
    simp only [onlyLevel] at this ⊢
    tauto

end Single

end Pi5Drivers.Texture
