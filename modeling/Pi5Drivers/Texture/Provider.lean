import Pi5Drivers.Gpu.Blit
import Pi5Drivers.Texture.Chain

/-! The provider's side of a texture conversion. The kernel driver lays a view
out with `layoutTextureChain` and asks the provider to tile each level into its
region; the provider works the destination's size out again from the level's own
size, the tiling it is asked for and the block rows. -/

namespace Pi5Drivers.Texture

open Gpu (AllocationInfo Level allocationLevel validateAllocation validateRegion blitWindow RegionCommand
  Window LevelIn)

/-- The fields of a `PI5_V3D_BUFFER_TILE` request. -/
structure TileRequest where
  sourceOffset : ℕ
  destinationOffset : ℕ
  width : ℕ
  height : ℕ
  sourcePitch : ℕ
  layout : ℕ
  outputRows : ℕ
  deriving DecidableEq, Repr

/-- The request for a level whose allocation starts at `data` of the segment and
whose chain starts at `arena` of the texture buffer. -/
def tileRequest (data arena : ℕ) (level : Level) (out : TextureLevel) : TileRequest where
  sourceOffset := data + level.offset
  destinationOffset := arena + out.offset
  width := level.width
  height := level.height
  sourcePitch := level.pitch
  layout := match out.tiling with
    | .linear => 3
    | .ubLinear1 => 4
    | .ubLinear2 => 5
    | .uif => if out.xorEnabled then 7 else 6
  outputRows := if out.tiling = .uif then out.paddedHeight / 8 else 0

/-- The chain of a view of `count` levels from level `first` of an allocation. -/
def viewChain (a : AllocationInfo) (first count : ℕ) : Option TextureChain :=
  (allocationLevel a first).bind fun l => layoutTextureChain l.width l.height count

structure ProviderLayout where
  sourceBytes : ℕ
  destinationBytes : ℕ
  outputConfig : ℕ
  deriving DecidableEq, Repr

/-- The provider's `V3dTextureLayout`. -/
def v3dTextureLayout (width height pitch layout rows : ℕ) : Option ProviderLayout :=
  if width = 0 ∨ 4096 < width ∨ height = 0 ∨ 4096 < height ∨ pitch < width * 4 ∨ 16384 < pitch ∨
      pitch % 4 ≠ 0 then none
  else
    let result (w h : ℕ) := some ⟨pitch * height, w * h * 4, layout <<< 12 ||| rows <<< 16⟩
    match layout with
    | 3 =>
      if rows ≠ 0 ∨ (4 < width ∧ 4 < height) then none
      else result (align width 4) (align height 4)
    | 4 => if rows ≠ 0 ∨ 8 < width then none else result 8 (align height 8)
    | 5 => if rows ≠ 0 ∨ 16 < width then none else result 16 (align height 8)
    | 6 => if rows < (height + 7) / 8 ∨ 512 < rows then none else result (align width 32) (rows * 8)
    | 7 =>
      if rows < (height + 7) / 8 ∨ 512 < rows ∨ rows % 32 ≠ 0 then none
      else result (align width 32) (rows * 8)
    | _ => none

/-- The surfaces whose texels are converted: a validated allocation at its page
of the segment, or the window of a region copy out of one. -/
inductive Sampled : AllocationInfo → ℕ → Prop
  | allocation {a : AllocationInfo} {data : ℕ} : validateAllocation a = true → a.dimension = 3 →
      data % 4096 = 0 → Sampled a data
  | window {destination source : AllocationInfo} {region : RegionCommand} {w : Window} {data : ℕ} :
      validateAllocation source = true → source.dimension = 3 → source.levels = 1 → data % 4096 = 0 →
      validateRegion destination source region = true → blitWindow source region = some w →
      Sampled w.view (data + w.offset)

section Agreement

variable {a : AllocationInfo} {data arena first count i : ℕ} {chain : TextureChain}

theorem surface_of_sampled (h : Sampled a data) : a.Surface ∧ data % 64 = 0 := by
  cases h with
  | allocation valid surface page =>
    exact ⟨Gpu.surface_of_validateAllocation valid surface, by omega⟩
  | @window destination source region w data valid surface one page copy cut =>
    have whole := Gpu.surface_of_validateAllocation valid surface
    obtain ⟨-, -, dst, src, -, level, wide, high, xs, ys, -, -⟩ := Gpu.validateRegion_spec copy
    have deep : region.sourceLevel < source.levels := by
      unfold allocationLevel at level
      split at level
      · cases level
      · omega
    obtain ⟨out, found, level_in⟩ := Gpu.allocationLevel_surface whole deep
    obtain rfl := Option.some.inj (level.symm.trans found)
    have src_height : src.height ≤ 4096 := by
      rw [level_in.height_eq, minify_eq]
      exact max_le (by omega) ((Nat.div_le_self _ _).trans whole.height_le)
    obtain ⟨aligned, -, view, small, fits, -⟩ := Gpu.blitWindow_some cut whole.pitch_mod
    refine ⟨?_, by omega⟩
    rw [view] at small fits ⊢
    refine ⟨surface, Nat.add_pos_right _ wide, small, high, by dsimp only; omega, fits, whole.pitch_max,
      whole.pitch_mod, whole.levels_pos, ?_⟩
    simp [Gpu.levelChain, one, Gpu.levelChainFrom]

theorem minify_minify (size d e : ℕ) : minify (minify size d) e = minify size (d + e) := by
  rw [minify_eq, minify_eq, minify_eq, Nat.pow_add, ← Nat.div_div_eq_div_mul]
  generalize size / 2 ^ d = part
  rcases Nat.eq_zero_or_pos part with rfl | pos
  · have := Nat.div_le_self 1 (2 ^ e)
    simp
    omega
  · rw [max_eq_right (Nat.succ_le_of_lt pos)]

/-- The level of the chain has the size of the allocation's level. -/
theorem level_agrees (surface : a.Surface) (inside : first + count ≤ a.levels)
    (laid : viewChain a first count = some chain) (hi : i < count) :
    ∃ (top level : Level) (out : TextureLevel), layoutTextureChain top.width top.height count = some chain ∧
      allocationLevel a (first + i) = some level ∧ chain.level[i]? = some out ∧
      LevelIn level (first + i) a.width a.height 16384 a.bytes ∧
      out = { levelOf top.width top.height i with offset := out.offset } ∧
      level.width = minify top.width i ∧ level.height = minify top.height i := by
  obtain ⟨top, top_eq, layout⟩ := Option.bind_eq_some_iff.mp laid
  obtain ⟨top', top_eq', top_in⟩ := Gpu.allocationLevel_surface surface (show first < a.levels by omega)
  obtain rfl := Option.some.inj (top_eq.symm.trans top_eq')
  obtain ⟨level, level_eq, level_in⟩ := Gpu.allocationLevel_surface surface (show first + i < a.levels by omega)
  obtain ⟨-, -, -, -, -, -, -, -, entry⟩ := layoutTextureChain_some layout
  refine ⟨top, level, _, layout, level_eq, (entry i _).mpr ⟨hi, rfl⟩, level_in, rfl, ?_, ?_⟩
  · rw [top_in.width_eq, minify_minify, level_in.width_eq]
  · rw [top_in.height_eq, minify_minify, level_in.height_eq]

theorem align_mono {m n k : ℕ} (h : m ≤ n) : align m k ≤ align n k :=
  Nat.mul_le_mul_right k (Nat.div_le_div_right (by omega))

/-- The provider accepts each level as it was laid out, and its own size for the
destination is at most that of the padded level. -/
theorem v3dTextureLayout_level {top : Level} {level : Level} {out : TextureLevel} (hw0 : 0 < top.width)
    (hw : top.width ≤ 4096) (hh0 : 0 < top.height) (hh : top.height ≤ 4096)
    (shape : out = { levelOf top.width top.height i with offset := out.offset })
    (width_eq : level.width = minify top.width i) (height_eq : level.height = minify top.height i)
    (wide : level.width * 4 ≤ level.pitch) (most : level.pitch ≤ 16384) (mod : level.pitch % 64 = 0) :
    ∃ l, v3dTextureLayout level.width level.height level.pitch (tileRequest data arena level out).layout
        (tileRequest data arena level out).outputRows = some l ∧
      l.sourceBytes = level.pitch * level.height ∧
      l.destinationBytes ≤ out.paddedWidth * out.paddedHeight * 4 := by
  obtain ⟨p, padding, laid⟩ := levelOf_padding top.width top.height i
  obtain ⟨-, tall⟩ := padded_le (i := i) hw hh hw0 hh0
  have narrower : level.width ≤ tiledSize top.width i := width_eq ▸ minify_le_tiledSize
  have lower : level.height ≤ tiledSize top.height i := height_eq ▸ minify_le_tiledSize
  have wpos : 0 < level.width := width_eq ▸ minify_pos
  have hpos : 0 < level.height := height_eq ▸ minify_pos
  have hlow : level.height ≤ 4096 := by
    rw [height_eq, minify_eq]
    exact max_le (by omega) ((Nat.div_le_self _ _).trans hh)
  have sizes : ¬(level.width = 0 ∨ 4096 < level.width ∨ level.height = 0 ∨ 4096 < level.height ∨
      level.pitch < level.width * 4 ∨ 16384 < level.pitch ∨ level.pitch % 4 ≠ 0) := by omega
  have w4 := align_mono (k := 4) narrower
  have w32 := align_mono (k := 32) narrower
  have h4 := align_mono (k := 4) lower
  have h8 := align_mono (k := 8) lower
  have pad8 := align_eight (n := tiledSize top.height i)
  rw [laid] at shape tall
  rw [v3dTextureLayout, if_neg sizes, shape]
  cases padding with
  | linear _ small =>
    refine ⟨_, if_neg (by dsimp only [tileRequest]; simp; omega), rfl, ?_⟩
    exact Nat.mul_le_mul_right 4 (Nat.mul_le_mul w4 h4)
  | ubLinear1 _ more less _ =>
    have w8 := align_eight (n := tiledSize top.width i)
    have one : 8 ≤ align (tiledSize top.width i) 8 := by omega
    refine ⟨_, if_neg (by dsimp only [tileRequest]; simp; omega), rfl, ?_⟩
    exact Nat.mul_le_mul_right 4 (Nat.mul_le_mul one h8)
  | ubLinear2 _ more less _ =>
    have w16 := align_sixteen (n := tiledSize top.width i)
    have one : 16 ≤ align (tiledSize top.width i) 16 := by omega
    refine ⟨_, if_neg (by dsimp only [tileRequest]; simp; omega), rfl, ?_⟩
    exact Nat.mul_le_mul_right 4 (Nat.mul_le_mul one h8)
  | uif pad xor _ _ _ _ aligned =>
    dsimp only at tall
    have rows : (align (tiledSize top.height i) 8 + pad * 8) / 8 * 8 =
        align (tiledSize top.height i) 8 + pad * 8 := by omega
    cases xor with
    | false =>
      refine ⟨_, if_neg (by dsimp only [tileRequest]; simp; omega), rfl, ?_⟩
      exact Nat.mul_le_mul_right 4 (Nat.mul_le_mul w32 rows.le)
    | true =>
      have whole := aligned rfl
      refine ⟨_, if_neg (by dsimp only [tileRequest]; simp; omega), rfl, ?_⟩
      exact Nat.mul_le_mul_right 4 (Nat.mul_le_mul w32 rows.le)
  | first _ =>
    dsimp only at tall
    have rows : align (tiledSize top.height i) 8 / 8 * 8 = align (tiledSize top.height i) 8 := by omega
    refine ⟨_, if_neg (by dsimp only [tileRequest]; simp; omega), rfl, ?_⟩
    exact Nat.mul_le_mul_right 4 (Nat.mul_le_mul w32 rows.le)

end Agreement

/-- **The two layouts agree.** Whatever level of a view is converted, the
provider accepts the request, its addresses have the alignment the transfer unit
needs, the texels it reads are the allocation's, and what it writes lies in the
region of that level and in no other. -/
theorem tileRequest_accepted (a : AllocationInfo) (data arena first count i : ℕ) (chain : TextureChain)
    (source : Sampled a data) (inside : first + count ≤ a.levels) (page : arena % 4096 = 0)
    (laid : viewChain a first count = some chain) (hi : i < count) :
    ∃ level out l, allocationLevel a (first + i) = some level ∧ chain.level[i]? = some out ∧
      v3dTextureLayout (tileRequest data arena level out).width (tileRequest data arena level out).height
        (tileRequest data arena level out).sourcePitch (tileRequest data arena level out).layout
        (tileRequest data arena level out).outputRows = some l ∧
      ((tileRequest data arena level out).sourceOffset ||| (tileRequest data arena level out).destinationOffset) &&& 63
        = 0 ∧
      data ≤ (tileRequest data arena level out).sourceOffset ∧
      (tileRequest data arena level out).sourceOffset + l.sourceBytes ≤ data + a.bytes ∧
      (tileRequest data arena level out).destinationOffset = arena + out.offset ∧
      l.destinationBytes ≤ out.paddedWidth * out.paddedHeight * 4 ∧
      out.offset + out.paddedWidth * out.paddedHeight * 4 ≤ chain.bytes ∧
      ∀ j other, j ≠ i → chain.level[j]? = some other →
        out.offset + l.destinationBytes ≤ other.offset ∨
        other.offset + other.paddedWidth * other.paddedHeight * 4 ≤ out.offset := by
  obtain ⟨surface, aligned⟩ := surface_of_sampled source
  obtain ⟨top, level, out, layout, level_eq, out_eq, level_in, shape, width_eq, height_eq⟩ :=
    level_agrees surface inside laid hi
  obtain ⟨hw0, hw, hh0, hh, -⟩ := layoutTextureChain_some layout
  obtain ⟨l, accepted, source_bytes, destination_bytes⟩ :
      ∃ l, v3dTextureLayout level.width level.height level.pitch (tileRequest data arena level out).layout
          (tileRequest data arena level out).outputRows = some l ∧
        l.sourceBytes = level.pitch * level.height ∧ l.destinationBytes ≤ out.paddedWidth * out.paddedHeight * 4 :=
    v3dTextureLayout_level hw0 hw hh0 hh shape width_eq height_eq level_in.pitch_le (by simpa using level_in.pitch_max)
      level_in.pitch_mod
  obtain ⟨-, -, -, region_inside, area, -⟩ := region layout out_eq
  have utile : 64 ∣ out.offset := by
    refine Dvd.dvd.trans ?_ (offset_aligned layout out_eq).1
    cases out.tiling <;> decide
  refine ⟨level, out, l, level_eq, out_eq, accepted, ?_, ?_, ?_, rfl, destination_bytes, by omega, ?_⟩
  · have sum : (data + level.offset) % 64 = 0 := by have := level_in.offset_mod; omega
    have place : (arena + out.offset) % 64 = 0 := by omega
    dsimp only [tileRequest]
    rw [show 63 = 2 ^ 6 - 1 by rfl, Nat.and_two_pow_sub_one_eq_mod, Nat.or_mod_two_pow]
    simp only [Nat.reducePow, sum, place, Nat.or_self]
  · dsimp only [tileRequest]
    omega
  · have := level_in.inside
    dsimp only [tileRequest]
    omega
  · intro j other hj other_eq
    have := (region layout other_eq).2.2.2.2.1
    have := region_disjoint layout hj.symm out_eq other_eq
    omega

/-- A surface of 70 by 40 texels and its two smaller levels. -/
def mippedSurface : AllocationInfo where
  version := 21
  bytes := 20480
  width := 70
  height := 40
  pitch := 320
  format := 87
  bindFlags := 8
  dimension := 3
  miscFlags := 0
  levels := 3
  privateFlags := 0
  reserved := 0
  refreshNumerator := 0
  refreshDenominator := 0

theorem mippedSurface_accepted :
    ∃ chain level out l, viewChain mippedSurface 1 2 = some chain ∧
      allocationLevel mippedSurface (1 + 1) = some level ∧ chain.level[1]? = some out ∧
      v3dTextureLayout (tileRequest 8192 4096 level out).width (tileRequest 8192 4096 level out).height
        (tileRequest 8192 4096 level out).sourcePitch (tileRequest 8192 4096 level out).layout
        (tileRequest 8192 4096 level out).outputRows = some l ∧
      l.destinationBytes ≤ out.paddedWidth * out.paddedHeight * 4 := by
  obtain ⟨level, out, l, level_eq, out_eq, accepted, -, -, -, -, bytes, -⟩ :=
    tileRequest_accepted mippedSurface 8192 4096 1 2 1 _ (.allocation (by decide) rfl rfl) (by decide) rfl rfl
      (by decide)
  exact ⟨_, level, out, l, rfl, level_eq, out_eq, accepted, bytes⟩

end Pi5Drivers.Texture
