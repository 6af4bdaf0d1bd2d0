import Pi5Drivers.Abi
import Pi5Drivers.Texture.Layout

/-! Allocations (`Pi5AllocationInfo`): buffers of bytes and surfaces of 32-bit
texels with their mip levels stored one after the other. Level 0 uses the pitch
of the allocation; the smaller ones have 64-byte aligned pitches and start on
256-byte boundaries. -/

namespace Pi5Drivers.Gpu

open Texture (minify possibleLevels align)

structure AllocationInfo where
  version : ℕ
  bytes : ℕ
  width : ℕ
  height : ℕ
  pitch : ℕ
  format : ℕ
  bindFlags : BitVec 32
  dimension : ℕ
  miscFlags : BitVec 32
  levels : ℕ
  privateFlags : BitVec 32
  reserved : ℕ
  refreshNumerator : ℕ
  refreshDenominator : ℕ
  deriving DecidableEq, Repr

/-- `PI5_RESOURCE_DISPLAYABLE`. -/
def displayable : BitVec 32 := 0x20000

/-- `PI5_ALLOCATION_GPU_ONLY`. -/
def gpuOnly : BitVec 32 := 1

/-- Allocations the CPU never maps (`Pi5CpuInvisible`). -/
def AllocationInfo.cpuInvisible (info : AllocationInfo) : Bool :=
  info.miscFlags &&& 0x102 ≠ 0 ∨ info.privateFlags &&& gpuOnly ≠ 0

/-- A mip level inside its allocation. -/
structure Level where
  offset : ℕ
  pitch : ℕ
  width : ℕ
  height : ℕ
  deriving DecidableEq, Repr

def halve (size : ℕ) : ℕ := if 1 < size then size / 2 else 1

/-- `Pi5LevelChain`, from its level `i` on with `n` levels to go: the level asked
for, when it is among them, and the bytes the chain takes up. -/
def levelChainFrom (level i offset width height pitch : ℕ) : ℕ → Option Level × ℕ
  | 0 => (none, 0)
  | n + 1 =>
    let here := if i = level then some ⟨offset, pitch, width, height⟩ else none
    let stop := offset + pitch * height
    if n = 0 then (here, stop)
    else
      let (later, bytes) := levelChainFrom level (i + 1) (align stop 256) (halve width) (halve height)
        (align (halve width * 4) 64) n
      (here <|> later, bytes)

def levelChain (width height pitch levels level : ℕ) : Option Level × ℕ :=
  levelChainFrom level 0 0 width height pitch levels

/-- `Pi5AllocationLevel`. -/
def allocationLevel (r : AllocationInfo) (level : ℕ) : Option Level :=
  if r.levels = 0 ∨ r.levels ≤ level then none
  else if r.dimension ≠ 3 then if level = 0 then some ⟨0, r.pitch, r.width, r.height⟩ else none
  else
    let (out, bytes) := levelChain r.width r.height r.pitch r.levels level
    if bytes ≤ r.bytes then out else none

/-- `PI5_UMD_ABI`. -/
def umdAbi : ℕ := 21

/-- `PI5_UMD_RESOURCE_BYTES`. -/
def umdResourceBytes : ℕ := 64 * 1024 * 1024

def colorFormat (format : ℕ) : Bool := format = 28 ∨ format = 87 ∨ format = 88

def validateAllocation (r : AllocationInfo) : Bool :=
  if (r.refreshNumerator ≠ 0 ∨ r.refreshDenominator ≠ 0) ∧
      (r.miscFlags &&& displayable = 0 ∨ r.refreshDenominator = 0) then false
  else if r.miscFlags &&& ~~~(0x10a ||| displayable) ≠ 0 ∨ (r.miscFlags ≠ 0 ∧ r.dimension ≠ 3) ∨
      r.reserved ≠ 0 ∨ r.privateFlags &&& ~~~gpuOnly ≠ 0 ∨ (r.privateFlags ≠ 0 ∧ r.dimension ≠ 3) then
    false
  else if r.miscFlags &&& displayable ≠ 0 ∧
      (r.bindFlags &&& 0x80 = 0 ∨ (r.format ≠ 87 ∧ r.format ≠ 88) ∨ r.levels ≠ 1) then false
  else if r.version ≠ umdAbi ∨ r.bytes = 0 ∨ umdResourceBytes < r.bytes ∨ r.bytes % 4096 ≠ 0 ∨
      r.width = 0 ∨ r.height = 0 ∨ r.pitch = 0 ∨ r.bytes < r.height * r.pitch then false
  else if r.dimension = 1 then
    r.format = 0 ∧ r.height = 1 ∧ r.pitch = r.width ∧ r.levels = 1
  else if r.dimension ≠ 3 ∨ !colorFormat r.format ∨ 4096 < r.width ∨ 4096 < r.height ∨
      r.pitch < r.width * 4 ∨ 16384 < r.pitch ∨ r.pitch % 64 ≠ 0 then false
  else
    1 ≤ r.levels ∧ r.levels ≤ possibleLevels (max r.width r.height) ∧
      (levelChain r.width r.height r.pitch r.levels 0).2 ≤ r.bytes

/-! ### Levels of an accepted allocation -/

section Levels

variable {r : AllocationInfo} {level i n offset width height pitch bytes : ℕ} {out : Level}

theorem halve_minify (size : ℕ) : halve (minify size i) = minify size (i + 1) := by
  rw [Texture.minify_eq, Texture.minify_eq, Nat.pow_succ, ← Nat.div_div_eq_div_mul]
  generalize size / 2 ^ i = halved
  unfold halve
  split <;> omega

theorem le_align (offset : ℕ) : offset ≤ align offset 256 := by
  unfold align
  omega

/-- What a level of a chain is: `d` levels further on the size is halved `d`
times, its rows hold its texels and it lies inside the chain. -/
structure LevelIn (out : Level) (d width height pitch bytes : ℕ) : Prop where
  width_eq : out.width = minify width d
  height_eq : out.height = minify height d
  pitch_le : out.width * 4 ≤ out.pitch
  pitch_mod : out.pitch % 64 = 0
  offset_mod : out.offset % 64 = 0
  inside : out.offset + out.pitch * out.height ≤ bytes
  pitch_max : out.pitch ≤ max pitch 16384

theorem levelChainFrom_spec (first : ℕ) (hw : width ≤ 4096)
    (wide : minify width i * 4 ≤ pitch) (mod : pitch % 64 = 0) (start : offset % 64 = 0)
    (most : pitch ≤ max first 16384) :
    (i ≤ level → level < i + n →
      ∃ out, (levelChainFrom level i offset (minify width i) (minify height i) pitch n).1 = some out ∧
        LevelIn out level width height first
          (levelChainFrom level i offset (minify width i) (minify height i) pitch n).2) ∧
    (0 < n → offset + pitch * minify height i ≤
      (levelChainFrom level i offset (minify width i) (minify height i) pitch n).2) := by
  induction n generalizing i offset pitch with
  | zero => exact ⟨fun _ _ => by omega, nofun⟩
  | succ n ih =>
    have mod64 : align (offset + pitch * minify height i) 256 % 64 = 0 := by
      unfold align
      omega
    have small : minify width (i + 1) ≤ 4096 := by
      rw [Texture.minify_eq]
      exact max_le (by omega) ((Nat.div_le_self _ _).trans hw)
    have pad : minify width (i + 1) * 4 ≤ align (minify width (i + 1) * 4) 64 ∧
        align (minify width (i + 1) * 4) 64 % 64 = 0 ∧
        align (minify width (i + 1) * 4) 64 ≤ 16384 := by
      unfold align
      omega
    have later := ih pad.1 pad.2.1 mod64 (pad.2.2.trans (le_max_right _ _))
    have round := le_align (offset + pitch * minify height i)
    simp only [levelChainFrom, halve_minify]
    split
    · refine ⟨fun low high => ?_, fun _ => le_rfl⟩
      obtain rfl : i = level := by omega
      exact ⟨_, if_pos rfl, rfl, rfl, wide, mod, start, le_rfl, most⟩
    · rename_i more
      have total := later.2 (by omega)
      refine ⟨fun low high => ?_, fun _ => by dsimp only; omega⟩
      rcases Nat.eq_or_lt_of_le low with rfl | further
      · refine ⟨_, by rw [if_pos rfl]; rfl, rfl, rfl, wide, mod, start, ?_, most⟩
        dsimp only
        omega
      · obtain ⟨out, found, level_in⟩ := later.1 (by omega) (by omega)
        rw [if_neg (by omega)]
        exact ⟨out, found, level_in⟩

/-- A surface the drivers sample: one or more levels of texels inside its bytes. -/
structure AllocationInfo.Surface (r : AllocationInfo) : Prop where
  dimension : r.dimension = 3
  width_pos : 0 < r.width
  width_le : r.width ≤ 4096
  height_pos : 0 < r.height
  height_le : r.height ≤ 4096
  pitch_le : r.width * 4 ≤ r.pitch
  pitch_max : r.pitch ≤ 16384
  pitch_mod : r.pitch % 64 = 0
  levels_pos : 0 < r.levels
  inside : (levelChain r.width r.height r.pitch r.levels 0).2 ≤ r.bytes

theorem surface_of_validateAllocation (h : validateAllocation r = true) (surface : r.dimension = 3) :
    r.Surface := by
  unfold validateAllocation at h
  split at h
  · cases h
  · split at h
    · cases h
    · split at h
      · cases h
      · split at h
        · cases h
        · split at h
          · omega
          · split at h
            · cases h
            · have last := of_decide_eq_true h
              exact ⟨surface, by omega, by omega, by omega, by omega, by omega, by omega, by omega,
                last.1, last.2.2⟩

theorem levelChainFrom_bytes (level level' : ℕ) :
    (levelChainFrom level i offset width height pitch n).2 =
      (levelChainFrom level' i offset width height pitch n).2 := by
  induction n generalizing i offset width height pitch with
  | zero => rfl
  | succ n ih =>
    simp only [levelChainFrom]
    split
    · rfl
    · exact ih

/-- Every level of a surface is found, halved as often as it is deep. -/
theorem allocationLevel_surface (h : r.Surface) (hl : level < r.levels) :
    ∃ out, allocationLevel r level = some out ∧ LevelIn out level r.width r.height 16384 r.bytes := by
  have first_w : minify r.width 0 = r.width := Texture.minify_zero h.width_pos
  have first_h : minify r.height 0 = r.height := Texture.minify_zero h.height_pos
  have wide : minify r.width 0 * 4 ≤ r.pitch := first_w.symm ▸ h.pitch_le
  have found : 0 ≤ level → level < 0 + r.levels →
      ∃ out, (levelChainFrom level 0 0 (minify r.width 0) (minify r.height 0) r.pitch r.levels).1 = some out ∧
        LevelIn out level r.width r.height 16384
          (levelChainFrom level 0 0 (minify r.width 0) (minify r.height 0) r.pitch r.levels).2 :=
    (levelChainFrom_spec 16384 h.width_le wide h.pitch_mod rfl (h.pitch_max.trans (le_max_left _ _))).1
  rw [first_w, first_h] at found
  obtain ⟨out, out_eq, level_in⟩ := found (by omega) (by omega)
  have bytes : (levelChainFrom level 0 0 r.width r.height r.pitch r.levels).2 ≤ r.bytes := by
    rw [levelChainFrom_bytes level 0]
    exact h.inside
  refine ⟨out, ?_, { level_in with inside := level_in.inside.trans bytes }⟩
  rw [allocationLevel, if_neg (by have := h.levels_pos; omega), if_neg (by rw [h.dimension]; decide)]
  dsimp only [levelChain]
  rw [if_pos bytes]
  exact out_eq

end Levels

end Pi5Drivers.Gpu
