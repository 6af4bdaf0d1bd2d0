import Pi5Drivers.Gpu.Command

/-! Region copies between surfaces. A linear source is sampled through a window:
a surface that starts at the last 64-byte boundary before the region's first
texel and is as wide as the region and the texels before it. -/

namespace Pi5Drivers.Gpu

/-- The window of a copy: its surface, where it starts in the source, and the
texels before the region in each of its rows. -/
structure Window where
  view : AllocationInfo
  offset : ℕ
  prefixTexels : ℕ
  deriving DecidableEq, Repr

def blitWindow (source : AllocationInfo) (region : RegionCommand) : Option Window :=
  let row := region.sourceY * source.pitch
  let origin := row + region.sourceX * 4
  let bytes := source.pitch * region.height
  -- Including a full pitch after a shifted final row would cross the source's
  -- end; there the row's left part is kept instead.
  let (offset, before) :=
    if source.bytes < origin / 64 * 64 ∨ source.bytes - origin / 64 * 64 < bytes then (row, region.sourceX)
    else (origin / 64 * 64, (origin - origin / 64 * 64) / 4)
  let width := before + region.width
  if 4096 < width ∨ source.pitch / 4 < width ∨ source.bytes < offset ∨ source.bytes - offset < bytes then none
  else some ⟨{ source with width, height := region.height, bytes, privateFlags := 0, miscFlags := 0 }, offset,
    before⟩

section Window

variable {source : AllocationInfo} {region : RegionCommand} {w : Window}

/-- A window lies inside the source on a 64-byte boundary and is as wide as the
region and the texels before it. -/
theorem blitWindow_some (h : blitWindow source region = some w) (aligned : source.pitch % 64 = 0) :
    w.offset % 64 = 0 ∧ w.offset + w.view.bytes ≤ source.bytes ∧
    w.view = { source with
      width := w.prefixTexels + region.width, height := region.height,
      bytes := source.pitch * region.height, privateFlags := 0, miscFlags := 0 } ∧
    w.view.width ≤ 4096 ∧ w.view.width * 4 ≤ source.pitch ∧
    w.offset + w.prefixTexels * 4 = region.sourceY * source.pitch + region.sourceX * 4 := by
  have row : region.sourceY * source.pitch % 64 = 0 := by
    rw [Nat.mul_mod, aligned, Nat.mul_zero, Nat.zero_mod]
  unfold blitWindow at h
  dsimp only at h
  split at h
  all_goals
    dsimp only at h
    split at h
    · cases h
    · obtain rfl := Option.some.inj h
      dsimp only
      exact ⟨by omega, by omega, rfl, by omega, by omega, by omega⟩

end Window

end Pi5Drivers.Gpu
