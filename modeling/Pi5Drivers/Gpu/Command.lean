import Pi5Drivers.Gpu.Allocation

/-! The commands of the driver interface and the checks they pass before they
are queued. -/

namespace Pi5Drivers.Gpu

/-- The fields of `Pi5RegionCommand` that say what is copied. -/
structure RegionCommand where
  sourceX : ℕ
  sourceY : ℕ
  destinationX : ℕ
  destinationY : ℕ
  width : ℕ
  height : ℕ
  destinationLevel : ℕ
  sourceLevel : ℕ
  deriving DecidableEq, Repr

/-- The checks of a region copy into `destination` from `source`. -/
def validateRegion (destination source : AllocationInfo) (c : RegionCommand) : Bool :=
  if destination.dimension ≠ source.dimension ∨ destination.format ≠ source.format then false
  else
    match allocationLevel destination c.destinationLevel, allocationLevel source c.sourceLevel with
    | some dst, some src =>
      c.width ≠ 0 ∧ c.height ≠ 0 ∧
      c.sourceX ≤ src.width ∧ c.width ≤ src.width - c.sourceX ∧
      c.sourceY ≤ src.height ∧ c.height ≤ src.height - c.sourceY ∧
      c.destinationX ≤ dst.width ∧ c.width ≤ dst.width - c.destinationX ∧
      c.destinationY ≤ dst.height ∧ c.height ≤ dst.height - c.destinationY
    | _, _ => false

section Region

variable {destination source : AllocationInfo} {c : RegionCommand}

/-- An accepted copy moves a rectangle that lies inside both levels. -/
theorem validateRegion_spec (h : validateRegion destination source c = true) :
    destination.dimension = source.dimension ∧ destination.format = source.format ∧
    ∃ dst src, allocationLevel destination c.destinationLevel = some dst ∧
      allocationLevel source c.sourceLevel = some src ∧ 0 < c.width ∧ 0 < c.height ∧
      c.sourceX + c.width ≤ src.width ∧ c.sourceY + c.height ≤ src.height ∧
      c.destinationX + c.width ≤ dst.width ∧ c.destinationY + c.height ≤ dst.height := by
  unfold validateRegion at h
  split at h
  · cases h
  · rename_i same
    split at h
    · rename_i dst src hdst hsrc
      have checks := of_decide_eq_true h
      exact ⟨by tauto, by tauto, dst, src, hdst, hsrc, by omega, by omega, by omega, by omega, by omega, by omega⟩
    · cases h

end Region

end Pi5Drivers.Gpu
