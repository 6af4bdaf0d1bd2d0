import Pi5Drivers.Lib.Common
import Mathlib.Data.Nat.Notation
import Mathlib.Logic.Basic

/-! The requests that the I2C and the SPI controller are given. A request is a list of
transfers, each with a scattered buffer; both drivers accept the same transfers and lay
them out one after the other in a buffer of their own. -/

namespace Pi5Drivers.Spb

inductive Status
  | invalidParameter | deviceNotReady | deviceBusy | deviceDataError | deviceConfigurationError | devicePowerFailure
  | noSuchDevice | ioDeviceError | ioTimeout | dataOverrun | cancelled | notSupported
  | insufficientResources | invalidBufferSize
  | other (code : ℕ)
deriving DecidableEq

/-- `SPB_TRANSFER_DIRECTION`. -/
inductive Direction
  | unspecified
  | fromDevice
  | toDevice
deriving DecidableEq

/-- The parts of a scattered buffer, in the order of their chain. -/
abbrev Mdl := List (List UInt8)

/-- `SPB_TRANSFER_DESCRIPTOR` and the buffer that comes with it, where no parts stand for none. -/
structure Descriptor where
  transferLength : ℕ
  direction : Direction
  mdl : Mdl
  delayInUs : ℕ

/-- Where a transfer is in the driver's buffer. -/
structure Part where
  offset : ℕ
  length : ℕ
  read : Bool
deriving DecidableEq

/-- The part past the last one. -/
def Part.none : Part := ⟨0, 0, false⟩

/-- What both drivers ask of a transfer, after so many bytes of the ones before it. -/
def Descriptor.Acceptable (maxBytes total : ℕ) (d : Descriptor) : Prop :=
  d.transferLength ≠ 0 ∧ d.transferLength ≤ maxBytes - total ∧ d.mdl ≠ [] ∧ d.delayInUs = 0 ∧
    (d.direction = .fromDevice ∨ d.direction = .toDevice)

instance (maxBytes total : ℕ) (d : Descriptor) : Decidable (d.Acceptable maxBytes total) :=
  inferInstanceAs (Decidable (_ ∧ _))

/-- Where the transfer is laid out. -/
def Descriptor.part (offset : ℕ) (d : Descriptor) : Part := ⟨offset, d.transferLength, d.direction = .fromDevice⟩

/-- Lays the transfers out behind each other, the first behind so many bytes. -/
def layout (maxBytes : ℕ) : ℕ → List Descriptor → Option (List Part)
  | _, [] => some []
  | total, d :: l =>
    if d.Acceptable maxBytes total then (layout maxBytes (total + d.transferLength) l).map (d.part total :: ·) else none

/-! ### Parts that lie behind each other -/

/-- No part is empty, and each lies behind the one before it. -/
def Laid : ℕ → List Part → Prop
  | _, [] => True
  | total, p :: l => p.offset = total ∧ 0 < p.length ∧ Laid (total + p.length) l

section Laid

variable {maxBytes total : ℕ} {l : List Part}

theorem laid_of_layout {ds : List Descriptor} (h : layout maxBytes total ds = some l) : Laid total l := by
  induction ds generalizing total l with
  | nil =>
    cases h
    trivial
  | cons d ds ih =>
    obtain ⟨ok, h⟩ := Option.ite_none_right_eq_some.mp h
    obtain ⟨rest, hrest, rfl⟩ := Option.map_eq_some_iff.mp h
    exact ⟨rfl, Nat.pos_of_ne_zero ok.1, ih hrest⟩

theorem length_layout {ds : List Descriptor} (h : layout maxBytes total ds = some l) : l.length = ds.length := by
  induction ds generalizing total l with
  | nil =>
    cases h
    rfl
  | cons d ds ih =>
    obtain ⟨-, h⟩ := Option.ite_none_right_eq_some.mp h
    obtain ⟨rest, hrest, rfl⟩ := Option.map_eq_some_iff.mp h
    exact congrArg (· + 1) (ih hrest)

theorem Laid.le_offset (h : Laid total l) {i : ℕ} (hi : i < l.length) : total ≤ (l.getD i .none).offset := by
  induction l generalizing total i with
  | nil => cases hi
  | cons p l ih =>
    cases i with
    | zero => exact Nat.le_of_eq h.1.symm
    | succ i => exact Nat.le_trans (Nat.le_add_right _ _) (ih h.2.2 (Nat.lt_of_succ_lt_succ hi))

theorem Laid.length_pos (h : Laid total l) {i : ℕ} (hi : i < l.length) : 0 < (l.getD i .none).length := by
  induction l generalizing total i with
  | nil => cases hi
  | cons p l ih =>
    cases i with
    | zero => exact h.2.1
    | succ i => exact ih h.2.2 (Nat.lt_of_succ_lt_succ hi)

/-- A part ends where the later ones have not begun. -/
theorem Laid.le_of_lt (h : Laid total l) {i j : ℕ} (hij : i < j) (hj : j < l.length) :
    (l.getD i .none).offset + (l.getD i .none).length ≤ (l.getD j .none).offset := by
  induction l generalizing total i j with
  | nil => cases hj
  | cons p l ih =>
    obtain ⟨j, rfl⟩ := Nat.exists_eq_succ_of_ne_zero (Nat.ne_of_gt (Nat.zero_lt_of_lt hij))
    have hj := Nat.lt_of_succ_lt_succ hj
    cases i with
    | zero => exact h.1 ▸ h.2.2.le_offset hj
    | succ i => exact ih h.2.2 (Nat.lt_of_succ_lt_succ hij) hj

/-- A position belongs to one part only. -/
theorem Laid.eq_of_position (h : Laid total l) {i j k m : ℕ} (hi : i < l.length) (hj : j < l.length)
    (hk : k < (l.getD i .none).length) (hm : m < (l.getD j .none).length)
    (eq : (l.getD i .none).offset + k = (l.getD j .none).offset + m) : i = j ∧ k = m := by
  rcases Nat.lt_trichotomy i j with lt | rfl | gt
  · have := h.le_of_lt lt hj
    omega
  · exact ⟨rfl, Nat.add_left_cancel eq⟩
  · have := h.le_of_lt gt hi
    omega

end Laid

end Pi5Drivers.Spb
