import Pi5Drivers.Lib.Common
import Mathlib.Data.Nat.Notation
import Mathlib.Data.Set.Insert

/-! What the class extension for GPIO controllers passes to its clients. -/

namespace Pi5Drivers.GpioClx

def pullDefault : BitVec 8 := 0
def pullUp : BitVec 8 := 1
def pullDown : BitVec 8 := 2
def pullNone : BitVec 8 := 3

inductive Mode
  | latched | levelSensitive | other
deriving DecidableEq

inductive Polarity
  | activeLow | activeHigh | activeBoth | other
deriving DecidableEq

inductive ConnectMode
  | input | output | other
deriving DecidableEq

structure IoPins where
  bank : ℕ
  table : Option (List ℕ)
  mode : ConnectMode
  pull : BitVec 8
  driveStrength : ℕ
  vendorDataLength : ℕ

structure IrqPin where
  bank : ℕ
  pin : ℕ
  mode : Mode
  polarity : Polarity
  pull : BitVec 8
  vendorDataLength : ℕ

structure FunctionPins where
  bank : ℕ
  table : Option (List ℕ)
  function : ℕ
  pull : BitVec 8
  vendorDataLength : ℕ

/-- The pins of a table, if there is one. -/
def tablePins (table : Option (List ℕ)) : Set ℕ := { p | ∃ l ∈ table, p ∈ l }

theorem tablePins_single (p : ℕ) : tablePins (some [p]) = {p} := by
  ext q
  simp [tablePins]

end Pi5Drivers.GpioClx
