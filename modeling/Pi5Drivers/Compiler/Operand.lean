import Pi5Drivers.Abi
import Pi5Drivers.Lib.BitField

/-! Operands of DXBC instructions (`native/shader.cpp`, `Reader` and `ReadOperand`).
A reader takes tokens off the front of an instruction; an operand may hold
another one as its relative index. -/

namespace Pi5Drivers.Compiler

open Abi

/-- Tokens are taken off the front, and a failure is a message. -/
abbrev Reader (α : Type) := StateT (List UWord) (Except String) α

namespace Reader

def take : Reader UWord := fun tokens =>
  match tokens with
  | [] => .error "truncated shader instruction"
  | t :: tokens => .ok (t, tokens)

/-- `Need`. -/
def need (condition : Prop) [Decidable condition] (message : String) : Reader Unit := fun tokens =>
  if condition then .ok ((), tokens) else .error message

end Reader

/-- `(t >> lo) & (2^n - 1)`. -/
def tokenBits (t : UWord) (lo n : ℕ) : ℕ := BitField.field t.toNat lo n

structure Operand where
  type : ℕ
  dimensions : ℕ
  index0 : ℕ
  index1 : ℕ
  value : Fin 4 → UWord
  swizzle : Fin 4 → Fin 4
  mask : BitVec 4
  modifier : ℕ
  relative0 : Option Operand
  relative1 : Option Operand

namespace Operand

/-- The component selection in the low byte. -/
def selection (t : UWord) (destination : Bool) : Reader (BitVec 4 × (Fin 4 → Fin 4)) := do
  let components := tokenBits t 0 2
  let type := tokenBits t 12 8
  if components = 0 then
    Reader.need (if type = 13 then destination ∧ tokenBits t 20 2 = 0 else ¬destination)
      "resource operand is not a destination"
    return (15#4, id)
  if components = 1 then return (1#4, fun _ => 0)
  if tokenBits t 2 2 = 0 then
    Reader.need (destination ∨ type = 4) "source operand requires swizzle or select"
    return (BitVec.ofNat 4 (tokenBits t 4 4), id)
  if tokenBits t 2 2 = 1 then
    Reader.need (¬destination) "destination cannot have a swizzle"
    return (15#4, fun c => Fin.ofNat 4 (tokenBits t (4 + 2 * c) 2))
  if tokenBits t 2 2 = 2 then
    Reader.need (¬destination) "destination cannot select a component"
    return (15#4, fun _ => Fin.ofNat 4 (tokenBits t 4 2))
  throw "reserved operand selection mode"

/-- The modifier in the extended token. -/
def modifierToken (t : UWord) (destination : Bool) : Reader ℕ := do
  if ¬t.msb then return 0
  let x ← Reader.take
  Reader.need (x &&& 0x8000003f#32 = 1#32 ∧ x &&& 0x7ffffc00#32 = 0#32) "unsupported extended operand"
  Reader.need (tokenBits x 6 8 ≤ 3 ∧ (destination → tokenBits x 6 8 = 0)) "unsupported operand modifier"
  return tokenBits x 6 8

/-- `count` immediate values; the remaining ones stay zero. -/
def values : ℕ → Reader (List UWord)
  | 0 => return []
  | count + 1 => do
    let v ← Reader.take
    return v :: (← values count)

/-- One index: an offset, a relative part read by `relative`, or both. -/
def readIndex (relative : Reader Operand) (t : UWord) (destination : Bool) (i : ℕ) :
    Reader (ℕ × Option Operand) := do
  let kind := tokenBits t (22 + 3 * i) 3
  Reader.need (kind = 0 ∨ (¬destination ∧ (kind = 2 ∨ kind = 3))) "unsupported shader index representation"
  let index ← if kind ≠ 2 then (·.toNat) <$> Reader.take else pure 0
  if kind ≠ 0 then return (index, some (← relative))
  return (index, none)

end Operand

/-- `ReadOperand`; `levels` counts down where the source's `depth` counts up to four. -/
def readOperand (levels : ℕ) (destination : Bool) : Reader Operand := do
  match levels with
  | 0 => throw "relative operand nesting limit exceeded"
  | levels + 1 =>
    let t ← Reader.take
    let components := tokenBits t 0 2
    let type := tokenBits t 12 8
    let dimensions := tokenBits t 20 2
    Reader.need (components = 1 ∨ components = 2 ∨ (components = 0 ∧ type ∈ [6, 7, 13]))
      "unsupported operand component count"
    Reader.need (dimensions ≤ 2) "unsupported operand dimension"
    let (mask, swizzle) ← Operand.selection t destination
    let modifier ← Operand.modifierToken t destination
    let relative := readOperand levels false
    let (index0, relative0) ←
      if 0 < dimensions then Operand.readIndex relative t destination 0 else pure (0, none)
    let (index1, relative1) ←
      if 1 < dimensions then Operand.readIndex relative t destination 1 else pure (0, none)
    let values ←
      if type = 4 then do
        Reader.need (¬destination ∧ dimensions = 0) "invalid immediate operand"
        Operand.values (if components = 1 then 1 else 4)
      else pure []
    return { type, dimensions, index0, index1, swizzle, mask, modifier, relative0, relative1
             value := fun c => values.getD c 0#32 }

end Pi5Drivers.Compiler
