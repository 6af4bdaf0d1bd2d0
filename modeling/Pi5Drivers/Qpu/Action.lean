import Pi5Drivers.Abi
import Pi5Drivers.Qpu.Alu
import Mathlib.Data.Finset.Basic
import Mathlib.Data.Finset.Union

/-! Straight-line abstract execution of a program, for a reader who knows the
instruction set and not the checker. `action` says what one word does to the
register file and which unit it addresses; `Thread` keeps the registers that hold
a value, the words consumed and produced so far and the state of the thread
switches; `step` is undefined where an instruction is unknown, reads what was
never written or what is still on its way, or uses a unit out of turn. The
register file is the general one, `rf0` to `rf31`. -/

namespace Pi5Drivers.Qpu

open Abi

/-- What an instruction addresses besides the register file. -/
inductive Access where
  | none
  | switch
  | uniform (dst : ℕ)
  | configuration
  | coordinate
  | request
  | texel
  | varying
  | attribute (index : ℕ)
  | target (first : Bool)
  | tile (first : Bool)
  | output (index : ℕ)
  | indexedOutput (index : ℕ)
  deriving DecidableEq, Repr

/-- The effect of one instruction. Registers in `late` receive their value one
instruction later; those in `merges` only where a condition holds. -/
structure Action where
  reads : List ℕ := []
  writes : List ℕ := []
  late : List ℕ := []
  merges : List ℕ := []
  setsFlags : Bool := false
  access : Access := .none
  deriving DecidableEq, Repr

namespace Fields

/-- Neither ALU does anything. -/
def idle (f : Fields) : Prop := f.addIdle ∧ f.mulIdle

instance (f : Fields) : Decidable f.idle := inferInstanceAs (Decidable (_ ∧ _))

/-- A load signal, which names its register in the condition field. -/
def load (f : Fields) (access : Access) (late : List ℕ) : Option Action :=
  if f.idle ∧ f.flags < 32 then some { writes := [f.flags], late := late, access := access } else none

/-- A unit written by name, or `none`. -/
def unit (f : Fields) : Option Access :=
  if f.dstAdd = 34 then some .coordinate
  else if f.dstAdd = 33 ∨ f.dstAdd = 41 then some .request
  else if f.dstAdd = 8 then some (.tile true)
  else if f.dstAdd = 7 then some (.tile false)
  else none

/-- One-source operations of the add ALU. -/
def unary (f : Fields) : Prop :=
  (f.opAdd = 188 ∧ f.b ∈ [32, 33]) ∨ (f.opAdd = 245 ∧ f.b ∈ [4, 7, 20, 23, 36, 39, 52]) ∨
    (f.opAdd = 246 ∧ f.b ∈ [4, 20, 32, 36])

instance (f : Fields) : Decidable f.unary := inferInstanceAs (Decidable (_ ∨ _))

/-- An instruction without condition, signal or partner. -/
def single (f : Fields) : Option Action :=
  if f.idle then some {}
  else if f.addIdle then
    if f.opMul = 3 ∧ f.magicMul = 0 ∧ f.dstMul < 32 then
      some { reads := [f.c, f.d], writes := [f.dstMul] }
    else if f.opMul = 10 ∧ f.magicMul = 1 ∧ f.dstMul = 6 then some { reads := [f.c, f.d] }
    else none
  else if ¬f.mulIdle then none
  else if f.magicAdd = 1 then
    if f.opAdd = 182 ∧ f.a = f.b then f.unit.map fun access => { reads := [f.a], access := access }
    else none
  else if f.opAdd = 190 ∧ f.dstAdd = 0 then
    some { reads := [f.a, f.b], access := .indexedOutput f.a }
  else if f.unary ∧ f.dstAdd < 32 then
    if f.opAdd = 188 then some { reads := [f.a], late := [f.dstAdd] }
    else some { reads := [f.a], writes := [f.dstAdd] }
  else none

/-- Operations whose flags a condition may test. -/
def test (f : Fields) : Prop := f.opAdd ∈ [60, 120, 181, 182, 183, 197]

instance (f : Fields) : Decidable f.test := inferInstanceAs (Decidable (_ ∈ _))

/-- An instruction that sets the flags, keeping its result or leaving the
destination to the multiply ALU. -/
def flagging (f : Fields) : Option Action :=
  if ¬f.test then none
  else if f.mulIdle then
    if f.magicAdd = 0 ∧ f.dstAdd < 32 then
      some { reads := [f.a, f.b], writes := [f.dstAdd], setsFlags := true }
    else none
  else if f.magicAdd = 1 ∧ f.dstAdd = 6 ∧ f.magicMul = 0 ∧ f.dstMul < 32 then
    if f.opMul = 2 then
      some { reads := [f.a, f.b, f.c, f.d], writes := [f.dstMul], setsFlags := true }
    else if f.opMul = 14 ∧ f.d = 3 then
      some { reads := [f.a, f.b, f.c], writes := [f.dstMul], setsFlags := true }
    else none
  else none

/-- A copy or an inversion where the flag is set or clear. -/
def conditional (f : Fields) : Option Action :=
  if f.mulIdle ∧ f.magicAdd = 0 ∧ f.dstAdd < 32 ∧
      ((f.opAdd = 182 ∧ f.a = f.b) ∨ (f.opAdd = 186 ∧ f.b = 0)) then
    some { reads := [f.a], merges := [f.dstAdd] }
  else none

/-- An input or output of a vertex shader with an immediate index. -/
def vertexAccess (f : Fields) : Option Action :=
  if f.mulIdle ∧ f.magicAdd = 0 ∧ f.flags = 0 ∧ f.a < 16 then
    if f.opAdd = 188 ∧ f.b = 0 ∧ f.dstAdd < 32 then
      some { late := [f.dstAdd], access := .attribute f.a }
    else if f.opAdd = 190 ∧ f.dstAdd = 0 then some { reads := [f.b], access := .output f.a }
    else none
  else none

/-- What an instruction does; `none` for a word outside the instruction set. A
varying load also delivers its coefficient in `rf0`. -/
def action (f : Fields) : Option Action :=
  if f.signal = 1 then if f.idle ∧ f.flags = 0 then some { access := .switch } else none
  else if f.signal = 4 then f.load .texel []
  else if f.signal = 8 then f.load .varying [0]
  else if f.signal = 16 then f.load (.target false) []
  else if f.signal = 17 then f.load (.target true) []
  else if f.signal = 18 then if f.idle ∧ f.flags = 0 then some { access := .configuration } else none
  else if f.AluForm then
    some { reads := f.sources, writes := f.targets
           access := if f.signal = 12 then .uniform f.flags else .none }
  else if f.signal = 14 then f.vertexAccess
  else if f.signal ≠ 0 then none
  else if f.flags = 0 then f.single
  else if f.flags ∈ [1, 2, 3] then f.flagging
  else if f.flags ∈ [0x20, 0x28] then f.conditional
  else none

end Fields

/-- What a stage may use. -/
structure Stage where
  pixel : Bool
  attributes : ℕ
  varyings : ℕ
  targetReads : Bool

/-- A thread part-way through its program. -/
structure Thread where
  /-- Registers that hold a value. -/
  defined : Finset ℕ
  /-- Registers whose value arrives after the next instruction. -/
  late : Finset ℕ := ∅
  /-- Registers that hold a known uniform. -/
  contents : ℕ → Option UWord := fun _ => none
  flagged : Bool := false
  popped : ℕ := 0
  /-- Positions popped as configuration words. -/
  configured : List ℕ := []
  /-- Texture results to be collected. -/
  texels : ℕ := 0
  varyings : ℕ := 0
  stored : List ℕ := []
  /-- Writes to the tile buffer. -/
  tiles : ℕ := 0
  /-- The last instruction was a lone thread switch. -/
  switched : Bool := false
  /-- The last thread switch has passed, so the tile scoreboard is locked. -/
  locked : Bool := false
  /-- Delay slots since the thread end. -/
  ended : Option ℕ := none

namespace Thread

/-- The registers after an instruction that touches them as `a` says. -/
def write (t : Thread) (a : Action) : Thread :=
  { t with
    defined := t.defined ∪ t.late ∪ a.writes.toFinset
    late := a.late.toFinset
    contents := fun r => if r ∈ t.late ∨ r ∈ a.writes ∨ r ∈ a.late ∨ r ∈ a.merges then none else t.contents r
    flagged := t.flagged || a.setsFlags
    switched := false
    ended := t.ended.map (· + 1) }

/-- Registers are read only when they hold a value that is not about to change,
conditions are tested only when flags were set, and only idle instructions
follow the thread end, two of them. -/
def ready (t : Thread) (a : Action) : Prop :=
  (∀ r ∈ a.reads ++ a.merges, r ∈ t.defined ∧ r ∉ t.late) ∧
    (∀ r ∈ a.writes ++ a.late, r ∉ t.late) ∧ (a.merges ≠ [] → t.flagged = true) ∧
    (t.ended = none ∨ (a = {} ∧ (t.ended = some 0 ∨ t.ended = some 1)))

instance (t : Thread) (a : Action) : Decidable (t.ready a) := inferInstanceAs (Decidable (_ ∧ _))

/-- Take the next uniform. -/
def pop (uniforms : List UWord) (t : Thread) : Option (UWord × Thread) :=
  uniforms[t.popped]?.map fun u => (u, { t with popped := t.popped + 1 })

/-- Two adjacent switches are the last thread switch; a switch after that ends the thread. -/
def switch (t : Thread) (switched : Bool) : Option Thread :=
  if switched then if t.locked then none else some { t with locked := true }
  else if t.locked then some { t with ended := some 0 }
  else some { t with switched := true }

/-- What an instruction does outside the register file. -/
def access (stage : Stage) (uniforms : List UWord) (switched : Bool) (t : Thread) : Access → Option Thread
  | .none => some t
  | .switch => t.switch switched
  | .uniform dst => do
    let (u, t) ← t.pop uniforms
    return { t with contents := Function.update t.contents dst (some u) }
  | .configuration => do
    if t.locked then none
    let (_, t') ← t.pop uniforms
    return { t' with configured := t.configured ++ [t.popped] }
  | .coordinate => if t.locked then none else some t
  | .request => if t.locked then none else some { t with texels := t.texels + 4 }
  | .texel => if t.texels = 0 then none else some { t with texels := t.texels - 1 }
  | .varying => if stage.pixel ∧ t.varyings < stage.varyings then some { t with varyings := t.varyings + 1 }
    else none
  | .attribute index => if ¬stage.pixel ∧ index < stage.attributes then some t else none
  | .target first => do
    if ¬(stage.targetReads ∧ t.locked) then none
    if first then
      let (_, t) ← t.pop uniforms
      return t
    return t
  | .tile first => do
    if ¬(stage.pixel ∧ t.locked) then none
    let t := { t with tiles := t.tiles + 1 }
    if first then
      let (_, t) ← t.pop uniforms
      return t
    return t
  | .output index => some { t with stored := t.stored ++ [index] }
  | .indexedOutput r => (t.contents r).map fun u => { t with stored := t.stored ++ [u.toNat] }

end Thread

section Run

variable (stage : Stage) (uniforms : List UWord)

def step (t : Thread) (word : Word) : Option Thread := do
  let a ← (fields word).action
  if t.ready a then (t.write a).access stage uniforms t.switched a.access else none

/-- Execute a program from front to back. -/
def execute (code : List Word) (t : Thread) : Option Thread := code.foldlM (step stage uniforms) t

end Run

end Pi5Drivers.Qpu
