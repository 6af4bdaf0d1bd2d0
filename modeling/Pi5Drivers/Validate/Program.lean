import Pi5Drivers.Abi
import Pi5Drivers.Lib.Tracked
import Pi5Drivers.Qpu.Alu
import Mathlib.Data.Fintype.Pi

/-! The program checker of the kernel driver (`native/validate.cpp`,
`ValidateProgram`). It walks an untrusted program once, front to back, matching
a few fixed shapes of instructions and keeping track of which registers are
defined, how many uniforms have been consumed and which outputs are written.
Uniform values are read through `checkedUniform` only, which records the index
it reads; the results other than the verdict are written to `Outputs` as the
source writes them through its pointers. -/

namespace Pi5Drivers.Validate

open Qpu Abi

inductive ProgramStage where
  | pixel | coordinate | vertex
  deriving DecidableEq, Repr

inductive LookupForm where
  | sample | fetch2D | fetch1D
  deriving DecidableEq, Repr

/-- Where a lookup pops its two configuration words, and what it looks up. -/
structure TexturePatch where
  config0 : ℕ
  config1 : ℕ
  binding : ℕ
  form : LookupForm
  constant : Bool
  deriving DecidableEq, Repr

structure ProgramRules where
  stage : ProgramStage := .pixel
  vertexScalars : ℕ := 0
  varyingScalars : ℕ := 0
  nonPerspectiveMask : BitVec 32 := 0
  flatMask : BitVec 32 := 0
  bindingKinds : Fin 4 → ℕ := fun _ => 0
  constants : Bool := false
  targetReads : Bool := false
  deriving DecidableEq

/-- Results besides the verdict. `checked` marks the uniforms that were looked at. -/
structure Outputs where
  patches : List TexturePatch
  registers : BitVec 32
  bindings : BitVec 32
  checked : ℕ → Bool

/-- The indices of the uniforms the check looked at. -/
def Outputs.checkedSet (o : Outputs) : Set ℕ := {i | o.checked i = true}

/-- A step of the check: it may reject, and it sees uniforms only one by one. -/
abbrev Check (α : Type) := Tracked ℕ UWord Unit Outputs.checkedSet α

def checkedUniform (index : ℕ) : Check UWord :=
  .look index (fun o => { o with checked := fun i => i == index || o.checked i })
    (fun _ => by simp [Outputs.checkedSet])
    (fun _ i hi => by simp only [Outputs.checkedSet, Set.mem_ofPred_eq] at hi ⊢; simp [hi])

def recordPatch (p : TexturePatch) : Check Unit :=
  .modify fun o => { o with patches := o.patches ++ [p] }

def rejectIf (c : Prop) [Decidable c] : Check Unit := .reject () c

/-- `Defined(mask, reg)`. -/
def defines (mask : BitVec 32) (reg : ℕ) : Bool := decide (reg < 32) && mask.getLsbD reg

/-- `mask | 1u << reg`. -/
def define (mask : BitVec 32) (reg : ℕ) : BitVec 32 := mask ||| 1#32 <<< reg

/-- What the walk knows; `rest` is the part of the program from `at` on. -/
structure State where
  rest : List Word
  used : ℕ
  defined : BitVec 32
  varyings : ℕ
  written : BitVec 32
  targetRead : Bool
  samples : ℕ
  constantSamples : ℕ
  bindingsUsed : BitVec 32

namespace State

/-- `code[at + i]`. -/
def word (s : State) (i : ℕ) : Word := s.rest.getD i 0#64

/-- `words - at`. -/
def left (s : State) : ℕ := s.rest.length

def skip (s : State) (n : ℕ) : State := { s with rest := s.rest.drop n }

/-- `Padding`. -/
def padding (s : State) : State := { s with rest := s.rest.dropWhile (· == nop) }

def define (s : State) (reg : ℕ) : State := { s with defined := Validate.define s.defined reg }

def defines (s : State) (reg : ℕ) : Bool := Validate.defines s.defined reg

end State

/-- The value the tile buffer unit pops with its first access. -/
def tileFormat : UWord := 0xffffff3f#32

section Checks

variable (rules : ProgramRules) (count : ℕ)

/-- Output slots of the stage. -/
def outputs : ℕ :=
  match rules.stage with
  | .coordinate => 6
  | .vertex => 4 + rules.varyingScalars
  | .pixel => 4

/-- Vertex/coordinate VPM stores: index 0-15 as a small immediate, or a uniform
loaded into a scratch register immediately before a register-indexed store. -/
def vpmStore (s : State) : Check (Option State) := do
  if rules.stage = .pixel then return none
  let word := s.word 0
  if word &&& ~~~4095#64 = storeOutputWord then
    let index := bits word 6 6
    let reg := bits word 0 6
    rejectIf (index ≥ 16 ∨ index ≥ outputs rules ∨ s.written.getLsbD index ∨ ¬s.defines reg ∨
      s.left < 2 ∨ s.word 1 ≠ nop)
    return some { s.skip 2 with written := define s.written index }
  if withoutDestination word ≠ loadUniformWord ∨ s.left < 4 ∨ s.word 1 ≠ nop then return none
  let scratch := loadRegister word
  let store := s.word 2
  let reg := bits store 0 6
  if store ≠ storeIndexedWord ||| BitVec.ofNat 64 scratch <<< 6 ||| BitVec.ofNat 64 reg then return none
  rejectIf (s.used ≥ count)
  let index := (← checkedUniform s.used).toNat
  rejectIf (index < 16 ∨ index ≥ outputs rules ∨ s.written.getLsbD index ∨ reg = scratch ∨
    ¬s.defines reg ∨ s.word 3 ≠ nop)
  return some { (s.skip 4).define scratch with
    used := s.used + 1, written := define s.written index }

/-- The four channels of the previous pixel colour. -/
def targetChannels : List Word → State → Check State
  | [], s => pure s
  | base :: bases, s => do
    let reg := loadRegister (s.word 0)
    rejectIf (s.word 0 ≠ withDestination base reg ∨ s.word 1 ≠ nop)
    targetChannels bases ((s.skip 2).define reg)

/-- A thread switch in the body: the tile-buffer read of a blending shader, or
`none` where the body ends. -/
def targetRead (s : State) : Check (Option State) := do
  if s.left < 4 ∨ s.word 1 ≠ switch ∨ s.word 2 ≠ nop ∨
      withoutDestination (s.word 3) ≠ loadTargetFirstWord then return none
  rejectIf (rules.stage ≠ .pixel ∨ !rules.targetReads ∨ s.targetRead ∨
    s.varyings ≠ rules.varyingScalars ∨ s.left < 11 ∨ s.used ≥ count)
  let format ← checkedUniform s.used
  rejectIf (format ≠ tileFormat)
  let s := { s.skip 3 with used := s.used + 1, targetRead := true }
  let s ← targetChannels [loadTargetFirstWord, loadTargetWord, loadTargetWord, loadTargetWord] s
  return some s

/-- `at < words && code[at++] == word`, or else reject. -/
def expect (word : Word) (s : State) : Check State := do
  rejectIf (s.left = 0 ∨ s.word 0 ≠ word)
  return s.skip 1

/-- The idle slot after a varying load, which the perspective product may fill. -/
def varyingGap (perspective : Bool) (reg : ℕ) (s : State) : Check State := do
  let gap := 0 < s.left ∧ s.word 0 = nop
  let s := if gap then s.skip 1 else s
  if perspective then expect (mul 21 reg reg 3) s
  else
    rejectIf (¬gap)
    return s

/-- Varying loads may appear anywhere in the body but must be in order. -/
def varying (s : State) : Check (Option State) := do
  if withoutDestination (s.word 0) ≠ loadVaryingWord then return none
  rejectIf (rules.stage ≠ .pixel ∨ s.varyings ≥ rules.varyingScalars ∨ s.left < 3)
  let flat := rules.flatMask.getLsbD s.varyings
  let reg := loadRegister (s.word 0)
  rejectIf (reg = 0 ∨ reg = 3)
  let s ← varyingGap (!flat && !rules.nonPerspectiveMask.getLsbD s.varyings) reg (s.skip 1)
  let s ← expect (if flat then add 182 reg 0 0 else add 5 reg 0 reg) s.padding
  return some { s.padding.define reg with varyings := s.varyings + 1 }

/-- The four words a lookup returns. -/
def lookupResults : ℕ → State → Check State
  | 0, s => pure s
  | n + 1, s => do
    let reg := loadRegister (s.word 0)
    let s ← expect (withDestination loadTextureWord reg) s
    lookupResults n (s.define reg).padding

/-- What the configuration words of a lookup ask for. -/
structure LookupRequest where
  binding : ℕ
  constant : Bool
  kind : ℕ

/-- The walk behind the switch of a request. -/
def State.requested (s : State) (request : LookupRequest) : State :=
  { s.skip 4 with
    samples := s.samples + 1
    used := s.used + 2
    constantSamples := if request.constant then s.constantSamples + 1 else s.constantSamples
    bindingsUsed :=
      if request.constant then s.bindingsUsed else Validate.define s.bindingsUsed request.binding }

def lookupRequest (texture sampler : UWord) : Check LookupRequest := do
  let binding := (texture.toNat >>> bindingTokenShift) % 16
  if texture = constantTextureToken ∧ sampler = constantSamplerToken then
    rejectIf (!rules.constants)
    return ⟨0, true, 0⟩
  if h : binding < 4 then
    let kind := rules.bindingKinds ⟨binding, h⟩
    rejectIf (texture ≠ textureToken ||| BitVec.ofNat 32 binding <<< bindingTokenShift ∨
      sampler ≠ samplerToken ||| BitVec.ofNat 32 binding <<< bindingTokenShift)
    rejectIf (kind = 0 ∨ (rules.stage ≠ .pixel ∧ kind = bindingTexture))
    return ⟨binding, false, kind⟩
  else .fail ()

/-- The two configuration words. -/
def lookupConfig (s : State) : Check State := do
  let s ← expect config s
  let s ← expect config s.padding
  return s.padding

/-- The coordinates: perhaps a second one, and the one that sends the request. -/
def lookupCoordinates (s : State) : Check (LookupForm × State) := do
  rejectIf (s.left = 0)
  let reg := bits (s.word 0) 0 6
  let second := s.word 0 = add 182 34 reg reg true
  rejectIf (second ∧ ¬s.defines reg)
  let s := if second then (s.skip 1).padding else s
  rejectIf (s.left < 5)
  let reg := bits (s.word 0) 0 6
  let retiring := bits (s.word 0) 32 6
  rejectIf ((retiring ≠ 33 ∧ retiring ≠ 41) ∨ s.word 0 ≠ add 182 retiring reg reg true ∨
    ¬s.defines reg)
  rejectIf (retiring = 33 ∧ ¬second)
  return (if retiring = 33 then .sample else if second then .fetch2D else .fetch1D, (s.skip 1).padding)

/-- A complete texture request: two configuration words, the coordinates, the
switch that waits for the results and the loads that collect them. -/
def lookup (s : State) : Check (Option State) := do
  if s.word 0 ≠ config then return none
  rejectIf (s.targetRead ∨ s.samples ≥ maxLookups ∨ s.left < 8 ∨ count - s.used < 2)
  let texture ← checkedUniform s.used
  let sampler ← checkedUniform (s.used + 1)
  let request ← lookupRequest rules texture sampler
  let s ← lookupConfig s
  let (form, s) ← lookupCoordinates s
  rejectIf (if request.constant then form ≠ .sample
    else if request.kind = bindingTexture then form = .fetch1D else form ≠ .fetch1D)
  rejectIf (s.left < 4 ∨ s.word 0 ≠ switch ∨ s.word 1 ≠ nop ∨ s.word 2 ≠ nop ∨ s.word 3 ≠ nop ∨
    s.left - 4 < 4)
  recordPatch ⟨s.used, s.used + 1, request.binding, form, request.constant⟩
  return some (← lookupResults 4 (s.requested request))

/-- A bounded immediate MOV reads the fixed 48-entry hardware table; its source
field is not a register or an address-bearing signal. -/
def moveImmediate (s : State) : Check (Option State) := do
  let dst := bits (s.word 0) 32 6
  let immediate := bits (s.word 0) 6 6
  if dst < 32 ∧ immediate < 48 ∧ s.word 0 = add 249 dst immediate 3 ||| 14#64 <<< 53 then
    return some ((s.skip 1).define dst)
  return none

/-- Paired ALUs and an optional uniform load read the register state before any
of their distinct destinations are updated. -/
def paired (s : State) : Check (Option State) := do
  let alu := decode (s.word 0)
  if alu.valid ∧ alu.add + alu.mul + (if alu.signal = 12 then 1 else 0) > 1 then
    rejectIf (alu.reads.setWidth 32 &&& ~~~s.defined ≠ 0#32)
    rejectIf (alu.signal = 12 ∧ s.used ≥ count)
    return some { s.skip 1 with
      used := if alu.signal = 12 then s.used + 1 else s.used
      defined := s.defined ||| alu.writes.setWidth 32 }
  return none

/-- One source may use the fixed small-immediate table. Admit only unpredicated
scalar ALU forms, with no extra signals or magic writes. -/
def smallImmediate (s : State) : Check (Option State) := do
  let word := s.word 0
  let signal := bits word 53 5
  if signal = 14 ∨ signal = 15 then
    let op := bits word 24 8
    let dst := bits word 32 6
    let a := bits word 6 6
    let b := bits word 0 6
    if dst < 32 ∧ binary op ∧ word = add op dst a b ||| BitVec.ofNat 64 signal <<< 53 then
      rejectIf (if signal = 14 then a ≥ 48 ∨ ¬s.defines b else b ≥ 48 ∨ ¬s.defines a)
      return some ((s.skip 1).define dst)
  if signal = 30 ∨ signal = 31 then
    let dst := bits word 38 6
    let a := bits word 18 6
    let b := bits word 12 6
    rejectIf (dst ≥ 32 ∨ word ≠ mul 21 dst a b ||| BitVec.ofNat 64 signal <<< 53 ∨
      (if signal = 30 then a ≥ 48 ∨ ¬s.defines b else b ≥ 48 ∨ ¬s.defines a))
    return some ((s.skip 1).define dst)
  return none

/-- Bounded, adjacent conditional copy. Every input is defined before the first
instruction and the destination cannot clobber true data. -/
def selectCopy (s : State) : Check (Option State) := do
  let dst := bits (s.word 0) 38 6
  let mask := bits (s.word 0) 6 6
  let value := bits (s.word 0) 18 6
  if dst < 32 ∧ s.word 0 = selectFalse dst mask value then
    rejectIf (¬s.defines mask ∨ ¬s.defines value ∨ s.left < 2)
    let source := bits (s.word 1) 0 6
    rejectIf (dst = source ∨ ¬s.defines source ∨ s.word 1 ≠ copyUnless dst source)
    return some ((s.skip 2).define dst)
  return none

/-- A comparison whose flags the next instructions consume. -/
def comparison (op flag : ℕ) : Bool :=
  (op == 197 && decide (1 ≤ flag) && decide (flag ≤ 3)) || (op == 183 && flag == 1) ||
    ((op == 120 || op == 60) && flag == 3)

/-- A paired flag test and integer zero is followed immediately by its sole
conditional consumer. No arbitrary flag/peripheral form enters. -/
def flagPair (s : State) : Check (Option State) := do
  let word := s.word 0
  let dst := bits word 38 6
  let a := bits word 6 6
  let b := bits word 0 6
  let flag := bits word 46 7
  let op := bits word 24 8
  let normalize := op = 181 ∧ flag = 1
  if dst < 32 ∧ (normalize ∨ comparison op flag) ∧ word = flagAndZero op dst a b flag then
    rejectIf (¬s.defines a ∨ ¬s.defines b ∨ dst = a ∨ dst = b ∨ s.left < 2)
    let last := s.word 1
    rejectIf (¬(normalize ∧ last = copyUnless dst a) ∧
      ¬(last = invertWhere 0x20#64 dst ∨ last = invertWhere 0x28#64 dst))
    return some ((s.skip 2).define dst)
  return none

/-- Float comparison normalization: test exponent bits, clear the result, then
copy the original word only when the exponent is nonzero. -/
def normalization (s : State) : Check (Option State) := do
  let dst := bits (s.word 0) 32 6
  let a := bits (s.word 0) 6 6
  let b := bits (s.word 0) 0 6
  if dst < 32 ∧ s.word 0 = add 181 dst a b ||| 1#64 <<< 46 then
    rejectIf (¬s.defines a ∨ ¬s.defines b ∨ dst = a ∨ dst = b ∨ s.left < 3 ∨
      s.word 1 ≠ add 183 dst dst dst ∨ s.word 2 ≠ copyUnless dst a)
    return some ((s.skip 3).define dst)
  return none

/-- Comparisons are an indivisible three-instruction form: the ALU sets flags,
XOR initializes the mask, and a conditional NOT writes true. -/
def comparisonTriple (s : State) : Check (Option State) := do
  let word := s.word 0
  let dst := bits word 32 6
  let a := bits word 6 6
  let b := bits word 0 6
  let flag := bits word 46 7
  let op := bits word 24 8
  if dst < 32 ∧ comparison op flag ∧ word = add op dst a b ||| BitVec.ofNat 64 flag <<< 46 then
    rejectIf (¬s.defines a ∨ ¬s.defines b ∨ dst = a ∨ dst = b ∨ s.left < 3 ∨
      s.word 1 ≠ add 183 dst a a)
    rejectIf (s.word 2 ≠ invertWhere 0x20#64 dst ∧ s.word 2 ≠ invertWhere 0x28#64 dst)
    return some ((s.skip 3).define dst)
  return none

/-- Operand selectors of the one-source operations. -/
def unarySelector (stage : ProgramStage) (op b : ℕ) : Bool :=
  if op = 188 then b ∈ [32, 33]
  else if op = 246 then b ∈ [32, 36] || (b ∈ [4, 20] && stage == .pixel)
  else if op = 245 then b ∈ [7, 23, 39, 4, 20, 36, 52]
  else false

/-- The remaining single instructions: the register defined, if any, and the
number of idle instructions that must follow. -/
def scalar (s : State) : Check (Option ℕ × ℕ) := do
  let word := s.word 0
  let op := bits word 24 8
  let a := bits word 6 6
  let b := bits word 0 6
  let reg := bits word 32 6
  if reg < 32 ∧ word = add op reg a b then
    rejectIf (¬s.defines a)
    rejectIf (if binary op then !s.defines b else !unarySelector rules.stage op b)
    return (some reg, if op = 188 then 1 else 0)
  let mulOp := bits word 58 6
  let reg := bits word 38 6
  let a := bits word 18 6
  let b := bits word 12 6
  rejectIf (¬s.defines a ∨ ¬s.defines b)
  if mulOp = 10 then
    rejectIf (word ≠ multop a b)
    return (none, 1)
  rejectIf ((mulOp ≠ 21 ∧ mulOp ≠ 3) ∨ reg ≥ 32 ∨ word ≠ mul mulOp reg a b)
  return (some reg, 0)

/-- `code[at..at + nops]` is idle. -/
def gap (nops : ℕ) (s : State) : Check State := do
  rejectIf (nops > s.left ∨ s.rest.take nops ≠ List.replicate nops nop)
  return s.skip nops

def plain (s : State) : Check (Option State) := do
  let word := s.word 0
  if word = nop then return some (s.skip 1)
  if withoutDestination word = loadUniformWord then
    rejectIf (s.used ≥ count)
    return some { (s.skip 1).define (loadRegister word) with used := s.used + 1 }
  if word &&& ~~~((31#64 <<< 32) ||| (15#64 <<< 6)) = loadAttributeWord then
    rejectIf (rules.stage = .pixel ∨ bits word 6 4 ≥ rules.vertexScalars)
    return some (← gap 1 ((s.skip 1).define (bits word 32 5)))
  let (reg, nops) ← scalar rules s
  let s := s.skip 1
  return some (← gap nops (reg.elim s s.define))

/-- Texture requests cannot run while holding the tile scoreboard lock. -/
def colourWrite (s : State) : Prop :=
  s.targetRead = true ∧ s.word 0 = add 182 8 (bits (s.word 0) 0 6) (bits (s.word 0) 0 6) true

instance (s : State) : Decidable (colourWrite s) := inferInstanceAs (Decidable (_ ∧ _))

/-- The shapes of instructions in the body, in the order they are tried. -/
def shapes : List (State → Check (Option State)) :=
  [vpmStore rules count, varying rules, lookup rules count, moveImmediate, paired count,
    smallImmediate, selectCopy, flagPair, normalization, comparisonTriple, plain rules count]

def firstShape : List (State → Check (Option State)) → State → Check (Option State)
  | [], _ => return none
  | shape :: shapes, s => do
    match ← shape s with
    | some s => return some s
    | none => firstShape shapes s

/-- One turn of the main loop; `none` leaves the loop. -/
def item (s : State) : Check (Option State) :=
  if s.word 0 = switch then targetRead rules count s
  else if colourWrite s then return none
  else firstShape (shapes rules count) s

/-- Repeat while words are left; every turn takes at least one word. -/
def repeatItems (turn : State → Check (Option State)) : ℕ → State → Check State
  | 0, s => return s
  | fuel + 1, s =>
    if s.left = 0 then return s
    else do
      match ← turn s with
      | some s => repeatItems turn fuel s
      | none => return s

/-- The four writes of the pixel colour. -/
def colourWrites : List ℕ → State → Check State
  | [], s => return s
  | magic :: magics, s => do
    rejectIf (s.left = 0)
    let reg := bits (s.word 0) 0 6
    rejectIf (¬s.defines reg ∨ s.word 0 ≠ add 182 magic reg reg true)
    colourWrites magics (s.skip 1)

/-- What follows the body up to the thread end. -/
def tail (s : State) : Check State := do
  if rules.stage = .pixel then
    let s ← colourWrites [8, 7, 7, 7] s
    rejectIf (s.used ≥ count)
    let format ← checkedUniform s.used
    rejectIf (format ≠ tileFormat)
    return { s with used := s.used + 1 }
  else
    let s ← repeatItems (vpmStore rules count) s.left s
    rejectIf (s.written ≠ 1#32 <<< outputs rules - 1#32)
    return s

/-- `bindingsDeclared`. -/
def bindingsDeclared : BitVec 32 :=
  ((List.finRange 4).filter fun b => rules.bindingKinds b ≠ 0).foldl (fun m b => define m b.val) 0#32

/-- `*registers = defined`, `*usedBindings = bindingsUsed`. -/
def recordUse (s : State) : Check Unit :=
  .modify fun o => { o with registers := s.defined, bindings := s.bindingsUsed }

/-- The walk over a program with admissible rules. -/
def walk (code : List Word) : Check Bool := do
  let s : State :=
    { rest := code, used := 0, varyings := 0, written := 0#32, targetRead := false, samples := 0
      constantSamples := 0, bindingsUsed := 0#32
      defined := if rules.stage = .pixel ∧ rules.varyingScalars ≠ 0 then define (define 0#32 0) 3 else 0#32 }
  let s ← repeatItems (item rules count) code.length s
  rejectIf (rules.stage = .pixel ∧ s.varyings ≠ rules.varyingScalars)
  rejectIf (¬s.targetRead ∧ (s.left < 3 ∨ s.word 0 ≠ switch ∨ s.word 1 ≠ switch ∨ s.word 2 ≠ nop))
  let s ← tail rules count (if s.targetRead then s else s.skip 3)
  rejectIf (s.bindingsUsed &&& ~~~bindingsDeclared rules ≠ 0#32 ∨
    (decide (s.constantSamples ≠ 0) ≠ rules.constants) ∨ s.used ≠ count ∨
    s.rest ≠ [nop, switch, nop, nop])
  recordUse s
  return true

/-- The checks made before the program is looked at. -/
def admissible (words : ℕ) : Prop :=
  0 < words ∧ words ≤ maxProgramWords ∧ count ≤ maxProgramUniforms ∧ rules.vertexScalars ≤ 16 ∧
    rules.varyingScalars ≤ maxVaryings ∧ rules.nonPerspectiveMask < 1#32 <<< rules.varyingScalars ∧
    rules.flatMask < 1#32 <<< rules.varyingScalars ∧
    rules.nonPerspectiveMask &&& rules.flatMask = 0#32 ∧
    (rules.stage ≠ .pixel → rules.nonPerspectiveMask = 0#32 ∧ rules.flatMask = 0#32 ∧
      rules.targetReads = false) ∧
    ∀ b, rules.bindingKinds b = 0 ∨ rules.bindingKinds b = bindingTexture ∨
      bufferElementBytes (rules.bindingKinds b) ≠ 0

instance (words : ℕ) : Decidable (admissible rules count words) := inferInstanceAs (Decidable (_ ∧ _))

end Checks

/-- Results before the walk: the source clears everything it was given. -/
def Outputs.cleared : Outputs := ⟨[], 0#32, 0#32, fun _ => false⟩

/-- A rejection is a verdict too. -/
def verdict : Except Unit Bool → Bool
  | .ok valid => valid
  | .error () => false

/-- The verdict and the results it leaves. Null pointers count as empty arrays. -/
def validateProgram (code : List Word) (uniforms : List UWord) (rules : ProgramRules) :
    Bool × Outputs :=
  if admissible rules uniforms.length code.length then
    let r := (walk rules uniforms.length code).run (uniforms.getD · 0#32) .cleared
    (verdict r.1, r.2)
  else (false, .cleared)

/-- A verdict depends on the looked-at uniforms only. -/
theorem validateProgram_congr {code : List Word} {uniforms uniforms' : List UWord}
    {rules : ProgramRules} (hlen : uniforms'.length = uniforms.length)
    (h : ∀ i < uniforms.length, (validateProgram code uniforms rules).2.checked i = true →
      uniforms.getD i 0#32 = uniforms'.getD i 0#32) :
    validateProgram code uniforms' rules = validateProgram code uniforms rules := by
  unfold validateProgram at h ⊢
  rw [hlen]
  by_cases ha : admissible rules uniforms.length code.length
  · simp only [if_pos ha] at h ⊢
    rw [(walk rules uniforms.length code).agree (uniforms.getD · 0#32) (uniforms'.getD · 0#32)]
    intro i hi
    by_cases hlt : i < uniforms.length
    · exact h i hlt hi
    · rw [List.getD_eq_default _ _ (by omega), List.getD_eq_default _ _ (by omega)]
  · simp only [if_neg ha]

end Pi5Drivers.Validate
