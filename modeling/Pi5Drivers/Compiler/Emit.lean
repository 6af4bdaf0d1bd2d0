import Pi5Drivers.Compiler.Builder
import Pi5Drivers.Qpu.Pack

/-! Emission of a node graph (`native/shader.cpp`, `Compiler::Emit`). Live nodes are
emitted in order into 32 registers. A register is released with the last use of
its value; literals, constants and draw parameters are loaded again for each
use, unless a released register still holds them. Varyings are loaded in order
when they are first needed, vertex outputs are stored as soon as they exist, and
pixel programs are packed at the end. -/

namespace Pi5Drivers.Compiler

open Abi Qpu

/-! ### The graph to be emitted -/

/-- What `Emit` finds in the compiler. -/
structure Graph where
  stage : ShaderStage
  nodes : List Node
  roots : List ℕ
  lookups : List LookupGroup
  bindings : List ShaderBinding
  inputMasks : ShaderSignature
  inputModes : ℕ → ℕ
  varyingScalars : ℕ

namespace Graph

variable (g : Graph)

def node (i : ℕ) : Node := g.nodes.getD i (.uniform ⟨.literal, 0#32, 0⟩)

/-- The uniform a node stands for. -/
def uniformAt (i : ℕ) : Option Uniform :=
  match g.node i with
  | .uniform u => some u
  | _ => none

/-- `Fixed`: the word of a literal. -/
def literalAt (i : ℕ) : Option UWord :=
  match g.uniformAt i with
  | some u => if u.kind = .literal then some u.value else none
  | none => none

/-- Which nodes are live, and how often each of them is used. -/
structure Liveness where
  live : ℕ → Bool
  uses : ℕ → ℕ

/-- The operands of a live node are live. -/
def Liveness.mark (l : Liveness) (i : ℕ) : Liveness :=
  if l.live i then
    { live := fun j => l.live j || decide (j ∈ (g.node i).operands)
      uses := fun j => l.uses j + (g.node i).operands.count j }
  else l

def liveness : Liveness :=
  (List.range g.nodes.length).reverse.foldl (Liveness.mark g)
    { live := fun j => decide (j ∈ g.roots), uses := fun j => g.roots.count j }

def live (i : ℕ) : Bool := g.liveness.live i

/-- A live varying, vertex attribute or channel of the target colour. -/
def liveInput (kind : UniformKind) (i : ℕ) : Option UWord :=
  match g.uniformAt i with
  | some u => if u.kind = kind ∧ g.live i then some u.value else none
  | none => none

/-- The first live node of an input. -/
def inputNode (kind : UniformKind) (value : ℕ) : Option ℕ :=
  (List.range g.nodes.length).find? fun i => (g.liveInput kind i).any (·.toNat == value)

def lastLiveVarying : ℕ :=
  ((List.range g.nodes.length).filterMap fun i => (g.liveInput .fragmentVarying i).map BitVec.toNat).foldl max 0

/-- The bindings of live lookups, in the order of their first use. -/
def usedBindings : List ℕ :=
  (List.range g.nodes.length).foldl (fun used i =>
    match g.node i with
    | .texture _ _ _ group =>
      match g.lookups[group]? with
      | some lookup =>
        if g.live i ∧ lookup.kind ≠ .constant ∧ lookup.binding ∉ used then used ++ [lookup.binding] else used
      | none => used
    | _ => used) []

/-- Literals, constants and draw parameters are loaded again at each use rather than
occupying a register across the program. -/
def reloaded (i : ℕ) : Bool :=
  match g.uniformAt i with
  | some u => u.kind ∉ [.fragmentVarying, .vertexAttribute, .targetColor]
  | none => false

/-- Bits of the input scalars whose declaration has some interpolation mode. -/
def modeMask (mode : ℕ) : BitVec 32 :=
  let scalars := (List.range shaderRegisters).flatMap fun reg =>
    ((List.range 4).filter ((g.inputMasks reg).getLsbD ·)).map fun _ => g.inputModes reg
  (List.range scalars.length).foldl (fun m i => if scalars[i]? = some mode then m ||| 1#32 <<< i else m) 0#32

def nonPerspectiveMask : BitVec 32 := if g.stage = .pixel then g.modeMask 4 else 0#32
def flatMask : BitVec 32 := if g.stage = .pixel then g.modeMask 1 else 0#32

end Graph

/-! ### The state of the emission -/

structure Emission where
  code : List Item
  uniforms : List Uniform
  uses : ℕ → ℕ
  registers : ℕ → Option ℕ
  occupied : ℕ → Bool
  /-- Released uniform registers still hold their value until overwritten. -/
  uniformValue : ℕ → Option ℕ
  sampleEmitted : ℕ → Bool
  loadedVaryings : ℕ
  outputWritten : ℕ → Bool
  targetRead : Bool
  /-- A lookup in the constant table was emitted. -/
  constantTable : Bool

/-- A step of the emission, which fails with a message. -/
abbrev Emit (α : Type) := Tracked Empty Unit String (fun _ : Emission => (∅ : Set Empty)) α

namespace Emit

def need (condition : Prop) [Decidable condition] (message : String) : Emit Unit :=
  .reject message (¬condition)

def change (f : Emission → Emission) : Emit Unit := .modify f

/-- `Plain`: a word the packing pass may move. -/
def plain (word : Word) : Emit Unit := change fun s => { s with code := s.code ++ [⟨word, true⟩] }

/-- Words that keep their layout. -/
def fixed (words : List Word) : Emit Unit :=
  change fun s => { s with code := s.code ++ words.map fun w => ⟨w, false⟩ }

def pushUniform (u : Uniform) : Emit Unit := change fun s => { s with uniforms := s.uniforms ++ [u] }

def occupy (reg : ℕ) : Emit Unit :=
  change fun s => { s with occupied := Function.update s.occupied reg true }

def free (reg : ℕ) : Emit Unit :=
  change fun s => { s with occupied := Function.update s.occupied reg false }

/-- The register no longer holds a known uniform. -/
def forget (reg : ℕ) : Emit Unit :=
  change fun s => { s with uniformValue := Function.update s.uniformValue reg none }

def assign (node reg : ℕ) : Emit Unit :=
  change fun s => { s with registers := Function.update s.registers node (some reg) }

/-- A step that is made only where a condition holds. -/
def when (condition : Prop) [Decidable condition] (x : Emit Unit) : Emit Unit := if condition then x else pure ()

/-- The register of an input, if a live node stands for that input. -/
def claim (node : Option ℕ) (reg : ℕ) : Emit Unit :=
  match node with
  | some i => do
    occupy reg
    assign i reg
  | none => pure ()

end Emit

open Emit

/-- The source's `Missing` where a register number is expected. -/
def missingRegister : ℕ := 4294967295

namespace Emission

variable (s : Emission)

/-- The lowest free register. -/
def lowest : Option ℕ := (List.range 32).find? fun r => !s.occupied r

def register (node : ℕ) : ℕ := (s.registers node).getD missingRegister

end Emission

def freeRegister (message : String) : Emit ℕ := do
  match (← .get).lowest with
  | some reg => return reg
  | none => .fail message

/-- The fixed table of small immediates: small integers and powers of two. -/
def immediateIndex (value : UWord) : Option ℕ :=
  if value.toNat < 16 then some value.toNat
  else if 0xfffffff0 ≤ value.toNat then some (16 + (value.toNat - 0xfffffff0))
  else ((List.range 16).find? fun n => value.toNat == 0x3b800000 + n <<< 23).map (32 + ·)

section Emitter

variable (g : Graph)

/-- `Immediate`. -/
def immediate (node : ℕ) : Option ℕ := (g.literalAt node).bind immediateIndex

def remap (binding : ℕ) : Emit ℕ := do
  match g.usedBindings.idxOf? binding with
  | some index => return index
  | none => .fail "texel fetch result is unused"

/-! ### Varyings -/

/-- The words that load and interpolate a varying. Flat varyings preserve the unmodified
coefficient bits. The multiply fills the slot in which the coefficient arrives. -/
def varyingWords (scalar reg : ℕ) : List Word :=
  let flat := g.flatMask.getLsbD scalar
  [withDestination loadVaryingWord reg,
    if !flat && !g.nonPerspectiveMask.getLsbD scalar then mul 21 reg reg 3 else nop,
    if flat then add 182 reg 0 0 else add 5 reg 0 reg]

def loadVarying : Emit Unit := do
  let scalar := (← .get).loadedVaryings
  let reg ← freeRegister "varying register pressure exceeded"
  claim (g.inputNode .fragmentVarying scalar) reg
  forget reg
  forget 0
  fixed (varyingWords g scalar reg)
  change fun s => { s with loadedVaryings := scalar + 1 }

def loadMoreVaryings : ℕ → Emit Unit
  | 0 => return
  | n + 1 => do
    loadVarying g
    loadMoreVaryings n

/-- `LoadVaryings`. Trailing unused inputs are drained with the last useful varying; `rf0`
and `rf3` can then hold ordinary values for the rest of the program. -/
def loadVaryings (through : ℕ) : Emit Unit := do
  let through := if through ≥ g.lastLiveVarying then g.varyingScalars - 1 else through
  let before := (← .get).loadedVaryings
  loadMoreVaryings g (min (through + 1) g.varyingScalars - before)
  when (before < g.varyingScalars ∧ (← .get).loadedVaryings = g.varyingScalars) do
    free 0
    free 3

/-- `Ensure`. -/
def ensure (node : ℕ) : Emit Unit :=
  match g.uniformAt node with
  | some u => if u.kind = .fragmentVarying then loadVaryings g u.value.toNat else pure ()
  | none => pure ()

/-! ### Operands -/

/-- Where a uniform that is not in a register goes: an unused high register, or else any
free one. Short-lived results grow from the low end, preserving cached constants longer. -/
def Emission.uniformRegister (s : Emission) : Option ℕ :=
  ((List.range 32).reverse.find? fun r => !s.occupied r && s.uniformValue r == none) <|>
    ((List.range 32).reverse.find? fun r => !s.occupied r)

/-- The uniform word of a node; buffer sizes are those of the binding as it is numbered in
the finished program. -/
def uniformWord (node : ℕ) : Emit Uniform := do
  let u := (g.uniformAt node).getD ⟨.literal, 0#32, 0⟩
  if u.kind ∈ [.bindingElements, .bindingWidth, .bindingHeight] then return { u with slot := ← remap g u.slot }
  else return u

def loadUniform (node : ℕ) : Emit ℕ := do
  let s ← .get
  match (List.range 32).find? fun r => !s.occupied r && s.uniformValue r == some node with
  | some cached =>
    occupy cached
    return cached
  | none =>
    match s.uniformRegister with
    | none => .fail "uniform register pressure exceeded"
    | some reg =>
      occupy reg
      change fun s => { s with uniformValue := Function.update s.uniformValue reg (some node) }
      match immediate g node with
      | some i =>
        plain (add 249 reg i 3 ||| 14#64 <<< 53)
        return reg
      | none =>
        let u ← uniformWord g node
        plain (withDestination loadUniformWord reg)
        pushUniform u
        return reg

structure Operands where
  a : ℕ
  b : ℕ
  temps : List ℕ
  immediateA : Bool
  immediateB : Bool

/-- Where a source is found, and the register that was loaded for this use. -/
def sourceRegister (node : ℕ) : Emit (ℕ × List ℕ) := do
  if g.reloaded node then
    let reg ← loadUniform g node
    return (reg, [reg])
  else return ((← .get).register node, [])

/-- `Fetch`. A signal selects at most one of the source fields. -/
def fetchOperands (na nb : ℕ) (useImmediate : Bool) : Emit Operands := do
  let ia := if useImmediate then immediate g na else none
  let ib := if useImmediate then immediate g nb else none
  let immediateB := ib.isSome
  let immediateA := !immediateB && ia.isSome
  let (a, tempsA) ← (if immediateA then pure (ia.getD 0, []) else sourceRegister g na)
  let (b, tempsB) ← (if immediateB then pure (ib.getD 0, [])
    else if nb = na then pure (a, []) else sourceRegister g nb)
  need (a < (if immediateA then 48 else 32) ∧ b < (if immediateB then 48 else 32))
    "invalid scalar register assignment"
  return ⟨a, b, tempsA ++ tempsB, immediateA, immediateB⟩

/-- `--uses[node]`, and the register is free after the last use. -/
def releaseUse (node : ℕ) : Emit Unit := do
  if g.reloaded node then return
  change fun s => { s with uses := Function.update s.uses node ((s.uses node + 4294967295) % 4294967296) }
  let s ← .get
  when (s.uses node = 0) (free (s.register node))

def releaseConsumers (na nb : ℕ) : ℕ → Emit Unit
  | 0 => return
  | n + 1 => do
    releaseUse g na
    releaseUse g nb
    releaseConsumers na nb n

/-- `Release`. -/
def release (o : Operands) (na nb consumers : ℕ) : Emit Unit := do
  o.temps.forM free
  releaseConsumers g na nb consumers

/-! ### Vertex inputs and outputs -/

/-- Small immediates stop at 15, so later indices come from a uniform loaded into a
scratch register. -/
def storeOutput (c value : ℕ) : Emit Unit := do
  if c < 16 then fixed [storeOutputWord ||| BitVec.ofNat 64 c <<< 6 ||| BitVec.ofNat 64 value, nop]
  else
    let index ← freeRegister "vertex output register pressure exceeded"
    forget index
    fixed [withDestination loadUniformWord index]
    pushUniform ⟨.literal, BitVec.ofNat 32 c, 0⟩
    fixed [nop, storeIndexedWord ||| BitVec.ofNat 64 index <<< 6 ||| BitVec.ofNat 64 value, nop]

def writeOutput (c root : ℕ) : Emit Unit := do
  let s ← .get
  when (¬s.outputWritten c ∧ ((s.registers root).isSome ∨ g.reloaded root)) do
    let value ← (if g.reloaded root then loadUniform g root else pure (s.register root))
    storeOutput c value
    change fun s => { s with outputWritten := Function.update s.outputWritten c true }
    if g.reloaded root then free value else releaseUse g root

/-- `WriteOutputs`. Vertex outputs are stored as soon as their value exists. -/
def writeOutputs : Emit Unit := do
  if g.stage = .pixel then return
  (List.range g.roots.length).forM fun c => writeOutput g c (g.roots.getD c 0)

/-- Vertex inputs and outputs share one segment, so every attribute is read before the
first output store can overwrite it. -/
def loadAttribute (i : ℕ) : Emit Unit :=
  match g.liveInput .vertexAttribute i with
  | some value => do
    let reg ← freeRegister "vertex attribute register pressure exceeded"
    occupy reg
    assign i reg
    forget reg
    fixed [loadAttributeWord ||| BitVec.ofNat 64 reg <<< 32 ||| BitVec.ofNat 64 value.toNat <<< 6, nop]
  | none => pure ()

/-! ### Nodes -/

/-- One channel of the previous colour. -/
def readChannel (c : ℕ) : Emit Unit := do
  let reg ← freeRegister "target color register pressure exceeded"
  claim (g.inputNode .targetColor c) reg
  forget reg
  fixed [withDestination (if c = 0 then loadTargetFirstWord else loadTargetWord) reg, nop]

/-- All texture reads precede the final thread switch; the tile scoreboard is acquired
before the previous pixel colour is read. -/
def emitTargetRead : Emit Unit := do
  need (g.stage = .pixel) "target color is only available to pixel shaders"
  when (g.varyingScalars ≠ 0) (loadVaryings g (g.varyingScalars - 1))
  fixed [switch, switch, nop]
  change fun s => { s with targetRead := true }
  [0, 1, 2, 3].forM (readChannel g)
  pushUniform ⟨.literal, 0xffffff3f#32, 0⟩

/-- The register of the mask of a select with these values. -/
def maskSource (mask a b : ℕ) (values : Operands) : Emit ℕ := do
  if mask = a then return values.a
  if mask = b then return values.b
  if g.reloaded mask then loadUniform g mask else return (← .get).register mask

def emitSelect (i mask a b : ℕ) : Emit Unit := do
  ensure g b
  let values ← fetchOperands g a b false
  let maskRegister ← maskSource g mask a b values
  need (maskRegister < 32) "invalid select mask register"
  let reg ← freeRegister "select register pressure exceeded"
  fixed [selectFalse reg maskRegister values.b]
  fixed [copyUnless reg values.a]
  release g values a b 1
  (if g.reloaded mask then free maskRegister else releaseUse g mask)
  occupy reg
  assign i reg
  forget reg
  writeOutputs g

/-- Registers for the live words of a lookup. -/
def lookupDestination (value : ℕ) : Emit (Option ℕ) := do
  if g.live value then
    let reg ← freeRegister "texture register pressure exceeded"
    occupy reg
    assign value reg
    return some reg
  else return none

/-- The two configuration uniforms of a lookup. -/
def lookupUniforms (constant : Bool) (binding : ℕ) : List Uniform :=
  let token := BitVec.ofNat 32 binding <<< bindingTokenShift
  if constant then
    [⟨.constantTextureConfig, constantTextureToken, binding⟩, ⟨.constantSamplerConfig, constantSamplerToken, binding⟩]
  else [⟨.textureConfig, textureToken ||| token, binding⟩, ⟨.samplerConfig, samplerToken ||| token, binding⟩]

/-- The coordinates of a lookup, and the thread switch that waits for the results. -/
def requestWords (kind : Lookup) (a b : ℕ) : List Word :=
  (if kind ≠ .fetch1D then [add 182 34 b b true] else []) ++
    [add 182 (if kind = .sample ∨ kind = .constant then 33 else 41) a a true, nop, switch, nop, nop, nop]

def loadResult (reg : ℕ) : Emit Unit := do
  forget reg
  fixed [withDestination loadTextureWord reg]

def emitLookup (lookup : LookupGroup) (a b : ℕ) : Emit Unit := do
  let constant := lookup.kind == .constant
  when constant (change fun s => { s with constantTable := true })
  let coordinates ← fetchOperands g a b false
  let x ← lookupDestination g (lookup.values 0)
  let y ← lookupDestination g (lookup.values 1)
  let z ← lookupDestination g (lookup.values 2)
  let w ← lookupDestination g (lookup.values 3)
  let scratch ← freeRegister "texture temporary register pressure exceeded"
  let binding ← (if constant then pure 0 else remap g lookup.binding)
  fixed [config, config]
  (lookupUniforms constant binding).forM pushUniform
  fixed (requestWords lookup.kind coordinates.a coordinates.b)
  [x, y, z, w].forM fun destination => loadResult (destination.getD scratch)
  release g coordinates a b ([x, y, z, w].countP Option.isSome)
  writeOutputs g

/-- A lookup is emitted for the first of its words. -/
def emitTexture (a b group : ℕ) : Emit Unit := do
  let s ← .get
  need (¬s.targetRead) "texture lookup after tile scoreboard lock"
  if s.sampleEmitted group then return
  change fun s => { s with sampleEmitted := Function.update s.sampleEmitted group true }
  match g.lookups[group]? with
  | some lookup => emitLookup g lookup a b
  | none => pure ()

/-- Operations that accept a small immediate. -/
def Op.takesImmediate (op : Op) : Bool :=
  op ∈ [.mul, .add, .sub, .iadd, .isub, .min, .max, .and, .or, .xor, .shl, .shr, .asr, .imin, .imax,
    .umin, .umax]

/-- Comparisons, with the operation that sets the flags, the flag, whether the operands
are exchanged and the condition under which the result is true. -/
def Op.test : Op → Option (ℕ × ℕ × Bool × Word)
  | .feq => some (197, 1, false, 0x20#64)
  | .fne => some (197, 1, false, 0x28#64)
  | .flt => some (197, 2, false, 0x20#64)
  | .fge => some (197, 3, true, 0x20#64)
  | .ieq => some (183, 1, false, 0x20#64)
  | .ine => some (183, 1, false, 0x28#64)
  | .ilt => some (120, 3, true, 0x20#64)
  | .ult => some (60, 3, false, 0x20#64)
  | .fzeq => some (181, 1, false, 0x20#64)
  | .fzne => some (181, 1, false, 0x28#64)
  | _ => none

/-- One-source operations: opcode and selector. -/
def Op.conversion : Op → Option (ℕ × ℕ)
  | .reciprocal => some (188, 32)
  | .rsqrt => some (188, 33)
  | .round => some (245, 4)
  | .trunc => some (245, 20)
  | .floor => some (245, 36)
  | .ceil => some (245, 52)
  | .fdx => some (246, 4)
  | .fdy => some (246, 20)
  | .itof => some (246, 32)
  | .utof => some (246, 36)
  | .ftoi => some (245, 23)
  | .ftou => some (245, 39)
  | .ftoin => some (245, 7)
  | _ => none

/-- Opcodes of the add ALU. -/
def Op.opcode : Op → ℕ
  | .add => 5 | .sub => 69 | .iadd => 56 | .isub => 60 | .and => 181 | .or => 182 | .xor => 183
  | .imin => 120 | .imax => 121 | .umin => 122 | .umax => 123 | .shl => 124 | .shr => 125 | .asr => 126
  | _ => 133

/-- Float addition, minimum and maximum share an opcode and are told apart by the order of
their operands. -/
def exchanged (op : Op) (o : Operands) : Bool :=
  let keyA := o.a + if o.immediateA then 256 else 0
  let keyB := o.b + if o.immediateB then 256 else 0
  ((op == .add || op == .min) && decide (keyA > keyB)) || (op == .max && decide (keyA ≤ keyB))

/-- The signals that replace a source by a small immediate. -/
def addSignal (immediateA immediateB : Bool) : ℕ := if immediateA then 14 else if immediateB then 15 else 0

def mulSignal (immediateA immediateB : Bool) : ℕ := if immediateA then 30 else if immediateB then 31 else 0

/-- The words of an operation on fetched operands. -/
def emitOperation (op : Op) (reg : ℕ) (o : Operands) : Emit Unit :=
  match op.test, op.conversion with
  | some (operation, flag, exchange, condition), _ => do
    fixed [if exchange then flagAndZero operation reg o.b o.a flag else flagAndZero operation reg o.a o.b flag]
    fixed [invertWhere condition reg]
  | none, some (operation, selector) => fixed [add operation reg o.a selector]
  | none, none =>
    match op with
    | .ftz => do
      fixed [flagAndZero 181 reg o.a o.b 1]
      fixed [copyUnless reg o.a]
    | .mul => plain (mul 21 reg o.a o.b ||| BitVec.ofNat 64 (mulSignal o.immediateA o.immediateB) <<< 53)
    | .imul => do
      fixed [multop o.a o.b]
      fixed [nop]
      fixed [mul 3 reg o.a o.b]
    | op =>
      if exchanged op o then
        plain (add op.opcode reg o.b o.a ||| BitVec.ofNat 64 (addSignal o.immediateB o.immediateA) <<< 53)
      else plain (add op.opcode reg o.a o.b ||| BitVec.ofNat 64 (addSignal o.immediateA o.immediateB) <<< 53)

/-- The register of a result: that of an operand with its last use here, or else a free one. -/
def resultRegister (op : Op) (a b : ℕ) (o : Operands) : Emit ℕ := do
  let s ← .get
  let reg := s.lowest.getD 32
  let reg :=
    if op.test.isSome ∨ op = .ftz then reg
    else if ¬o.immediateA ∧ ((¬g.reloaded a ∧ s.uses a = if a = b then 2 else 1) ∨ (reg = 32 ∧ g.reloaded a)) then o.a
    else if ¬o.immediateB ∧ ((¬g.reloaded b ∧ s.uses b = 1) ∨ (reg = 32 ∧ g.reloaded b)) then o.b
    else reg
  need (reg < 32) "shader register pressure exceeds the 4-thread register bank"
  return reg

def emitBinary (i : ℕ) (op : Op) (a b : ℕ) : Emit Unit := do
  let o ← fetchOperands g a b op.takesImmediate
  let reg ← resultRegister g op a b o
  occupy reg
  assign i reg
  forget reg
  emitOperation op reg o
  release g o a b 1
  occupy reg
  forget reg
  -- Results of the special-function unit arrive one instruction late.
  when (op = .reciprocal ∨ op = .rsqrt ∨ op = .imul) (fixed [nop])
  writeOutputs g

def emitNode (i : ℕ) : Emit Unit := do
  if ¬g.live i then return
  match g.node i with
  | .uniform u => when (u.kind = .targetColor ∧ ¬(← .get).targetRead) (emitTargetRead g)
  | .select mask a b =>
    ensure g mask
    ensure g a
    emitSelect g i mask a b
  | .texture s t _ group =>
    ensure g s
    ensure g t
    emitTexture g s t group
  | .binary op a b =>
    ensure g a
    ensure g b
    emitBinary g i op a b

/-! ### The whole program -/

/-- The register of a colour component. -/
def colour (root : ℕ) : Emit ℕ := do
  if g.reloaded root then loadUniform g root else return (← .get).register root

def colours : List ℕ → Emit (List ℕ)
  | [] => return []
  | root :: roots => do
    let reg ← colour g root
    return reg :: (← colours roots)

def colourWords (regs : List ℕ) : List Word :=
  (List.range regs.length).map fun c => add 182 (if c = 0 then 8 else 7) (regs.getD c 0) (regs.getD c 0) true

/-- What follows the last node. -/
def emitTail : Emit Unit := do
  when (g.stage = .pixel ∧ g.varyingScalars ≠ 0) (loadVaryings g (g.varyingScalars - 1))
  let s ← .get
  need (g.stage = .pixel ∨ ∀ c < g.roots.length, s.outputWritten c) "vertex output was not produced"
  let regs ← (if g.stage = .pixel then colours g g.roots else pure [])
  when (¬(← .get).targetRead) (fixed [switch, switch, nop])
  fixed (colourWords regs)
  when (g.stage = .pixel) (pushUniform ⟨.literal, 0xffffff3f#32, 0⟩)
  fixed [nop, switch, nop, nop]

def emitAll : Emit Unit := do
  when (g.stage ≠ .pixel) ((List.range g.nodes.length).forM (loadAttribute g))
  writeOutputs g
  (List.range g.nodes.length).forM (emitNode g)
  emitTail g

/-- `rf3` holds the payload of the interpolation, and each varying load also writes `rf0`. -/
def Emission.initial : Emission where
  code := []
  uniforms := []
  uses := g.liveness.uses
  registers := fun _ => none
  occupied := fun r => decide (g.stage = .pixel ∧ g.varyingScalars ≠ 0 ∧ (r = 0 ∨ r = 3))
  uniformValue := fun _ => none
  sampleEmitted := fun _ => false
  loadedVaryings := 0
  outputWritten := fun _ => false
  targetRead := false
  constantTable := false

/-- The unpacked program. -/
def emitted : Except String Emission :=
  match (emitAll g).run Empty.elim (Emission.initial g) with
  | (.ok (), s) => .ok s
  | (.error message, _) => .error message

/-- The instruction words, packed for pixel programs. -/
def finalCode (s : Emission) : List Word :=
  if g.stage = .pixel then pack s.code else s.code.map Item.word

end Emitter

end Pi5Drivers.Compiler
