import Pi5Drivers.Compiler.Instruction
import Pi5Drivers.Compiler.Emit
import Mathlib.Data.List.Infix

/-! The main loop of the compiler and its entry points (`native/shader.cpp`, `Run`,
`RunCompiler`, `CompileShader`, `CompileShaderTokens`). Loops are unrolled while
the stream is followed; what the pipeline adds to a program comes after the
last instruction. -/

namespace Pi5Drivers.Compiler

open Abi Compile

/-! ### Structured blocks -/

/-- Match structured blocks before following a specialized branch. The result gives, for
the start of a block, the place behind its end. -/
def matchBlocks (tokens : List UWord) : (fuel at_ : ℕ) → (blocks : List (ℕ × ℕ)) → (ends : ℕ → ℕ) →
    Except String (ℕ → ℕ)
  | 0, _, blocks, ends => if blocks = [] then .ok ends else .error "unterminated shader control block"
  | fuel + 1, at_, blocks, ends =>
    if at_ ≥ tokens.length then
      if blocks = [] then .ok ends else .error "unterminated shader control block"
    else
      let token := tokens.getD at_ 0#32
      let op := tokenBits token 0 11
      let length := tokenBits token 24 7
      if length = 0 ∨ length > tokens.length - at_ then .error "invalid shader instruction length"
      else if op = 48 ∨ op = 31 then
        if blocks.length < 16 then matchBlocks tokens fuel (at_ + length) ((at_, op) :: blocks) ends
        else .error "shader control nesting limit exceeded"
      else if op = 18 then
        if (blocks.head?.map Prod.snd) = some 31 then matchBlocks tokens fuel (at_ + length) blocks ends
        else .error "unbalanced else"
      else if op = 22 ∨ op = 21 then
        match blocks with
        | (start, kind) :: blocks =>
          if kind = if op = 22 then 48 else 31 then
            matchBlocks tokens fuel (at_ + length) blocks (Function.update ends start (at_ + length))
          else .error "unbalanced shader control block"
        | [] => .error "unbalanced shader control block"
      else matchBlocks tokens fuel (at_ + length) blocks ends

/-! ### The main loop -/

/-- A loop that is being followed; its body starts at `body`, and `exit` is behind its end. -/
structure Loop where
  body : ℕ
  exit : ℕ
  branchDepth : ℕ
  mask : Option ℕ
  iterations : ℕ

section Run

variable (settings : Settings)

/-- The mask is the same for all lanes and known. -/
def State.uniformMask (s : State) : Prop := ∀ m ∈ s.activeMask, s.isLiteral settings m = true

instance (s : State) : Decidable (s.uniformMask settings) := by
  unfold State.uniformMask
  cases s.activeMask with
  | none => exact isTrue fun _ h => by simp at h
  | some m => exact decidable_of_iff (s.isLiteral settings m = true) (by simp)

/-- Whether the active mask is not a known zero. -/
def maskHolds : Compile Bool := do
  match (← .get).activeMask with
  | none => return true
  | some m => return (← value settings m) ≠ 0#32

def beginLoop (token : UWord) (length next exit : ℕ) (loops : List Loop) : Compile (ℕ × List Loop) := do
  let s ← .get
  need (token &&& 0x80fff800#32 = 0#32 ∧ length = 1 ∧ ¬s.returned) "invalid loop instruction"
  need (s.uniformMask settings) "divergent loop is unsupported"
  change (fun s => { s with executable := true }) executable_specialized
  if ← maskHolds settings then return (next, ⟨next, exit, s.branches.length, s.activeMask, 0⟩ :: loops)
  else return (exit, loops)

def endLoop (token : UWord) (length : ℕ) (loops : List Loop) : Compile (ℕ × List Loop) := do
  let s ← .get
  match loops with
  | [] => .fail "invalid endloop instruction"
  | loop :: loops =>
    need (token &&& 0x80fff800#32 = 0#32 ∧ length = 1 ∧ s.branches.length = loop.branchDepth)
      "invalid endloop instruction"
    need (loop.iterations + 1 ≤ 128) "uniform loop iteration limit exceeded"
    return (loop.body, { loop with iterations := loop.iterations + 1 } :: loops)

/-- The condition of a break as the program states it. -/
def breakCondition (op : ℕ) (token : UWord) : Compile UWord := do
  if op = 3 then
    let o ← operand false
    let v ← nonZero settings (← read settings o 0 true)
    let s ← .get
    need (s.isLiteral settings v) "loop exit must be uniform and constant"
    let condition ← value settings v
    return if token.getLsbD 18 then condition else ~~~condition
  else return 0xffffffff#32

def breakLoop (op : ℕ) (token : UWord) (next : ℕ) (loops : List Loop) : Compile (ℕ × List Loop) := do
  match loops with
  | [] => .fail "invalid loop break"
  | loop :: outer =>
    need (token &&& (if op = 3 then 0x80fbf800#32 else 0x80fff800#32) = 0#32) "invalid loop break"
    let condition ← breakCondition settings op token
    if condition ≠ 0#32 then
      let s ← .get
      need (s.uniformMask settings) "divergent loop break is unsupported"
      if ← maskHolds settings then
        change fun s => { s with
          branches := s.branches.drop (s.branches.length - loop.branchDepth)
          activeMask := loop.mask }
        return (loop.exit, outer)
    return (next, loops)

/-- One instruction at `start`: where to go on, and the loops that are being followed. -/
def follow (ends : ℕ → ℕ) (start : ℕ) (token : UWord) (loops : List Loop) : Compile (ℕ × List Loop) := do
  let op := tokenBits token 0 11
  let length := tokenBits token 24 7
  let next := start + length
  if op = 48 then beginLoop settings token length next (ends start) loops
  else if op = 22 then endLoop token length loops
  else if op = 2 ∨ op = 3 then breakLoop settings op token next loops
  else
    need (op ≠ 62 ∨ loops = []) "return inside a loop is unsupported"
    instruction settings token
    return (next, loops)

/-- Where an instruction failed. -/
def located (start : ℕ) (token : UWord) (message : String) : String :=
  message ++ " at token " ++ toString start ++ " opcode " ++ toString (tokenBits token 0 11)

/-- The main loop; `remaining` counts down to the limit of followed instructions. -/
def followAll (tokens : List UWord) (ends : ℕ → ℕ) : (remaining start : ℕ) → List Loop → Compile Unit
  | remaining, start, loops => do
    if start ≥ tokens.length then return
    let token := tokens.getD start 0#32
    let length := tokenBits token 24 7
    need (length ≠ 0 ∧ length ≤ tokens.length - start) "invalid shader instruction length"
    match remaining with
    | 0 => .fail (located start token "shader specialization instruction limit exceeded")
    | remaining + 1 =>
      change fun s => { s with
        reader := (tokens.drop (start + 1)).take (length - 1)
        instructionCount := s.instructionCount + 1 }
      let (next, loops) ← (follow settings ends start token loops).mapFailure (located start token)
      need ((← .get).reader = []) "unconsumed shader instruction data"
      followAll tokens ends remaining next loops

/-! ### What the pipeline adds -/

/-- `1 - v`. -/
def invert (v : ℕ) : Compile ℕ := do
  let one ← literal 0x3f800000#32
  binary settings .add one (← binary settings .xor v (← literal 0x80000000#32))

/-- `Factor`: a D3D blend factor. -/
def blendFactor (second : Register) (source destination : Fin 4 → ℕ) (factor : ℕ) (c : Fin 4) : Compile ℕ := do
  match factor with
  | 1 => literal 0#32
  | 2 => literal 0x3f800000#32
  | 3 => return source c
  | 4 => invert settings (source c)
  | 5 => return source 3
  | 6 => invert settings (source 3)
  | 7 => return destination 3
  | 8 => invert settings (destination 3)
  | 9 => return destination c
  | 10 => invert settings (destination c)
  | 11 =>
    if c = 3 then literal 0x3f800000#32
    else binary settings .min (source 3) (← invert settings (destination 3))
  | 14 | 15 | 20 | 21 =>
    let component : ℕ := if factor ≥ 20 then 3 else c
    let v ← saturate settings (← uniformNode .blendConstant (BitVec.ofNat 32 component))
    if factor = 15 ∨ factor = 21 then invert settings v else return v
  | 16 | 17 | 18 | 19 =>
    match second (if factor ≥ 18 then 3 else c) with
    | none => .fail "dual-source blend output is uninitialized"
    | some v =>
      let v ← saturate settings v
      if factor = 17 ∨ factor = 19 then invert settings v else return v
  | _ => .fail "unsupported shader blend factor"

def blendComponent (blend : ShaderBlend) (second : Register) (source destination : Fin 4 → ℕ) (c : Fin 4) :
    Compile ℕ := do
  let base := if c = 3 then 3 else 0
  let operation := blend.functions (base + 2)
  need (1 ≤ operation ∧ operation ≤ 5) "unsupported shader blend operation"
  if operation ≥ 4 then binary settings (if operation = 4 then .min else .max) (source c) (destination c)
  else
    let factor := blendFactor settings second source destination
    let a ← binary settings .mul (source c) (← factor (blend.functions base) c)
    let b ← binary settings .mul (destination c) (← factor (blend.functions (base + 1)) c)
    let b ← if operation = 2 then do binary settings .xor b (← literal 0x80000000#32) else pure b
    let a ← if operation = 3 then do binary settings .xor a (← literal 0x80000000#32) else pure a
    binary settings .add a b

/-- One component of the saturated colour, and the one of the target. -/
def blendOperands (output : Fin 4 → ℕ) (c : Fin 4) : Compile (ℕ × ℕ) := do
  let source ← saturate settings (output c)
  let destination ← uniformNode .targetColor (BitVec.ofNat 32 c)
  return (source, destination)

/-- The colour blended with the previous one. -/
def blended (blend : ShaderBlend) (output : Fin 4 → ℕ) (second : Register) : Compile (Fin 4 → ℕ) := do
  let (sx, dx) ← blendOperands settings output 0
  let (sy, dy) ← blendOperands settings output 1
  let (sz, dz) ← blendOperands settings output 2
  let (sw, dw) ← blendOperands settings output 3
  let dw ← if blend.opaqueTarget then literal 0x3f800000#32 else pure dw
  components 15#4 (blendComponent settings blend second ![sx, sy, sz, sw] ![dx, dy, dz, dw])

/-- The roots of a pixel shader. -/
def pixelRoots (output : Fin 4 → ℕ) : Compile (List ℕ) := do
  match settings.blend with
  | none => return List.ofFn output
  | some blend =>
    if blend.functions 2 = 0 then return List.ofFn output
    else return List.ofFn (← blended settings blend output ((← .get).outputs 1))

/-- A coordinate projected to the screen. -/
def projected (output : Fin 4 → ℕ) (reciprocal : ℕ) (c : Fin 4) : Compile ℕ := do
  let scaled ← binary settings .mul (output c) (← uniformNode .viewport (BitVec.ofNat 32 c))
  let projected ← binary settings .mul scaled reciprocal
  binary settings .ftoin projected projected

/-- The varyings of one output register. -/
def varyingRoots (positionOutput reg : ℕ) : Compile (List ℕ) := do
  let s ← .get
  let mask := match settings.linkedVaryings with
    | some linked => linked reg
    | none => if reg = positionOutput then 0#4 else s.outputMasks reg
  need (reg ≠ positionOutput ∨ mask = 0#4) "position fragment inputs are unsupported"
  need (mask &&& ~~~s.outputMasks reg = 0#4) "vertex/pixel signature mismatch"
  let used : List (Fin 4) := (List.finRange 4).filter fun c => mask.getLsbD c
  need (∀ c ∈ used, (s.outputs reg c).isSome) "uninitialized vertex varying"
  return used.filterMap (s.outputs reg)

def allVaryingRoots (positionOutput : ℕ) : List ℕ → Compile (List ℕ)
  | [] => return []
  | reg :: regs => do
    let roots ← varyingRoots settings positionOutput reg
    return roots ++ (← allVaryingRoots positionOutput regs)

/-- The roots of a coordinate or vertex shader, and how many of them are varyings. -/
def vertexRoots (positionOutput : ℕ) (output : Fin 4 → ℕ) : Compile (List ℕ × ℕ) := do
  let reciprocal ← binary settings .reciprocal (output 3) (output 3)
  let x ← projected settings output reciprocal 0
  let y ← projected settings output reciprocal 1
  if settings.stage = .coordinate then return (List.ofFn output ++ [x, y], 0)
  else
    let scaled ← binary settings .mul (output 2) (← uniformNode .viewport 2#32)
    let product ← binary settings .mul scaled reciprocal
    let depth ← binary settings .add product (← uniformNode .viewport 3#32)
    let varyings ← allVaryingRoots settings positionOutput (List.range shaderRegisters)
    return ([x, y, depth, reciprocal] ++ varyings, varyings.length)

/-- The four nodes of a finished output. -/
def complete (output : Register) : Compile (Fin 4 → ℕ) := do
  need (∀ c, (output c).isSome) "shader color component is uninitialized"
  return fun c => (output c).getD 0

/-- The roots of the graph. -/
def selectRoots : Compile Unit := do
  let s ← .get
  let message := "shader must return a complete position/color output"
  match if settings.stage = .pixel then some 0 else s.positionOutput with
  | none => .fail message
  | some selected =>
    need (s.returned ∧ selected < shaderRegisters ∧ s.outputMasks selected = 15#4) message
    let output ← complete (s.outputs selected)
    let (roots, varyings) ←
      if settings.stage = .pixel then do
        let roots ← pixelRoots settings output
        pure (roots, inputScalar s.inputMasks shaderRegisters 0)
      else vertexRoots settings selected output
    need (varyings ≤ maxVaryings) "varying scalar limit exceeded"
    change fun s => { s with roots := roots, varyingScalars := varyings }

/-- What is emitted. -/
def State.graph (s : State) : Graph where
  stage := settings.stage
  nodes := s.nodes
  roots := s.roots
  lookups := s.lookups
  bindings := s.bindings
  inputMasks := s.inputMasks
  inputModes := s.inputModes
  varyingScalars := s.varyingScalars

/-- The finished program. -/
def State.shader (s : State) (e : Emission) : Shader :=
  let g := s.graph settings
  { code := finalCode g e
    uniforms := e.uniforms
    instructions := s.instructionCount
    inputs := s.inputMasks
    systemInputs := s.systemInputs
    outputScalars := s.roots.length
    varyingScalars := s.varyingScalars
    nonPerspectiveMask := g.nonPerspectiveMask
    flatMask := g.flatMask
    bindings := g.usedBindings.map fun b => s.bindings.getD b ⟨0, none, false, false⟩
    constantSlot := if e.constantTable then s.constantSlot else none
    constantWords := if e.constantTable then s.constantWords else 0
    constantDeclaredWords := if e.constantTable then s.constantSizes (s.constantSlot.getD 0) * 4 else 0
    specialized := s.specialized }

/-- `Emit`. -/
def emit : Compile Shader := do
  let s ← .get
  match emitted (s.graph settings) with
  | .error message => .fail message
  | .ok e =>
    let shader := s.shader settings e
    need (shader.code.length ≤ maxProgramWords) "shader instruction limit exceeded"
    need (shader.uniforms.length ≤ maxProgramUniforms) "shader uniform limit exceeded"
    return shader

/-- The token that starts a program of the stage. -/
def versionToken : UWord := if settings.stage = .pixel then 0x40#32 else 0x10040#32

/-- `Run`. -/
def run (tokens : List UWord) : Compile Shader := do
  change (fun s => { s with reader := tokens }) (reader_specialized tokens)
  need ((← take) = versionToken settings) "shader stage or model is unsupported"
  need ((← take).toNat = tokens.length) "shader token count mismatch"
  match matchBlocks tokens tokens.length 2 [] (fun _ => 0) with
  | .error message => .fail message
  | .ok ends =>
    followAll settings tokens ends 65536 2 []
    selectRoots settings
    emit settings

end Run

/-! ### Entry points -/

/-- One attempt at a program. -/
def compileWithin (stage : ShaderStage) (linked : Option ShaderSignature) (constants : Option ConstantBuffers)
    (blend : Option ShaderBlend) (tokens : List UWord) (window : ℕ) : Except String Shader :=
  let settings : Settings := ⟨stage, linked, constants.isSome, blend, window⟩
  let word (k : ℕ × UWord) : UWord := constants.elim 0#32 fun c => c.word k.1 k.2.toNat
  ((run settings tokens).run word .initial).1

/-- `strstr(e.what(),"register pressure")`. -/
def registerPressure (message : String) : Bool := decide ("register pressure".toList <:+: message.toList)

/-- `RunCompiler`. Sharing values extends their lifetime, so the window of reuse shrinks
on register pressure. -/
def runCompiler (stage : ShaderStage) (linked : Option ShaderSignature) (constants : Option ConstantBuffers)
    (blend : Option ShaderBlend) (tokens : List UWord) : (windows : List ℕ) → Except String Shader
  | [] => .error "shader register allocation failed"
  | window :: windows =>
    match compileWithin stage linked constants blend tokens window with
    | .ok shader => .ok shader
    | .error message =>
      if window = 0 ∨ ¬registerPressure message then .error message
      else runCompiler stage linked constants blend tokens windows

def windows : List ℕ := [64, 32, 16, 8, 0]

/-- `CompileShaderTokens`. -/
def compileShaderTokens (tokens : List UWord) (stage : ShaderStage) (linked : Option ShaderSignature)
    (constants : Option ConstantBuffers) (blend : Option ShaderBlend) : Except String Shader :=
  if 2 ≤ tokens.length ∧ tokens.length ≤ 65536 then runCompiler stage linked constants blend tokens windows
  else .error "invalid shader token count"

/-! ### The container -/

/-- `Word`: four bytes, least significant first. -/
def wordAt (bytes : List (BitVec 8)) (at_ : ℕ) : UWord :=
  BitVec.ofNat 32 ((List.range 4).map fun i => (bytes.getD (at_ + i) 0#8).toNat * 256 ^ i).sum

/-- The shader chunk found so far, and the ranges of the chunks before. -/
structure Chunks where
  shader : Option (ℕ × ℕ)
  ranges : List (ℕ × ℕ)

def need (condition : Prop) [Decidable condition] (message : String) : Except String Unit :=
  if condition then .ok () else .error message

/-- One entry of the chunk table. -/
def readChunk (bytes : List (BitVec 8)) (chunks : ℕ) (found : Chunks) (i : ℕ) : Except String Chunks := do
  let offset := (wordAt bytes (32 + 4 * i)).toNat
  need (offset % 4 = 0 ∧ offset ≥ 32 + 4 * chunks ∧ offset ≤ bytes.length - 8) "invalid DXBC chunk offset"
  let size := (wordAt bytes (offset + 4)).toNat
  need (size ≤ bytes.length - offset - 8) "invalid DXBC chunk length"
  need (∀ range ∈ found.ranges, offset + size + 8 ≤ range.1 ∨ offset ≥ range.2) "overlapping DXBC chunks"
  let ranges := found.ranges ++ [(offset, offset + size + 8)]
  let type := wordAt bytes offset
  if type = 0x52444853#32 ∨ type = 0x58454853#32 then
    need (found.shader.isNone ∧ size ≥ 8 ∧ size % 4 = 0) "invalid DXBC shader chunk"
    return ⟨some (offset + 8, size), ranges⟩
  return ⟨found.shader, ranges⟩

/-- The tokens of the shader chunk. -/
def shaderTokens (bytes : List (BitVec 8)) : Except String (List UWord) := do
  need (bytes.length ≥ 32 ∧ bytes.length ≤ 1024 * 1024 ∧ bytes.length % 4 = 0) "invalid DXBC container size"
  need (wordAt bytes 0 = 0x43425844#32 ∧ wordAt bytes 20 = 1#32 ∧ (wordAt bytes 24).toNat = bytes.length)
    "invalid DXBC header"
  let chunks := (wordAt bytes 28).toNat
  need (chunks ≠ 0 ∧ chunks ≤ 128 ∧ chunks ≤ (bytes.length - 32) / 4) "invalid DXBC chunk table"
  let found ← (List.range chunks).foldlM (readChunk bytes chunks) ⟨none, []⟩
  match found.shader with
  | none => throw "missing DXBC shader chunk"
  | some (start, size) => return (List.range (size / 4)).map fun i => wordAt bytes (start + 4 * i)

/-- `CompileShader`. -/
def compileShader (bytes : List (BitVec 8)) (stage : ShaderStage) (linked : Option ShaderSignature) :
    Except String Shader := do
  runCompiler stage linked none none (← shaderTokens bytes) windows

end Pi5Drivers.Compiler
