import Pi5Drivers.Abi
import Pi5Drivers.Qpu.Word

/-! Data of the shader compiler (`native/shader.h`, `native/shader.cpp`): the node
graph a token stream is turned into, the texture lookups, and the finished
program. Nodes are referred to by their position; an operand always stands
before the node that uses it. -/

namespace Pi5Drivers.Compiler

open Abi

inductive ShaderStage where
  | pixel | coordinate | vertex
  deriving DecidableEq, Repr

inductive UniformKind where
  | literal | constantBuffer | viewport | vertexAttribute | fragmentVarying | textureConfig
  | samplerConfig | constantTextureConfig | constantSamplerConfig | bindingElements | bindingWidth
  | bindingHeight | blendConstant | targetColor | floatConstantBuffer
  deriving DecidableEq, Repr

/-- A word of the uniform stream, or an input that takes its place in the graph. -/
structure Uniform where
  kind : UniformKind
  value : UWord
  slot : ℕ := 0
  deriving DecidableEq, Repr

/-- A resource and the sampler it is read with. Texel fetches have no sampler. -/
structure ShaderBinding where
  resource : ℕ
  sampler : Option ℕ
  buffer : Bool
  signedBuffer : Bool
  deriving DecidableEq, Repr

/-- The operations of `Binary`; those with one source have it twice. -/
inductive Op where
  | add | sub | iadd | isub | mul | min | max | and | or | xor | itof | utof | ftoi | ftou | ftoin
  | reciprocal | shl | shr | asr | imin | imax | umin | umax | imul | rsqrt | round | trunc | floor
  | ceil | fdx | fdy | feq | fne | flt | fge | ieq | ine | ilt | ult | ftz | fzeq | fzne
  deriving DecidableEq, Repr

/-- `Node`. A texture node is one component of the lookup `group`. -/
inductive Node where
  | uniform (u : Uniform)
  | binary (op : Op) (a b : ℕ)
  | texture (s t component group : ℕ)
  | select (mask a b : ℕ)
  deriving DecidableEq, Repr

/-- The nodes a node uses, once for each use. -/
def Node.operands : Node → List ℕ
  | .uniform _ => []
  | .binary _ a b => [a, b]
  | .texture s t _ _ => [s, t]
  | .select mask a b => [mask, a, b]

/-- Sample and `Fetch2D` send two coordinates, `Fetch1D` one. -/
inductive Lookup where
  | sample | fetch2D | fetch1D | constant
  deriving DecidableEq, Repr

/-- A request for four words. -/
structure LookupGroup where
  kind : Lookup
  binding : ℕ
  values : Fin 4 → ℕ

/-- D3D blend functions: source, destination and operation for RGB (0 to 2), then alpha (3 to 5). -/
structure ShaderBlend where
  functions : ℕ → ℕ
  opaqueTarget : Bool

/-- Component masks of the 32 registers of a signature. -/
abbrev ShaderSignature := ℕ → BitVec 4

/-- The 14 constant buffers as they are when a program is specialized. -/
abbrev ConstantBuffers := Fin 14 → List UWord

/-- Empty or unbound buffers read as zero. -/
def ConstantBuffers.word (constants : ConstantBuffers) (slot : ℕ) (value : ℕ) : UWord :=
  if h : slot < 14 then (constants ⟨slot, h⟩).getD value 0#32 else 0#32

def shaderRegisters : ℕ := 32
def resources : ℕ := 4
def samplers : ℕ := 4

/-- A compiled program. -/
structure Shader where
  code : List Qpu.Word
  uniforms : List Uniform
  instructions : ℕ
  inputs : ShaderSignature
  systemInputs : ℕ → Fin 4 → UWord
  outputScalars : ℕ
  varyingScalars : ℕ
  nonPerspectiveMask : BitVec 32
  flatMask : BitVec 32
  bindings : List ShaderBinding
  constantSlot : Option ℕ
  constantWords : ℕ
  constantDeclaredWords : ℕ
  specialized : List Uniform

end Pi5Drivers.Compiler
