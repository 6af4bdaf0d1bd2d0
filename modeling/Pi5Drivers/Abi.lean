import Pi5Drivers.Lib.Common
import Mathlib.Data.Nat.Notation

/-! Constants of the command interface (`native/abi.h`) shared by the shader
compiler, the program checker and the kernel driver. -/

namespace Pi5Drivers.Abi

/-- A word of a uniform stream. -/
abbrev UWord := BitVec 32

def textureToken : UWord := 0xf005000f#32
def samplerToken : UWord := 0xf0050021#32
def constantTextureToken : UWord := 0xf005010f#32
def constantSamplerToken : UWord := 0xf0050121#32
def bindingTokenShift : ℕ := 12

def bindings : ℕ := 4
def maxVaryings : ℕ := 24
def maxProgramWords : ℕ := 32768
def maxProgramUniforms : ℕ := 8191
def maxLookups : ℕ := 96

/-- `Pi5BindingTexture`; the kinds 2 to 19 are the typed buffers. -/
def bindingTexture : ℕ := 1

/-- `Pi5BufferComponents`. -/
def bufferComponents (kind : ℕ) : ℕ :=
  if kind ∈ [2, 3, 4, 9, 10, 11] then 1
  else if kind ∈ [5, 6, 12, 13, 16, 17] then 2
  else if kind ∈ [7, 8, 14, 15, 18, 19] then 4
  else 0

/-- `Pi5BufferComponentBytes`. -/
def bufferComponentBytes (kind : ℕ) : ℕ :=
  if kind ∈ [2, 11, 12, 13, 14, 15] then 1
  else if kind ∈ [3, 4, 5, 6, 7, 8] then 2
  else if kind ∈ [9, 10, 16, 17, 18, 19] then 4
  else 0

/-- `Pi5BufferElementBytes`. -/
def bufferElementBytes (kind : ℕ) : ℕ := bufferComponents kind * bufferComponentBytes kind

end Pi5Drivers.Abi
