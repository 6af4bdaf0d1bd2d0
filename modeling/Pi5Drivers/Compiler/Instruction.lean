import Pi5Drivers.Compiler.Builder

/-! Instructions of a token stream (`native/shader.cpp`, `Read`, `Store` and
`Instruction`). Declarations come before everything else; if/else blocks turn
into stores under a mask, so that every instruction is compiled once for all
lanes. Loops are the business of the main loop. -/

namespace Pi5Drivers.Compiler

open Abi Compile

variable (settings : Settings)

/-! ### Sources -/

/-- Declared components of a register below `n`. -/
def maskCount (mask : BitVec 4) (n : ℕ) : ℕ := ((List.range n).filter (mask.getLsbD ·)).length

/-- The number of a component among all declared ones. -/
def inputScalar (masks : ShaderSignature) (reg c : ℕ) : ℕ :=
  ((List.range reg).map fun r => maskCount (masks r) 4).sum + maskCount (masks reg) c

def readInput (o : Operand) (c : Fin 4) : Compile ℕ := do
  let s ← .get
  need (o.dimensions ≠ 1 ∨ some o.index0 ≠ s.positionInput) "pixel position input reads are unsupported"
  need (o.dimensions = 1 ∧ o.index0 < shaderRegisters ∧ (s.inputMasks o.index0).getLsbD c)
    "shader input outside declaration"
  let scalar := inputScalar s.inputMasks o.index0 c
  if settings.stage = .pixel then
    need (scalar < maxVaryings) "varying scalar limit exceeded"
    uniformNode .fragmentVarying (BitVec.ofNat 32 scalar)
  else
    need (scalar < 16) "vertex attribute scalar limit exceeded"
    uniformNode .vertexAttribute (BitVec.ofNat 32 scalar)

/-- Select from the current values of an array. This also handles arrays
initialized with literals, without specialization. -/
def selectElement (index : ℕ) : (elements : List (Option ℕ)) → (i v : ℕ) → Compile ℕ
  | [], _, v => return v
  | element :: elements, i, v => do
    match element with
    | none => .fail "indirect read of uninitialized temporary"
    | some element =>
      let here ← ieq settings index (← literal (BitVec.ofNat 32 i))
      selectElement index elements (i + 1) (← select settings here element v)

/-- An element of an indexable temporary; `relative` reads the relative index. -/
def readIndexable (o : Operand) (relative : Option (Compile ℕ)) (c : Fin 4) : Compile (Option ℕ) := do
  let s ← .get
  need (o.dimensions = 2 ∧ o.index0 < 256) "invalid indexable temporary source"
  let array := s.indexable o.index0
  need (array.values ≠ [] ∧ c.val < array.components) "indexable temporary outside declaration"
  let index ← literal (BitVec.ofNat 32 o.index1)
  let index ← match relative with
    | none => pure index
    | some relative => do binary settings .iadd (← relative) index
  let s ← .get
  if s.isLiteral settings index then
    let element ← value settings index
    match array.values[element.toNat]? with
    | some element => return element c
    | none => return some (← literal 0#32)
  else return some (← selectElement settings index (array.values.map (· c)) 0 (← literal 0#32))

/-- The smallest table that holds a constant buffer: `words`, doubled up to `limit`. -/
def doubled (limit : ℕ) : (rounds words : ℕ) → ℕ
  | 0, words => words
  | rounds + 1, words => if words < limit then doubled limit rounds (words * 2) else words

def tableWords (size : ℕ) : ℕ := doubled (size * 4) (size * 4) 4

/-- The bits of `4.0f/float(words)`, for a power of two. -/
def tableScale (words : ℕ) : UWord := BitVec.ofNat 32 ((129 - Nat.log2 words) * 2 ^ 23)

/-- The bits of `(float(c)+.5f)/float(words)`, for a power of two. -/
def tableBias (words : ℕ) (c : Fin 4) : UWord :=
  BitVec.ofNat 32 ((![126, 127, 128, 128] c - Nat.log2 words) * 2 ^ 23 + ![0, 0x400000, 0x200000, 0x600000] c)

/-- An element of a constant buffer that is known only to the lanes is looked up in
a texture of the buffer. -/
def lookUpConstant (o : Operand) (relativeModifier : ℕ) (index : ℕ) (c : Fin 4) : Compile ℕ := do
  let s ← .get
  need (s.constantSizes o.index0 ≤ 1024 ∧ (s.constantSlot = none ∨ s.constantSlot = some o.index0) ∧
    s.lookups.length < maxLookups ∧ relativeModifier = 0) "unsupported indirect constant table"
  let words := tableWords (s.constantSizes o.index0)
  change fun s => { s with constantSlot := some o.index0, constantWords := words }
  let converted ← binary settings .utof index index
  let scaled ← binary settings .mul converted (← literal (tableScale words))
  let u ← binary settings .add scaled (← literal (tableBias words c))
  let v ← literal 0x3f000000#32
  return (← fetch .constant 0 u v) 0

def readConstant (o : Operand) (relative : Option (Compile ℕ)) (c : Fin 4) : Compile ℕ := do
  let s ← .get
  need (o.dimensions = 2 ∧ o.index0 < 14 ∧ o.index1 < s.constantSizes o.index0)
    "constant buffer operand outside declaration"
  match relative with
  | none => uniformNode .constantBuffer (BitVec.ofNat 32 (o.index1 * 4 + c)) o.index0
  | some relative =>
    let index ← relative
    let index ← if o.index1 ≠ 0 then binary settings .iadd index (← literal (BitVec.ofNat 32 o.index1))
      else pure index
    let s ← .get
    if s.isLiteral settings index then
      let element ← value settings index
      if element.toNat < s.constantSizes o.index0 then
        uniformNode .constantBuffer (BitVec.ofNat 32 (element.toNat * 4 + c)) o.index0
      else literal 0#32
    else lookUpConstant settings o (o.relative1.elim 0 Operand.modifier) index c

/-- The source modifiers: integer negation, or absolute value and float negation. -/
def modified (o : Operand) (v : ℕ) (integer : Bool) : Compile ℕ := do
  if integer then
    need (o.modifier ≤ 1) "unsupported integer source modifier"
    if o.modifier ≠ 0 then binary settings .isub (← literal 0#32) v else return v
  else
    let v ← if o.modifier / 2 % 2 = 1 then binary settings .and v (← literal 0x7fffffff#32) false else pure v
    if o.modifier % 2 = 1 then binary settings .xor v (← literal 0x80000000#32) false else return v

/-- One component of a source, given how to read its relative index. -/
def readWith (o : Operand) (relative : Option (Compile ℕ)) (lane : Fin 4) (integer : Bool) : Compile ℕ := do
  let c := o.swizzle lane
  need ((o.relative0.isNone ∧ o.relative1.isNone) ∨ ((o.type = 8 ∨ o.type = 3) ∧ o.dimensions = 2 ∧
    o.relative0.isNone ∧ o.relative1.isSome)) "unsupported relative shader register"
  let s ← .get
  let v ←
    if o.type = 0 then do
      need (o.dimensions = 1 ∧ o.index0 < s.temps.length) "temporary register outside declaration"
      pure (s.temps.getD o.index0 .missing c)
    else if o.type = 3 then readIndexable settings o relative c
    else if o.type = 1 then some <$> readInput settings o c
    else if o.type = 4 then some <$> literal (o.value c)
    else if o.type = 8 then some <$> readConstant settings o relative c
    else .fail "unsupported shader source register"
  match v with
  | none => .fail "read of uninitialized temporary register"
  | some v => modified settings o v integer

/-- `Read`. -/
def read : Operand → Fin 4 → Bool → Compile ℕ
  | ⟨type, dimensions, index0, index1, value, swizzle, mask, modifier, relative0, relative1⟩, lane, integer =>
    readWith settings
      ⟨type, dimensions, index0, index1, value, swizzle, mask, modifier, relative0, relative1⟩
      (match relative1 with
        | none => none
        | some relative => some (read relative 0 true))
      lane integer

/-! ### Destinations -/

namespace State

variable (s : State) (o : Operand)

/-- The register a destination names. -/
def destination : Register :=
  if o.type = 0 then s.temps.getD o.index0 .missing
  else if o.type = 3 then (s.indexable o.index0).values.getD o.index1 .missing
  else s.outputs o.index0

/-- Assign one component of a destination. -/
def assign (c : Fin 4) (v : ℕ) : State :=
  let register := Function.update (s.destination o) c (some v)
  if o.type = 0 then { s with temps := s.temps.set o.index0 register }
  else if o.type = 3 then
    let array := s.indexable o.index0
    let values := array.values.set o.index1 register
    { s with indexable := Function.update s.indexable o.index0 ⟨values, array.components⟩ }
  else { s with outputs := Function.update s.outputs o.index0 register }

end State

theorem assign_specialized (o : Operand) (c : Fin 4) (v : ℕ) (s : State) :
    (s.assign o c v).specialized = s.specialized := by
  unfold State.assign
  split_ifs <;> rfl

/-- Lanes outside the active mask keep their value, which is zero before the first store. -/
def storeComponent (o : Operand) (v : ℕ) (c : Fin 4) : Compile Unit := do
  let s ← .get
  let v ← match s.activeMask with
    | none => pure v
    | some active => do
      let old ← match s.destination o c with
        | none => literal 0#32
        | some old => pure old
      select settings active v old
  change (·.assign o c v) (assign_specialized o c v)

/-- The components of a mask, in order. -/
def forComponents (mask : BitVec 4) (f : Fin 4 → Compile Unit) : Compile Unit :=
  (List.finRange 4).forM fun c => if mask.getLsbD c then f c else pure ()

/-- `Store`. -/
def store (o : Operand) (values : Fin 4 → ℕ) : Compile Unit := do
  let s ← .get
  need (o.mask ≠ 0#4 ∧ o.dimensions = if o.type = 3 then 2 else 1) "invalid shader destination"
  if o.type = 0 then need (o.index0 < s.temps.length) "temporary destination outside declaration"
  else if o.type = 3 then
    need (o.index0 < 256) "invalid indexable temporary destination"
    let array := s.indexable o.index0
    need (o.index1 < array.values.length ∧ ∀ c : Fin 4, o.mask.getLsbD c → c.val < array.components)
      "indexable temporary destination outside declaration"
  else
    need (o.type = 2 ∧ o.index0 < shaderRegisters ∧ o.mask &&& ~~~s.outputMasks o.index0 = 0#4)
      "unsupported shader output"
  forComponents o.mask fun c => storeComponent settings o (values c) c

/-! ### Declarations -/

/-- The components a declaration adds to the ones declared before. -/
def fresh (masks : ShaderSignature) (d : Operand) : Prop := d.mask ≠ 0#4 ∧ masks d.index0 &&& d.mask = 0#4

instance (masks : ShaderSignature) (d : Operand) : Decidable (fresh masks d) :=
  inferInstanceAs (Decidable (_ ∧ _))

/-- `masks[reg] |= mask`. -/
def declared (masks : ShaderSignature) (d : Operand) : ShaderSignature :=
  Function.update masks d.index0 (masks d.index0 ||| d.mask)

def declareTemps : Compile Unit := do
  let s ← .get
  need (¬s.executable ∧ s.temps = []) "invalid temporary declaration order"
  let count ← take
  need (count.toNat ≤ 256) "too many temporary registers"
  change fun s => { s with temps := List.replicate count.toNat .missing }

def declareIndexable (token : UWord) : Compile Unit := do
  let id ← take
  let count ← take
  let components ← take
  let s ← .get
  need (¬s.executable ∧ token &&& 0x00fff800#32 = 0#32 ∧ id.toNat < 256 ∧ (s.indexable id.toNat).values = [] ∧
    count ≠ 0#32 ∧ count.toNat ≤ 4096 - s.indexableCount ∧ 1 ≤ components.toNat ∧ components.toNat ≤ 4)
    "invalid indexable temporary declaration"
  change fun s => { s with
    indexable := Function.update s.indexable id.toNat
      ⟨List.replicate count.toNat .missing, components.toNat⟩
    indexableCount := s.indexableCount + count.toNat }

/-- D3D system-generated scalar inputs: 6 = VertexID, 8 = InstanceID. -/
def declareSystemInput : Compile Unit := do
  let d ← operand true
  let semantic ← take
  let s ← .get
  need (¬s.executable ∧ settings.stage ≠ .pixel ∧ (semantic = 6#32 ∨ semantic = 8#32) ∧ d.type = 1 ∧
    d.dimensions = 1 ∧ d.index0 < shaderRegisters ∧ fresh s.inputMasks d ∧ d.mask &&& (d.mask - 1#4) = 0#4)
    "unsupported vertex system value"
  change fun s => { s with
    inputMasks := declared s.inputMasks d
    systemInputs := Function.update s.systemInputs d.index0 fun c =>
      if d.mask.getLsbD c then semantic else s.systemInputs d.index0 c }

def declareInput (op : ℕ) (token : UWord) : Compile Unit := do
  let d ← operand true
  let mode := tokenBits token 11 4
  let s ← .get
  need (¬s.executable ∧ (if op = 95 then settings.stage ≠ .pixel
      else settings.stage = .pixel ∧ (mode = 1 ∨ mode = 2 ∨ mode = 4)) ∧
    d.type = 1 ∧ d.dimensions = 1 ∧ d.index0 < shaderRegisters ∧ fresh s.inputMasks d ∧
    (s.inputMasks d.index0 = 0#4 ∨ s.inputModes d.index0 = mode)) "invalid shader input declaration"
  change fun s => { s with
    inputMasks := declared s.inputMasks d
    inputModes := Function.update s.inputModes d.index0 mode }

/-- The position is rasterizer state rather than a varying; it may be declared but not read. -/
def declarePosition : Compile Unit := do
  let d ← operand true
  let s ← .get
  need (¬s.executable ∧ settings.stage = .pixel) "unsupported pixel system value"
  let semantic ← take
  need (semantic = 1#32 ∧ d.type = 1 ∧ d.dimensions = 1 ∧ d.index0 < shaderRegisters ∧
    s.inputMasks d.index0 = 0#4 ∧ s.positionInput = none) "unsupported pixel system value"
  change fun s => { s with positionInput := some d.index0 }

def declareOutput (op : ℕ) : Compile Unit := do
  let d ← operand true
  if op = 103 then
    need (settings.stage ≠ .pixel) "unsupported output semantic"
    let semantic ← take
    let s ← .get
    need (semantic = 1#32 ∧ s.positionOutput = none) "unsupported output semantic"
    change fun s => { s with positionOutput := some d.index0 }
  let s ← .get
  need (¬s.executable ∧ d.type = 2 ∧ d.dimensions = 1 ∧ d.index0 < shaderRegisters ∧
    (settings.stage = .pixel → d.index0 ≤ 1) ∧ fresh s.outputMasks d) "invalid output declaration"
  change fun s => { s with outputMasks := declared s.outputMasks d }

def declareConstants (token : UWord) : Compile Unit := do
  let d ← operand false
  let s ← .get
  need (¬s.executable ∧ d.type = 8 ∧ d.dimensions = 2 ∧ d.index0 < 14 ∧ d.index1 ≠ 0 ∧ d.index1 ≤ 4096 ∧
    s.constantSizes d.index0 = 0 ∧ token &&& 0x00fff000#32 = 0#32) "invalid constant buffer declaration"
  change fun s => { s with constantSizes := Function.update s.constantSizes d.index0 d.index1 }

def declareFlags (token : UWord) : Compile Unit := do
  let s ← .get
  need (¬s.executable ∧ token &&& 0x00fff000#32 = 0#32) "unsupported shader global flags"

/-- Integer buffer views use their bound component format; textures return float color. -/
def declareResource (token : UWord) : Compile Unit := do
  let d ← operand false
  let dimension := tokenBits token 11 5
  let returns ← take
  let s ← .get
  need (¬s.executable ∧ (settings.stage = .pixel ∨ dimension = 1) ∧ d.type = 7 ∧ d.dimensions = 1 ∧
    d.index0 < resources ∧ s.resourceDimensions d.index0 = 0 ∧ token &&& 0x00ff0000#32 = 0#32 ∧
    ((dimension = 1 ∧ (returns = 0x4444#32 ∨ returns = 0x3333#32)) ∨ (dimension = 3 ∧ returns = 0x5555#32)))
    "unsupported texture declaration"
  change fun s => { s with
    resourceDimensions := Function.update s.resourceDimensions d.index0 dimension
    signedBuffers := Function.update s.signedBuffers d.index0 (dimension == 1 && returns == 0x3333#32) }

def declareSampler (token : UWord) : Compile Unit := do
  let d ← operand false
  let s ← .get
  need (¬s.executable ∧ settings.stage = .pixel ∧ d.type = 6 ∧ d.dimensions = 1 ∧ d.index0 < samplers ∧
    token &&& 0x00fff800#32 = 0#32 ∧ ¬s.samplerDeclared d.index0) "unsupported sampler declaration"
  change fun s => { s with samplerDeclared := Function.update s.samplerDeclared d.index0 true }

/-- The declarations by opcode. -/
def declaration (op : ℕ) (token : UWord) : Option (Compile Unit) :=
  match op with
  | 104 => some declareTemps
  | 105 => some (declareIndexable token)
  | 96 => some (declareSystemInput settings)
  | 95 | 98 => some (declareInput settings op token)
  | 100 => some (declarePosition settings)
  | 101 | 103 => some (declareOutput settings op)
  | 89 => some (declareConstants token)
  | 106 => some (declareFlags token)
  | 88 => some (declareResource settings token)
  | 90 => some (declareSampler settings token)
  | _ => none

/-! ### Control flow -/

/-- `LiveMask`: the lanes of a mask that have not returned. -/
def liveMask (mask : Option ℕ) : Compile (Option ℕ) := do
  let s ← .get
  match s.returnedMask with
  | none => return mask
  | some returned =>
    let live ← not settings returned
    match mask with
    | none => return some live
    | some mask => return some (← andMask settings mask live)

def ret (token : UWord) : Compile Unit := do
  need (token &&& 0x00fff800#32 = 0#32) "unsupported return controls"
  let s ← .get
  if s.branches = [] then change fun s => { s with returned := true }
  else
    match s.activeMask with
    | none => .fail "missing conditional return mask"
    | some active =>
      let returned ← match s.returnedMask with
        | none => pure active
        | some returned => binary settings .or returned active
      change fun s => { s with returnedMask := some returned }
      let none ← literal 0#32
      change fun s => { s with activeMask := some none }

def ifBlock (token : UWord) : Compile Unit := do
  need (token &&& 0x00fbf800#32 = 0#32) "unsupported conditional controls"
  let o ← operand false
  let condition ← nonZero settings (← read settings o 0 true)
  let condition ← if token.getLsbD 18 then pure condition else not settings condition
  let s ← .get
  change fun s => { s with branches := ⟨s.activeMask, condition, false⟩ :: s.branches }
  let active ← match s.activeMask with
    | none => pure condition
    | some active => andMask settings active condition
  change fun s => { s with activeMask := some active }

def elseBlock (token : UWord) : Compile Unit := do
  let s ← .get
  match s.branches with
  | ⟨parent, condition, false⟩ :: branches =>
    need (token &&& 0x00fff800#32 = 0#32) "unbalanced else"
    change fun s => { s with branches := ⟨parent, condition, true⟩ :: branches }
    let inverse ← not settings condition
    let mask ← match parent with
      | none => pure inverse
      | some parent => andMask settings parent inverse
    let active ← liveMask settings (some mask)
    change fun s => { s with activeMask := active }
  | _ => .fail "unbalanced else"

def endifBlock (token : UWord) : Compile Unit := do
  let s ← .get
  match s.branches with
  | [] => .fail "unbalanced endif"
  | branch :: branches =>
    need (token &&& 0x00fff800#32 = 0#32) "unbalanced endif"
    let active ← liveMask settings branch.parent
    change fun s => { s with activeMask := active, branches := branches }

/-! ### Arithmetic -/

/-- The values of the components of a mask; the others are never stored. -/
def components (mask : BitVec 4) (f : Fin 4 → Compile ℕ) : Compile (Fin 4 → ℕ) := do
  let value (c : Fin 4) : Compile ℕ := if mask.getLsbD c then f c else pure 0
  let x ← value 0
  let y ← value 1
  let z ← value 2
  let w ← value 3
  return ![x, y, z, w]

def saturate (v : ℕ) : Compile ℕ := do
  let low ← binary settings .max v (← literal 0#32)
  binary settings .min low (← literal 0x3f800000#32)

/-- The saturation flag of an instruction. -/
def saturated (token : UWord) (mask : BitVec 4) (result : Fin 4 → ℕ) : Compile (Fin 4 → ℕ) :=
  if token.getLsbD 13 then components mask fun c => saturate settings (result c) else pure result

def conditionalMove (token : UWord) : Compile Unit := do
  need (token &&& 0x00ffd800#32 = 0#32) "unsupported instruction controls"
  let d ← operand true
  let condition ← operand false
  let a ← operand false
  let b ← operand false
  let result ← components d.mask fun c => do
    let condition ← nonZero settings (← read settings condition c true)
    let a ← read settings a c false
    let b ← read settings b c false
    select settings condition a b
  store settings d (← saturated settings token d.mask result)

def sample (token : UWord) : Compile Unit := do
  need (settings.stage = .pixel ∧ token &&& 0x00fff800#32 = 0#32) "unsupported texture sample"
  let d ← operand true
  let uv ← operand false
  let texture ← operand false
  let sampler ← operand false
  let s ← .get
  need (texture.type = 7 ∧ texture.dimensions = 1 ∧ texture.index0 < resources ∧
    s.resourceDimensions texture.index0 = 3 ∧ texture.modifier = 0 ∧ sampler.type = 6 ∧
    sampler.dimensions = 1 ∧ sampler.index0 < samplers ∧ s.samplerDeclared sampler.index0 ∧
    sampler.modifier = 0) "unsupported texture binding"
  let b ← binding texture.index0 (some sampler.index0)
  let u ← read settings uv 0 false
  let v ← read settings uv 1 false
  let values ← fetch .sample b u v
  store settings d fun c => values (texture.swizzle c)

/-- The descriptor supplies sign and zero extension and defaults of missing channels;
the kernel appends one zero element, so a clamped index past the view reads zero. -/
def fetchBuffer (b : ℕ) (address : Operand) : Compile (Fin 4 → ℕ) := do
  let count ← uniformNode .bindingElements 0#32 b
  let index ← binary settings .umin (← read settings address 0 true) count
  fetch .fetch1D b index index

/-- D3D returns zero for texel fetches out of range. -/
def fetchTexel (b : ℕ) (address : Operand) : Compile (Fin 4 → ℕ) := do
  let level ← read settings address 3 true
  let s ← .get
  need (s.bits level 0#32) "texel fetch mip level must be zero"
  let width ← uniformNode .bindingWidth 0#32 b
  let height ← uniformNode .bindingHeight 0#32 b
  let x ← binary settings .umin (← read settings address 0 true) width
  let y ← binary settings .umin (← read settings address 1 true) height
  let none ← literal 0#32
  let inside ← binary settings .and (← inRange settings x width) (← inRange settings y height)
  let mask ← binary settings .isub none inside
  let texels ← fetch .fetch2D b x y
  components 15#4 fun c => binary settings .and (texels c) mask

def load (token : UWord) : Compile Unit := do
  need (token &&& 0x00fff800#32 = 0#32) "unsupported texel fetch"
  let d ← operand true
  let address ← operand false
  let texture ← operand false
  let s ← .get
  need (texture.type = 7 ∧ texture.dimensions = 1 ∧ texture.index0 < resources ∧
    s.resourceDimensions texture.index0 ≠ 0 ∧
    (settings.stage = .pixel ∨ s.resourceDimensions texture.index0 = 1) ∧ texture.modifier = 0 ∧
    address.modifier = 0) "unsupported texel fetch binding"
  let b ← binding texture.index0 none
  let values ← if s.resourceDimensions texture.index0 = 1 then fetchBuffer settings b address
    else fetchTexel settings b address
  store settings d fun c => values (texture.swizzle c)

def multiply (token : UWord) : Compile Unit := do
  need (token &&& 0x00fff800#32 = 0#32) "unsupported instruction controls"
  let high ← operand true
  let low ← operand true
  let a ← operand false
  let b ← operand false
  need (high.type = 13) "high multiply result is unsupported"
  if low.type = 13 then return
  let result ← components low.mask fun c => do
    binary settings .imul (← read settings a c true) (← read settings b c true)
  store settings low result

/-- Opcodes of the comparisons. -/
def comparison (op : ℕ) : Bool :=
  op ∈ [24, 29, 49, 57, 39, 79, 80] || (32 ≤ op && op ≤ 34)

/-- Opcodes with integer sources. -/
def integer (op : ℕ) : Bool :=
  op ∈ [30, 35, 36, 37, 40, 41, 42, 59, 39, 79, 80] || (82 ≤ op && op ≤ 85) || (32 ≤ op && op ≤ 34)

/-- Opcodes with one source. -/
def unary (op : ℕ) : Bool := op ∈ [54, 27, 28, 40, 43, 86, 59, 26, 11, 12] || (64 ≤ op && op ≤ 68)

def sourceCount (op : ℕ) : ℕ := if unary op then 1 else if op ∈ [50, 35, 82] then 3 else 2

def supported (op : ℕ) : Bool :=
  op ∈ [0, 1, 50, 51, 14, 30, 40, 52, 54, 56, 60, 87, 27, 28, 43, 86, 26] || (15 ≤ op && op ≤ 17) ||
    integer op || comparison op || (64 ≤ op && op ≤ 68) ||
    (op ∈ [11, 12] && settings.stage == .pixel)

/-- Opcodes that are one operation on two sources. -/
def twoSources (op : ℕ) : Option Op :=
  match op with
  | 36 => some .imax | 37 => some .imin | 41 => some .shl | 42 => some .asr | 83 => some .umax
  | 84 => some .umin | 85 => some .shr | 0 => some .add | 1 => some .and | 30 => some .iadd
  | 51 => some .min | 52 => some .max | 56 => some .mul | 60 => some .or | 87 => some .xor
  | _ => none

/-- Opcodes that are one operation on one source. -/
def oneSource (op : ℕ) : Option Op :=
  match op with
  | 64 => some .round | 65 => some .floor | 66 => some .ceil | 67 => some .trunc | 68 => some .rsqrt
  | 11 => some .fdx | 12 => some .fdy | 27 => some .ftoi | 28 => some .ftou | 43 => some .itof
  | 86 => some .utof
  | _ => none

/-- Opcodes of float comparisons. -/
def floatComparison (op : ℕ) : Option Op :=
  match op with
  | 24 => some .feq | 29 => some .fge | 49 => some .flt | 57 => some .fne
  | _ => none

/-- The remaining opcodes; `third` reads the third source. -/
def composite (op a b : ℕ) (third : Compile ℕ) : Compile ℕ := do
  match op with
  | 32 => ieq settings a b
  | 33 => not settings (← ilt settings a b)
  | 34 => ilt settings a b
  | 39 => nonZero settings (← binary settings .xor a b)
  | 79 => ult settings a b
  | 80 => not settings (← ult settings a b)
  | 26 =>
    let floor ← binary settings .floor a a
    binary settings .add a (← binary settings .xor floor (← literal 0x80000000#32))
  | 35 | 82 =>
    let product ← binary settings .imul a b
    binary settings .iadd product (← third)
  | 59 => binary settings .xor a (← literal 0xffffffff#32)
  | 14 => binary settings .mul a (← binary settings .reciprocal b b)
  | 40 => binary settings .isub (← literal 0#32) a
  | 50 =>
    let product ← binary settings .mul a b
    binary settings .add product (← third)
  | _ => return a

/-- One component of an arithmetic instruction. -/
def scalar (op a b : ℕ) (third : Compile ℕ) : Compile ℕ :=
  match twoSources op, oneSource op, floatComparison op with
  | some operation, _, _ => binary settings operation a b
  | none, some operation, _ => binary settings operation a a
  | none, none, some operation => floatCompare settings operation a b
  | none, none, none => composite settings op a b third

/-- The sum of the first `n` products of a dot product. -/
def dotProduct (a b : Operand) : (n : ℕ) → (h : n ≤ 4) → Compile (Option ℕ)
  | 0, _ => return none
  | n + 1, h => do
    let dot ← dotProduct a b n (by omega)
    let x ← read settings a ⟨n, h⟩ false
    let y ← read settings b ⟨n, h⟩ false
    let term ← binary settings .mul x y
    match dot with
    | none => return some term
    | some dot => return some (← binary settings .add dot term)

def arithmetic (op : ℕ) (token : UWord) : Compile Unit := do
  need (supported settings op) "unsupported DXBC opcode"
  need (token &&& 0x00ffd800#32 = 0#32) "unsupported instruction controls"
  need ((integer op = false ∧ comparison op = false) ∨ ¬token.getLsbD 13)
    "integer arithmetic cannot saturate"
  let d ← operand true
  let first ← operand false
  let second ← if 1 < sourceCount op then operand false else pure first
  let third ← if 2 < sourceCount op then operand false else pure first
  let result ←
    if h : 15 ≤ op ∧ op ≤ 17 then do
      match ← dotProduct settings first second (op - 13) (by omega) with
      | none => .fail "unsupported DXBC opcode"
      | some dot => pure fun _ => dot
    else components d.mask fun c => do
      let a ← read settings first c (integer op)
      let b ← if 1 < sourceCount op then read settings second c (integer op) else pure 0
      scalar settings op a b (read settings third c (integer op))
  store settings d (← saturated settings token d.mask result)

/-- `Instruction`. -/
def instruction (token : UWord) : Compile Unit := do
  let op := tokenBits token 0 11
  let s ← .get
  need (¬token.msb) "extended instruction is unsupported"
  need (¬s.returned) "instruction after shader return"
  match declaration settings op token with
  | some declare => declare
  | none =>
    change fun s => { s with executable := true }
    match op with
    | 62 => ret settings token
    | 58 => return
    | 31 => ifBlock settings token
    | 18 => elseBlock settings token
    | 21 => endifBlock settings token
    | 55 => conditionalMove settings token
    | 69 => sample settings token
    | 45 => load settings token
    | 38 | 81 => multiply settings token
    | _ => arithmetic settings op token

end Pi5Drivers.Compiler
