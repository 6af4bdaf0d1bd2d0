import Pi5Drivers.Compiler.Graph
import Pi5Drivers.Compiler.Operand
import Pi5Drivers.Lib.Tracked
import Mathlib.Data.Fin.VecNotation
import Mathlib.Logic.Function.Basic

/-! The state of the compiler and the functions that build its node graph
(`native/shader.cpp`, class `Compiler`). A node stands behind its operands;
equal uniforms are one node, equal pure operations are shared within a window,
and integer operations on known words are folded. The words of the constant
snapshot are read in one place, `value`, which records them in `specialized`.
Where the source leaves the order of evaluation of arguments open, they are
evaluated from left to right. -/

namespace Pi5Drivers.Compiler

open Abi

/-- The nodes of the four components of a register; `none` is the source's `Missing`. -/
abbrev Register := Fin 4 → Option ℕ

def Register.missing : Register := fun _ => none

structure Indexable where
  values : List Register
  components : ℕ

/-- An if/else block converted to predicated stores under the active mask. -/
structure Branch where
  parent : Option ℕ
  condition : ℕ
  inElse : Bool

/-- What a compilation is given besides the tokens. -/
structure Settings where
  stage : ShaderStage
  linkedVaryings : Option ShaderSignature
  /-- Whether there is a snapshot of the constant buffers. -/
  constants : Bool
  blend : Option ShaderBlend
  cseWindow : ℕ

structure State where
  /-- The rest of the current instruction. -/
  reader : List UWord
  nodes : List Node
  /-- Nodes known to hold a Direct3D boolean (all zero or all one bits). -/
  maskNodes : ℕ → Bool
  temps : List Register
  indexable : ℕ → Indexable
  indexableCount : ℕ
  outputs : ℕ → Register
  outputMasks : ShaderSignature
  constantSizes : ℕ → ℕ
  inputMasks : ShaderSignature
  inputModes : ℕ → ℕ
  systemInputs : ℕ → Fin 4 → UWord
  roots : List ℕ
  positionOutput : Option ℕ
  positionInput : Option ℕ
  instructionCount : ℕ
  varyingScalars : ℕ
  expressions : Op × ℕ × ℕ → Option ℕ
  specialized : List Uniform
  resourceDimensions : ℕ → ℕ
  signedBuffers : ℕ → Bool
  samplerDeclared : ℕ → Bool
  bindings : List ShaderBinding
  lookups : List LookupGroup
  constantSlot : Option ℕ
  constantWords : ℕ
  executable : Bool
  returned : Bool
  /-- The innermost block first. -/
  branches : List Branch
  activeMask : Option ℕ
  returnedMask : Option ℕ

def State.initial : State where
  reader := []
  nodes := []
  maskNodes := fun _ => false
  temps := []
  indexable := fun _ => ⟨[], 0⟩
  indexableCount := 0
  outputs := fun _ => .missing
  outputMasks := fun _ => 0#4
  constantSizes := fun _ => 0
  inputMasks := fun _ => 0#4
  inputModes := fun _ => 0
  systemInputs := fun _ _ => 0#32
  roots := []
  positionOutput := none
  positionInput := none
  instructionCount := 0
  varyingScalars := 0
  expressions := fun _ => none
  specialized := []
  resourceDimensions := fun _ => 0
  signedBuffers := fun _ => false
  samplerDeclared := fun _ => false
  bindings := []
  lookups := []
  constantSlot := none
  constantWords := 0
  executable := false
  returned := false
  branches := []
  activeMask := none
  returnedMask := none

/-- The words of the constant snapshot a list of uniforms names. -/
def constantKeys (us : List Uniform) : Set (ℕ × UWord) := {k | ∃ u ∈ us, (u.slot, u.value) = k}

/-- The words the compilation has relied on. -/
def State.reliedOn (s : State) : Set (ℕ × UWord) := constantKeys s.specialized

/-- A step of the compiler. It may fail with a message, and it sees the constant snapshot
only word by word. -/
abbrev Compile (α : Type) := Tracked (ℕ × UWord) UWord String State.reliedOn α

namespace Compile

/-- `Need`. -/
def need (condition : Prop) [Decidable condition] (message : String) : Compile Unit :=
  .reject message (¬condition)

/-- Change the state without touching the record of constants. -/
def change (f : State → State) (h : ∀ s, (f s).specialized = s.specialized := by intros; rfl) :
    Compile Unit :=
  .modify f fun s => by simp only [State.reliedOn, h s]; exact subset_rfl

/-! Changes that are made in several places touch no record of constants. -/

theorem executable_specialized (s : State) : { s with executable := true }.specialized = s.specialized := rfl

theorem reader_specialized (tokens : List UWord) (s : State) : { s with reader := tokens }.specialized = s.specialized := rfl

/-- Run a reader on the current instruction. -/
def read {α : Type} (reader : Reader α) : Compile α := do
  let s ← .get
  match reader s.reader with
  | .error message => .fail message
  | .ok (a, rest) =>
    change fun s => { s with reader := rest }
    return a

def take : Compile UWord := read Reader.take

def operand (destination : Bool) : Compile Operand := read (readOperand 4 destination)

section Run

variable {α : Type} {word : ℕ × UWord → UWord} {s t : State}

@[simp] theorem need_ok {condition : Prop} [Decidable condition] {message : String} {a : Unit} :
    (need condition message).run word s = (.ok a, t) ↔ condition ∧ s = t := by
  simp [need]

@[simp] theorem change_ok {f : State → State} {h : ∀ s, (f s).specialized = s.specialized} {a : Unit} :
    (change f h).run word s = (.ok a, t) ↔ f s = t := Tracked.modify_ok

@[simp] theorem get_ok {a : State} :
    (Tracked.get : Compile State).run word s = (.ok a, t) ↔ s = a ∧ s = t := by
  simp [Tracked.run_get]

theorem read_ok {reader : Reader α} {a : α} : (read reader).run word s = (.ok a, t) ↔
    ∃ rest, reader s.reader = .ok (a, rest) ∧ t = { s with reader := rest } := by
  simp only [read, Tracked.bind_ok, get_ok]
  constructor
  · rintro ⟨_, _, ⟨rfl, rfl⟩, h⟩
    split at h
    · simp at h
    · rename_i heq
      simp only [Tracked.bind_ok, change_ok, Tracked.pure_ok] at h
      obtain ⟨_, _, rfl, rfl, rfl⟩ := h
      exact ⟨_, heq, rfl⟩
  · rintro ⟨rest, h, rfl⟩
    refine ⟨s, s, ⟨rfl, rfl⟩, ?_⟩
    simp [h, Tracked.bind_ok]

theorem take_ok {a : UWord} : take.run word s = (.ok a, t) ↔
    ∃ rest, s.reader = a :: rest ∧ t = { s with reader := rest } := by
  simp only [take, read_ok]
  cases h : s.reader <;> simp [Reader.take]

end Run

end Compile

open Compile

/-! ### Nodes -/

def put (n : Node) : Compile ℕ := do
  let s ← .get
  need (s.nodes.length < 65536) "shader scalar instruction limit exceeded"
  change fun s => { s with nodes := s.nodes ++ [n] }
  return s.nodes.length

/-- The node of a uniform, which is there only once. -/
def uniformNode (kind : UniformKind) (value : UWord) (slot : ℕ := 0) : Compile ℕ := do
  let s ← .get
  match s.nodes.findIdx? fun n => n == .uniform ⟨kind, value, slot⟩ with
  | some i => return i
  | none => put (.uniform ⟨kind, value, slot⟩)

def literal (x : UWord) : Compile ℕ := uniformNode .literal x

namespace State

variable (s : State)

/-- The uniform a node stands for. -/
def uniformAt (node : ℕ) : Option Uniform :=
  match s.nodes[node]? with
  | some (.uniform u) => some u
  | _ => none

/-- `Bits`: the node is this literal. -/
def bits (node : ℕ) (value : UWord) : Bool :=
  match s.uniformAt node with
  | some u => u.kind == .literal && u.value == value
  | none => false

/-- `Negated`: the operand whose sign bit a node flips. -/
def negated (node : ℕ) : Option ℕ :=
  match s.nodes[node]? with
  | some (.binary .xor a b) =>
    if s.bits b 0x80000000#32 then some a else if s.bits a 0x80000000#32 then some b else none
  | _ => none

/-- The word of a node is known: a literal, or a constant of the snapshot. -/
def isLiteral (settings : Settings) (node : ℕ) : Bool :=
  match s.uniformAt node with
  | some u => u.kind == .literal || (settings.constants && u.kind == .constantBuffer)
  | none => false

/-- A word of the snapshot is relied on; each is noted once. -/
def specialize (u : Uniform) : State :=
  if s.specialized.any fun word => word.slot == u.slot && word.value == u.value then s
  else { s with specialized := s.specialized ++ [u] }

theorem mem_specialize (u : Uniform) : (u.slot, u.value) ∈ (s.specialize u).reliedOn := by
  unfold specialize
  split
  · rename_i h
    rw [List.any_eq_true] at h
    obtain ⟨word, hmem, hword⟩ := h
    simp only [Bool.and_eq_true, beq_iff_eq] at hword
    exact ⟨word, hmem, by rw [hword.1, hword.2]⟩
  · exact ⟨u, by simp, rfl⟩

theorem subset_specialize (u : Uniform) : s.reliedOn ⊆ (s.specialize u).reliedOn := by
  unfold specialize
  split
  · exact subset_rfl
  · rintro k ⟨word, hmem, rfl⟩
    exact ⟨word, by simp [hmem], rfl⟩

end State

variable (settings : Settings)

/-- A constant of the snapshot. -/
def constant (u : Uniform) : Compile UWord :=
  .look (u.slot, u.value) (·.specialize u) (·.mem_specialize u) (·.subset_specialize u)

def value (node : ℕ) : Compile UWord := do
  let s ← .get
  need (s.isLiteral settings node) "shader value is not constant"
  match s.uniformAt node with
  | some u => if u.kind = .literal then return u.value else constant u
  | none => .fail "shader value is not constant"

/-- `x << (y & 31)` and the like. -/
def shiftAmount (y : UWord) : ℕ := (y &&& 31#32).toNat

/-- The integer operations that are folded. -/
def foldInteger (op : Op) (x y : UWord) : Option UWord :=
  match op with
  | .iadd => some (x + y)
  | .isub => some (x - y)
  | .and => some (x &&& y)
  | .or => some (x ||| y)
  | .xor => some (x ^^^ y)
  | .shl => some (x <<< shiftAmount y)
  | .shr => some (x >>> shiftAmount y)
  | .asr => some (x.sshiftRight (shiftAmount y))
  | .imin => some (if x ^^^ 0x80000000#32 < y ^^^ 0x80000000#32 then x else y)
  | .imax => some (if x ^^^ 0x80000000#32 > y ^^^ 0x80000000#32 then x else y)
  | .umin => some (if y < x then y else x)
  | .umax => some (if x < y then y else x)
  | .imul => some (x * y)
  | _ => none

/-- A float subtraction consumes the sign modifier directly, without materializing a
negated operand or changing arithmetic association. -/
def subtraction (s : State) (op : Op) (a b : ℕ) : Op × ℕ × ℕ :=
  if op = .add then
    match s.negated b, s.negated a with
    | some y, _ => (.sub, a, y)
    | none, some x => (.sub, b, x)
    | none, none => (op, a, b)
  else (op, a, b)

/-- Integer folding resolves loop counters and constant-table indices. Float
arithmetic stays on the QPU, and float uniforms are not made part of the
specialization key. -/
def folded (op : Op) (a b : ℕ) : Compile (Option ℕ) := do
  let s ← .get
  if s.isLiteral settings a ∧ s.isLiteral settings b ∧ (foldInteger op 0#32 0#32).isSome then
    let x ← value settings a
    let y ← value settings b
    match foldInteger op x y with
    | some z => return some (← literal z)
    | none => return none
  return none

/-- Operations with an operand as their result. -/
def simplified (op : Op) (a b : ℕ) : Compile (Option ℕ) := do
  let s ← .get
  if op = .and ∨ op = .or ∨ op = .xor then
    if a = b then return some (← if op = .xor then literal 0#32 else pure a)
    if s.bits a 0#32 then return some (if op = .and then a else b)
    if s.bits b 0#32 then return some (if op = .and then b else a)
    if op = .and then
      if s.bits a 0xffffffff#32 then return some b
      if s.bits b 0xffffffff#32 then return some a
    if op = .or then
      if s.bits a 0xffffffff#32 then return some a
      if s.bits b 0xffffffff#32 then return some b
  if (op = .min ∨ op = .max ∨ op = .imin ∨ op = .imax ∨ op = .umin ∨ op = .umax) ∧ a = b then
    return some a
  return none

/-- Reuse identical pure scalar operations without reassociation or float folding. -/
def shared (op : Op) (a b : ℕ) : Compile ℕ := do
  let s ← .get
  if settings.cseWindow = 0 then put (.binary op a b)
  else
    let insert : Compile ℕ := do
      let result ← put (.binary op a b)
      change fun s => { s with expressions := Function.update s.expressions (op, a, b) (some result) }
      return result
    match s.expressions (op, a, b) with
    | some found => if s.nodes.length - found < settings.cseWindow then return found else insert
    | none => insert

def binary (op : Op) (a b : ℕ) (fold : Bool := true) : Compile ℕ := do
  let s ← .get
  need (a < s.nodes.length ∧ b < s.nodes.length) "read of undefined shader value"
  let (op, a, b) := subtraction s op a b
  let result ← if fold then folded settings op a b else pure none
  match result with
  | some result => return result
  | none =>
    match ← simplified op a b with
    | some result => return result
    | none => shared settings op a b

/-! ### Lookups -/

def binding (resource : ℕ) (sampler : Option ℕ) : Compile ℕ := do
  let s ← .get
  match s.bindings.findIdx? fun b => b.resource == resource && b.sampler == sampler with
  | some i => return i
  | none =>
    need (s.bindings.length < bindings) "shader resource binding limit exceeded"
    change fun s => { s with bindings := s.bindings ++
      [⟨resource, sampler, s.resourceDimensions resource == 1, s.signedBuffers resource⟩] }
    return s.bindings.length

/-- `Fetch`: the four nodes of a new lookup. -/
def fetch (kind : Lookup) (binding u v : ℕ) : Compile (Fin 4 → ℕ) := do
  let s ← .get
  need (s.lookups.length < maxLookups ∧ u < s.nodes.length ∧ v < s.nodes.length)
    "texture lookup limit exceeded"
  let x ← put (.texture u v 0 s.lookups.length)
  let y ← put (.texture u v 1 s.lookups.length)
  let z ← put (.texture u v 2 s.lookups.length)
  let w ← put (.texture u v 3 s.lookups.length)
  let values : Fin 4 → ℕ := ![x, y, z, w]
  change fun s => { s with lookups := s.lookups ++ [⟨kind, binding, values⟩] }
  return values

/-! ### Masks and comparisons -/

def inRange (clamped limit : ℕ) : Compile ℕ := do
  binary settings .shr (← binary settings .isub clamped limit) (← literal 31#32)

def mask (node : ℕ) : Compile ℕ := do
  change fun s => { s with maskNodes := Function.update s.maskNodes node true }
  return node

/-- The word of a Direct3D boolean. -/
def boolean (b : Prop) [Decidable b] : UWord := if b then 0xffffffff#32 else 0#32

def nonZero (x : ℕ) : Compile ℕ := do
  let s ← .get
  if s.maskNodes x then return x
  if s.isLiteral settings x then literal (boolean ((← value settings x) ≠ 0#32))
  else mask (← binary settings .ine x (← literal 0#32))

def not (node : ℕ) : Compile ℕ := do
  mask (← binary settings .xor node (← literal 0xffffffff#32))

def andMask (a b : ℕ) : Compile ℕ := do
  mask (← binary settings .and a b)

/-- A comparison that is decided where both words are known. -/
def compare (op : Op) (holds : UWord → UWord → Bool) (a b : ℕ) : Compile ℕ := do
  let s ← .get
  if s.isLiteral settings a ∧ s.isLiteral settings b then
    literal (boolean (holds (← value settings a) (← value settings b)))
  else mask (← binary settings op a b)

def ilt : ℕ → ℕ → Compile ℕ :=
  compare settings .ilt fun x y => x ^^^ 0x80000000#32 < y ^^^ 0x80000000#32

def ult : ℕ → ℕ → Compile ℕ := compare settings .ult fun x y => x < y

def ieq : ℕ → ℕ → Compile ℕ := compare settings .ieq fun x y => x == y

/-- The word of a literal node. -/
def State.fixed (s : State) (node : ℕ) : Option UWord :=
  match s.uniformAt node with
  | some u => if u.kind = .literal then some u.value else none
  | none => none

/-- A word whose IEEE exponent is zero. -/
def subnormal (x : UWord) : Bool := x &&& 0x7f800000#32 == 0#32

/-- `Normal`: the value with subnormals flushed to zero. -/
def normal (node : ℕ) : Compile ℕ := do
  let s ← .get
  match s.uniformAt node with
  | some u =>
    if u.kind = .literal then
      if subnormal u.value then literal 0#32 else return node
    else if u.kind = .constantBuffer then uniformNode .floatConstantBuffer u.value u.slot
    else binary settings .ftz node (← literal 0x7f800000#32)
  | none => binary settings .ftz node (← literal 0x7f800000#32)

/-- A comparison with a zero or a subnormal. Ordered thresholds at the smallest normal
include all signed subnormals with zero, without changing the original input. -/
def compareZero (op : Op) (left : Bool) (node : ℕ) : Compile ℕ := do
  if op = .feq ∨ op = .fne then
    mask (← binary settings (if op = .feq then .fzeq else .fzne) node (← literal 0x7f800000#32))
  else if left then
    mask (← binary settings (if op = .flt then .fge else .flt) node (← literal 0x00800000#32))
  else
    mask (← binary settings (if op = .flt then .fge else .flt) (← literal 0x80800000#32) node)

/-- `FloatCompare` for operands that are not negations of each other. -/
def compareFixed (op : Op) (a b : ℕ) : Compile ℕ := do
  let s ← .get
  if (s.fixed a).any subnormal then compareZero settings op true b
  else if (s.fixed b).any subnormal then compareZero settings op false a
  else if (s.fixed a).isSome ∨ (s.fixed b).isSome then mask (← binary settings op a b)
  else mask (← binary settings op (← normal settings a) (← normal settings b))

/-- `FloatCompare`. A comparison with a negated copy becomes one with zero, at most
`rewrites` times. -/
def floatCompareWithin (op : Op) : (rewrites a b : ℕ) → Compile ℕ
  | 0, a, b => compareFixed settings op a b
  | rewrites + 1, a, b => do
    let s ← .get
    if s.negated b = some a then floatCompareWithin op rewrites a (← literal 0#32)
    else if s.negated a = some b then floatCompareWithin op rewrites (← literal 0#32) b
    else compareFixed settings op a b

/-- A literal is no negation, so a third rewrite never happens. -/
def floatCompare (op : Op) (a b : ℕ) : Compile ℕ := floatCompareWithin settings op 2 a b

/-- The test that follows when the branch of a known mask is not taken. -/
def selectUnknown (condition a b : ℕ) : Compile ℕ := do
  let s ← .get
  if a = b then return a
  if s.bits a 0#32 then binary settings .and b (← not settings condition)
  else if s.bits b 0#32 then binary settings .and a condition
  else
    -- `NonZero` already produced a boolean; the copy can test its input.
    match s.nodes[condition]? with
    | some (.binary .ine x y) =>
      if s.bits y 0#32 then put (.select x a b) else put (.select condition a b)
    | _ => put (.select condition a b)

/-- `Select`. -/
def select (condition a b : ℕ) : Compile ℕ := do
  let s ← .get
  if s.isLiteral settings condition then
    let word ← value settings condition
    if word = 0#32 then return b
    if word = 0xffffffff#32 then return a
  selectUnknown settings condition a b

end Pi5Drivers.Compiler
