import Pi5Drivers.Compiler.Run
import Pi5Drivers.Lib.Runs

/-! The programs a draw uses (`native/umd.cpp`, `CompileProgram` and `DrawVertices`). Shaders are compiled when a draw needs
them, specialized for constants that decide loops and for blending, and linked with the inputs of the pixel shader. What
was compiled is kept for later draws. A compilation that fails leaves anything in what it was to fill. -/

namespace Pi5Drivers.Draw

open Abi Compiler

/-- `Shader`, before anything is compiled into it. -/
def noShader : Shader where
  code := []
  uniforms := []
  instructions := 0
  inputs _ := 0
  systemInputs _ _ := 0
  outputScalars := 0
  varyingScalars := 0
  nonPerspectiveMask := 0
  flatMask := 0
  bindings := []
  constantSlot := none
  constantWords := 0
  constantDeclaredWords := 0
  specialized := []

/-- `LinkedProgram`. -/
structure LinkedProgram where
  shader : Shader
  inputs : ShaderSignature
  valid : Bool

structure Program where
  first : Shader
  second : Shader
  linked : Fin 4 → LinkedProgram
  tokens : List UWord
  constants : ConstantBuffers
  blend : ShaderBlend
  nextLinked : Fin 4
  stage : ShaderStage
  compiled : Bool
  loops : Bool

/-- The blend states are compared by their six functions. -/
def SameBlend (a b : ShaderBlend) : Prop := (∀ i < 6, a.functions i = b.functions i) ∧ a.opaqueTarget = b.opaqueTarget

instance (a b : ShaderBlend) : Decidable (SameBlend a b) := inferInstanceAs (Decidable (_ ∧ _))

/-- The signatures are compared by their 32 registers. -/
def SameSignature (a b : ShaderSignature) : Prop := ∀ r < shaderRegisters, a r = b r

instance (a b : ShaderSignature) : Decidable (SameSignature a b) := inferInstanceAs (Decidable (∀ r < shaderRegisters, a r = b r))

/-- What the words are that a shader was specialized for. -/
def Agree (shader : Shader) (a b : ConstantBuffers) : Prop := ∀ u ∈ shader.specialized, a.word u.slot u.value.toNat = b.word u.slot u.value.toNat

instance (shader : Shader) (a b : ConstantBuffers) : Decidable (Agree shader a b) :=
  inferInstanceAs (Decidable (∀ u ∈ shader.specialized, a.word u.slot u.value.toNat = b.word u.slot u.value.toNat))

def noVaryings : ShaderSignature := fun _ => 0

/-- `CreateShader`: whether there are loops, `none` if an instruction has no length or goes beyond the end. -/
def scanLoops : ℕ → List UWord → Bool → Option Bool
  | _, [], loops => some loops
  | 0, _ :: _, _ => none
  | n + 1, word :: rest, loops =>
    let length := ((word >>> 24) &&& 127#32).toNat
    if length = 0 ∨ rest.length + 1 < length then none
    else scanLoops n (rest.drop (length - 1)) (loops || (word &&& 0x7ff#32) == 48#32)

namespace Program

/-- `Program`, as it is created. -/
def created (stage : ShaderStage) (tokens : List UWord) (loops : Bool) : Program where
  first := noShader
  second := noShader
  linked _ := ⟨noShader, noVaryings, false⟩
  tokens
  constants _ := []
  blend := ⟨fun _ => 0, false⟩
  nextLinked := 0
  stage
  compiled := false
  loops

/-- `CreateShader`, for vertices and pixels. The second word is the number of words. -/
def createShader (stage : ShaderStage) : List UWord → Option Program
  | version :: count :: rest =>
    if count.toNat = rest.length + 2 ∧ count.toNat ≤ 65536 ∧
        (stage = .pixel ∧ version = 0x40#32 ∨ stage = .vertex ∧ version = 0x10040#32) then
      (scanLoops rest.length rest false).map (created stage (version :: count :: rest))
    else none
  | _ => none

/-- The constants a program is compiled with. -/
def snapshot (p : Program) (constants : ConstantBuffers) : Option ConstantBuffers := if p.loops then some constants else none

/-- `CompileProgram`: another blend state. -/
def reblend (p : Program) (blend : ShaderBlend) : Program :=
  if p.stage = .pixel ∧ ¬SameBlend blend p.blend then { p with compiled := false, blend := blend } else p

/-- `CompileProgram`: other constants. -/
def respecialize (p : Program) (constants : ConstantBuffers) : Program :=
  { p with
    compiled := p.compiled && !decide (p.stage = .vertex ∧ ¬∀ slot, constants slot = p.constants slot) && decide (Agree p.first constants p.constants)
    constants := constants }

/-- `CompileProgram`, from where it compiles; `left` is what failed compilations leave. -/
def recompile (p : Program) (left : Shader × Shader) : Program × Bool :=
  let p : Program := { p with linked := fun i => { p.linked i with valid := false }, nextLinked := 0 }
  match compileShaderTokens p.tokens p.stage (if p.stage = .vertex then some noVaryings else none) (p.snapshot p.constants)
      (if p.stage = .pixel then some p.blend else none) with
  | .error _ => ({ p with first := left.1 }, false)
  | .ok first =>
    if p.stage = .vertex then
      match compileShaderTokens p.tokens .coordinate none (p.snapshot p.constants) none with
      | .error _ => ({ p with first := first, second := left.2 }, false)
      | .ok second => ({ p with first := first, second := second, compiled := true }, true)
    else ({ p with first := first, compiled := true }, true)

def settle (p : Program) (left : Shader × Shader) : Program × Bool := if p.compiled then (p, true) else p.recompile left

/-- `CompileProgram`. The constants are read for a program with loops only, which may fail. -/
def compileProgram (p : Program) (blend : ShaderBlend) (constants : Option ConstantBuffers) (left : Shader × Shader) : Program × Bool :=
  if (p.reblend blend).loops then
    match constants with
    | none => (p.reblend blend, false)
    | some constants => ((p.reblend blend).respecialize constants).settle left
  else (p.reblend blend).settle left

/-- The look-up of a linked program in `DrawVertices`. -/
def find (p : Program) (inputs : ShaderSignature) : Option (Fin 4) :=
  [0, 1, 2, 3].find? fun i => (p.linked i).valid && decide (SameSignature (p.linked i).inputs inputs)

/-- `DrawVertices`: the vertex program for the inputs of a pixel program. -/
def link (p : Program) (inputs : ShaderSignature) : Program × Option Shader :=
  match p.find inputs with
  | some i => (p, some (p.linked i).shader)
  | none =>
    let entry := p.nextLinked
    match compileShaderTokens p.tokens .vertex (some inputs) (p.snapshot p.constants) none with
    | .error _ =>
      ({ p with linked := Function.update p.linked entry { p.linked entry with valid := false }, nextLinked := entry + 1 }, none)
    | .ok shader => ({ p with linked := Function.update p.linked entry ⟨shader, inputs, true⟩, nextLinked := entry + 1 }, some shader)

end Program

/-- The programs of a draw, with what they are for. -/
structure Placed where
  vertex : Program
  pixel : Program
  linked : Shader
  vertexConstants : Option ConstantBuffers
  pixelConstants : Option ConstantBuffers
  blend : ShaderBlend

/-- `Device`, as far as it is about programs. A constant buffer that cannot be read is none. -/
structure ShaderDevice where
  programs : ℕ → Program
  vs : Option ℕ
  ps : Option ℕ
  vertexConstants : Option ConstantBuffers
  pixelConstants : Option ConstantBuffers
  blend : ShaderBlend
  placed : List Placed

def ShaderDevice.put (d : ShaderDevice) (i : ℕ) (p : Program) : ShaderDevice := { d with programs := Function.update d.programs i p }

@[simp] theorem ShaderDevice.put_self {d : ShaderDevice} {i : ℕ} {p : Program} : (d.put i p).programs i = p := Function.update_self ..

theorem ShaderDevice.put_ne {d : ShaderDevice} {i j : ℕ} {p : Program} (other : j ≠ i) : (d.put i p).programs j = d.programs j :=
  Function.update_of_ne other ..

/-- `CompileProgram` of one of the programs. -/
def ShaderDevice.compile (d : ShaderDevice) (i : ℕ) (constants : Option ConstantBuffers) (left : Shader × Shader) : ShaderDevice × Bool :=
  (d.put i ((d.programs i).compileProgram d.blend constants left).1, ((d.programs i).compileProgram d.blend constants left).2)

/-- `DrawVertices`, once both programs are compiled. -/
def ShaderDevice.place (d : ShaderDevice) (vs ps : ℕ) : ShaderDevice :=
  match (d.programs vs).link (d.programs ps).first.inputs with
  | (v, none) => d.put vs v
  | (v, some linked) =>
    { d.put vs v with placed := ⟨v, d.programs ps, linked, d.vertexConstants, d.pixelConstants, d.blend⟩ :: d.placed }

/-- `DrawVertices`, as far as it is about programs; `gathers` tells whether the vertices can be gathered. -/
def ShaderDevice.draw (d : ShaderDevice) (vs ps : ℕ) (leftVertex leftPixel : Shader × Shader) (gathers : Bool) : ShaderDevice :=
  let v := d.compile vs d.vertexConstants leftVertex
  if v.2 = false then v.1 else
    let p := v.1.compile ps d.pixelConstants leftPixel
    if p.2 = false ∨ gathers = false then p.1 else p.1.place vs ps

inductive Call
  | createShader (i : ℕ) (stage : ShaderStage) (tokens : List UWord)
  | setVs (i : ℕ)
  | setPs (i : ℕ)
  | setVertexConstants (constants : Option ConstantBuffers)
  | setPixelConstants (constants : Option ConstantBuffers)
  | setBlend (blend : ShaderBlend)
  | draw (leftVertex leftPixel : Shader × Shader) (gathers : Bool)

/-- The runtime sets shaders for their own stage, and makes none in place of one that is set. -/
def ShaderDevice.next (d : ShaderDevice) : Call → Option ShaderDevice
  | .createShader i stage tokens =>
    if d.vs = some i ∨ d.ps = some i then none
    else
      match Program.createShader stage tokens with
      | none => some d
      | some p => some (d.put i p)
  | .setVs i => if (d.programs i).stage = .vertex then some { d with vs := some i } else none
  | .setPs i => if (d.programs i).stage = .pixel then some { d with ps := some i } else none
  | .setVertexConstants constants => some { d with vertexConstants := constants }
  | .setPixelConstants constants => some { d with pixelConstants := constants }
  | .setBlend blend => some { d with blend := blend }
  | .draw leftVertex leftPixel gathers =>
    match d.vs, d.ps with
    | some vs, some ps => some (d.draw vs ps leftVertex leftPixel gathers)
    | _, _ => none

/-- A device without shaders. -/
def programSystem : System ShaderDevice Call where
  init :=
    { programs _ := .created .pixel [] false, vs := none, ps := none, vertexConstants := none, pixelConstants := none,
      blend := ⟨fun _ => 0, false⟩, placed := [] }
  next := ShaderDevice.next

/-! ### What a compiled program is -/

section Current

variable {p : Program} {b : ShaderBlend} {constants : ConstantBuffers} {l : Shader × Shader} {k : ShaderSignature}

/-- A pixel program was compiled for the blend state it has, under constants that it cannot tell from those it has. -/
def PixelCurrent (p : Program) : Prop :=
  ∃ c, compileShaderTokens p.tokens .pixel none (p.snapshot c) (some p.blend) = .ok p.first ∧ (p.loops = true → Agree p.first c p.constants)

/-- The coordinate program and the linked ones were compiled under the constants the program has. -/
structure VertexCurrent (p : Program) : Prop where
  coordinate : compileShaderTokens p.tokens .coordinate none (p.snapshot p.constants) none = .ok p.second
  linked : ∀ i, (p.linked i).valid = true →
    compileShaderTokens p.tokens .vertex (some (p.linked i).inputs) (p.snapshot p.constants) none = .ok (p.linked i).shader

/-- What holds of a program that is marked as compiled. -/
structure Current (p : Program) : Prop where
  pixel : p.compiled = true → p.stage = .pixel → PixelCurrent p
  vertex : p.compiled = true → p.stage = .vertex → VertexCurrent p

theorem Current.of_stale (stale : p.compiled = false) : Current p :=
  ⟨fun yes => absurd (stale.symm.trans yes) Bool.false_ne_true, fun yes => absurd (stale.symm.trans yes) Bool.false_ne_true⟩

theorem createShader_current {stage : ShaderStage} {tokens : List UWord} (made : Program.createShader stage tokens = some p) : Current p := by
  unfold Program.createShader at made
  split at made
  · split at made
    · obtain ⟨loops, -, rfl⟩ := Option.map_eq_some_iff.mp made
      exact .of_stale rfl
    · cases made
  · cases made

theorem SameBlend.refl (b : ShaderBlend) : SameBlend b b := ⟨fun _ _ => rfl, rfl⟩

/-- Afterwards the program has the blend state it is asked for. -/
theorem reblend_current (h : Current p) :
    Current (p.reblend b) ∧ ((p.reblend b).stage = .pixel → SameBlend b (p.reblend b).blend) := by
  rw [Program.reblend]
  split
  · exact ⟨.of_stale rfl, fun _ => .refl b⟩
  · rename_i same
    exact ⟨h, fun pixel => not_not.mp fun other => same ⟨pixel, other⟩⟩

theorem respecialize_current (h : Current p) : Current (p.respecialize constants) := by
  refine ⟨fun compiled pixel => ?_, fun compiled vertex => ?_⟩
  · simp only [Program.respecialize, Bool.and_eq_true, decide_eq_true_eq] at compiled
    obtain ⟨⟨before, -⟩, agree⟩ := compiled
    obtain ⟨c, made, same⟩ := h.pixel before pixel
    exact ⟨c, made, fun loops u mem => (same loops u mem).trans (agree u mem).symm⟩
  · simp only [Program.respecialize, Bool.and_eq_true, Bool.not_eq_true', decide_eq_false_iff_not, decide_eq_true_eq] at compiled
    obtain ⟨⟨before, other⟩, -⟩ := compiled
    have same : constants = p.constants := funext (not_not.mp fun no => other ⟨vertex, no⟩)
    obtain ⟨coordinate, linked⟩ := h.vertex before vertex
    subst same
    exact ⟨coordinate, linked⟩

/-- What stays of a program whatever is compiled. -/
def Program.identity (p : Program) : List UWord × ShaderStage × Bool := (p.tokens, p.stage, p.loops)

theorem recompile_current (stale : p.compiled = false) :
    Current (p.recompile l).1 ∧ ((p.recompile l).2 = true → (p.recompile l).1.compiled = true) ∧
      (p.recompile l).1.identity = p.identity ∧ (p.recompile l).1.blend = p.blend ∧ (p.recompile l).1.constants = p.constants := by
  unfold Program.recompile
  dsimp only
  split
  · exact ⟨.of_stale stale, fun no => (by cases no), rfl, rfl, rfl⟩
  rename_i first made
  split
  · rename_i vertex
    split
    · exact ⟨.of_stale stale, fun no => (by cases no), rfl, rfl, rfl⟩
    · rename_i second coordinate
      refine ⟨⟨fun _ pixel => ?_, fun _ _ => ⟨coordinate, fun _ no => (by cases no)⟩⟩, fun _ => rfl, rfl, rfl, rfl⟩
      cases vertex.symm.trans pixel
  · rename_i other
    refine ⟨⟨fun _ pixel => ⟨p.constants, ?_, fun _ _ _ => rfl⟩, fun _ vertex => absurd vertex other⟩, fun _ => rfl, rfl, rfl, rfl⟩
    have pixel : p.stage = .pixel := pixel
    rw [if_neg other, if_pos pixel, pixel] at made
    exact made

/-- The program is compiled for a blend state and for constants. -/
structure Suits (blend : ShaderBlend) (constants : Option ConstantBuffers) (p : Program) : Prop where
  compiled : p.compiled = true
  blend : p.stage = .pixel → SameBlend blend p.blend
  constants : p.loops = true → constants = some p.constants

theorem settle_current {n : Option ConstantBuffers} (h : Current p) (blended : p.stage = .pixel → SameBlend b p.blend)
    (read : p.loops = true → n = some p.constants) :
    Current (p.settle l).1 ∧ (p.settle l).1.identity = p.identity ∧ ((p.settle l).2 = true → Suits b n (p.settle l).1) := by
  unfold Program.settle
  by_cases compiled : p.compiled = true
  · rw [if_pos compiled]
    exact ⟨h, rfl, fun _ => ⟨compiled, blended, read⟩⟩
  · rw [if_neg compiled]
    obtain ⟨current, done, same, blend', constants'⟩ := recompile_current (l := l) (Bool.eq_false_of_not_eq_true compiled)
    have sameStage : (p.recompile l).1.stage = p.stage := congrArg (fun i => i.2.1) same
    have sameLoops : (p.recompile l).1.loops = p.loops := congrArg (fun i => i.2.2) same
    exact ⟨current, same, fun ok => ⟨done ok, fun pixel => blend' ▸ blended (sameStage ▸ pixel), fun loops => constants' ▸ read (sameLoops ▸ loops)⟩⟩

theorem reblend_identity : (p.reblend b).identity = p.identity := by
  rw [Program.reblend]
  split <;> rfl

theorem compileProgram_current {n : Option ConstantBuffers} (h : Current p) :
    Current (p.compileProgram b n l).1 ∧ (p.compileProgram b n l).1.identity = p.identity ∧
      ((p.compileProgram b n l).2 = true → Suits b n (p.compileProgram b n l).1) := by
  obtain ⟨current, blended⟩ := reblend_current (b := b) h
  have same : (p.reblend b).identity = p.identity := reblend_identity
  unfold Program.compileProgram
  split
  · split
    · exact ⟨current, same, fun no => (by cases no)⟩
    · rename_i n
      obtain ⟨after, same', suits⟩ := settle_current (p := (p.reblend b).respecialize n) (l := l) (respecialize_current current)
        blended fun _ => rfl
      exact ⟨after, same'.trans same, suits⟩
  · rename_i plain
    obtain ⟨after, same', suits⟩ := settle_current (l := l) (n := n) current blended fun loops => absurd loops plain
    exact ⟨after, same'.trans same, suits⟩

/-- A linked program that is not valid or right may take the place of one. -/
theorem VertexCurrent.relink (h : VertexCurrent p) {i n : Fin 4} {e : LinkedProgram}
    (right : e.valid = true → compileShaderTokens p.tokens .vertex (some e.inputs) (p.snapshot p.constants) none = .ok e.shader) :
    VertexCurrent { p with linked := Function.update p.linked i e, nextLinked := n } := by
  refine ⟨h.coordinate, fun j valid => ?_⟩
  by_cases here : j = i
  · subst here
    simp only [Function.update_self] at valid ⊢
    exact right valid
  · simp only [Function.update_of_ne here] at valid ⊢
    exact h.linked j valid

/-- The linked program is for the inputs, whether it was found or is new. -/
theorem link_current (h : VertexCurrent p) :
    VertexCurrent (p.link k).1 ∧ (p.link k).1.identity = p.identity ∧ (p.link k).1.constants = p.constants ∧
      ∀ s, (p.link k).2 = some s → ∃ inputs, SameSignature inputs k ∧
        compileShaderTokens p.tokens .vertex (some inputs) (p.snapshot p.constants) none = .ok s := by
  unfold Program.link
  dsimp only
  split
  · rename_i i found
    have fits := List.find?_some found
    simp only [Bool.and_eq_true, decide_eq_true_eq] at fits
    obtain ⟨valid, same⟩ := fits
    exact ⟨h, rfl, rfl, fun s is => ⟨(p.linked i).inputs, same, Option.some.inj is ▸ h.linked i valid⟩⟩
  split
  · exact ⟨h.relink fun no => (by cases no), rfl, rfl, fun s no => (by cases no)⟩
  · rename_i shader made
    exact ⟨h.relink fun _ => made, rfl, rfl, fun s is => ⟨k, fun _ _ => rfl, Option.some.inj is ▸ made⟩⟩

end Current

/-! ### Draws -/

section Draws

variable {d : ShaderDevice} {i vs ps : ℕ} {l : Shader × Shader}

/-- The programs of a draw are compiled for what is set when it is made. -/
structure Right (e : Placed) : Prop where
  pixel : ∃ blend c, SameBlend e.blend blend ∧
    (e.pixel.loops = true → ∃ now, e.pixelConstants = some now ∧ Agree e.pixel.first c now) ∧
    compileShaderTokens e.pixel.tokens .pixel none (e.pixel.snapshot c) (some blend) = .ok e.pixel.first
  vertex : ∃ now inputs, (e.vertex.loops = true → e.vertexConstants = some now) ∧ SameSignature inputs e.pixel.first.inputs ∧
    compileShaderTokens e.vertex.tokens .coordinate none (e.vertex.snapshot now) none = .ok e.vertex.second ∧
    compileShaderTokens e.vertex.tokens .vertex (some inputs) (e.vertex.snapshot now) none = .ok e.linked

/-- What holds between calls. -/
structure Inv (d : ShaderDevice) : Prop where
  current : ∀ i, Current (d.programs i)
  vs : ∀ i ∈ d.vs, (d.programs i).stage = .vertex
  ps : ∀ i ∈ d.ps, (d.programs i).stage = .pixel
  placed : ∀ e ∈ d.placed, Right e

/-- Another program of the same shader takes the place of one. -/
theorem Inv.put (h : Inv d) {p : Program} (current : Current p) (stage : p.stage = (d.programs i).stage) : Inv (d.put i p) := by
  have stages (j : ℕ) : ((d.put i p).programs j).stage = (d.programs j).stage := by
    by_cases here : j = i
    · rw [here, ShaderDevice.put_self, stage]
    · rw [ShaderDevice.put_ne here]
  refine ⟨fun j => ?_, fun j mem => stages j ▸ h.vs j mem, fun j mem => stages j ▸ h.ps j mem, h.placed⟩
  by_cases here : j = i
  · rw [here, ShaderDevice.put_self]
    exact current
  · rw [ShaderDevice.put_ne here]
    exact h.current j

theorem compile_inv {c : Option ConstantBuffers} (h : Inv d) :
    Inv (d.compile i c l).1 ∧
      ((d.compile i c l).2 = true → Suits d.blend c ((d.compile i c l).1.programs i)) := by
  obtain ⟨current, same, suits⟩ := compileProgram_current (b := d.blend) (n := c) (l := l) (h.current i)
  refine ⟨h.put current (congrArg (fun i => i.2.1) same), fun ok => ?_⟩
  have here : (d.compile i c l).1.programs i = ((d.programs i).compileProgram d.blend c l).1 := ShaderDevice.put_self
  rw [here]
  exact suits ok

/-- Compiling keeps the stages of all programs. -/
theorem compile_stage {c : Option ConstantBuffers} (h : Inv d) (j : ℕ) : ((d.compile i c l).1.programs j).stage = (d.programs j).stage := by
  obtain ⟨-, same, -⟩ := compileProgram_current (b := d.blend) (n := c) (l := l) (h.current i)
  by_cases here : j = i
  · rw [here, ShaderDevice.compile, ShaderDevice.put_self]
    exact congrArg (fun i => i.2.1) same
  · rw [ShaderDevice.compile, ShaderDevice.put_ne here]

theorem place_inv (h : Inv d) (vertex : (d.programs vs).stage = .vertex) (pixel : (d.programs ps).stage = .pixel)
    (readyVertex : Suits d.blend d.vertexConstants (d.programs vs)) (readyPixel : Suits d.blend d.pixelConstants (d.programs ps)) :
    Inv (d.place vs ps) := by
  have before : VertexCurrent (d.programs vs) := (h.current vs).vertex readyVertex.compiled vertex
  obtain ⟨after, same, constants, linkedIs⟩ := link_current (k := (d.programs ps).first.inputs) before
  have stage := congrArg (fun i => i.2.1) same
  have tokens := congrArg (fun i => i.1) same
  have loops := congrArg (fun i => i.2.2) same
  have kept : Inv (d.put vs ((d.programs vs).link (d.programs ps).first.inputs).1) :=
    h.put ⟨fun _ no => (by cases vertex.symm.trans (stage.symm.trans no)), fun _ _ => after⟩ stage
  unfold ShaderDevice.place
  split
  · rename_i v none
    rw [none] at kept
    exact kept
  · rename_i v linked some
    rw [some] at kept after same constants linkedIs stage tokens loops
    refine ⟨kept.current, kept.vs, kept.ps, fun e mem => ?_⟩
    rcases List.mem_cons.mp mem with rfl | old
    · refine ⟨?_, ?_⟩
      · obtain ⟨c, made, agree⟩ := (h.current ps).pixel readyPixel.compiled pixel
        exact ⟨_, c, readyPixel.blend pixel, fun l => ⟨_, readyPixel.constants l, agree l⟩, made⟩
      · obtain ⟨inputs, fits, made⟩ := linkedIs linked rfl
        have snap : v.snapshot v.constants = (d.programs vs).snapshot (d.programs vs).constants := by
          rw [Program.snapshot, Program.snapshot, show v.loops = (d.programs vs).loops from loops, constants]
        refine ⟨v.constants, inputs, fun l => ?_, fits, after.coordinate, ?_⟩
        · rw [constants]
          exact readyVertex.constants (loops.symm.trans l)
        · change compileShaderTokens v.tokens _ _ _ _ = _
          rw [show v.tokens = (d.programs vs).tokens from tokens, snap]
          exact made
    · exact h.placed e old

theorem draw_inv (h : Inv d) (vertex : (d.programs vs).stage = .vertex) (pixel : (d.programs ps).stage = .pixel) {leftVertex leftPixel : Shader × Shader}
    {gathers : Bool} : Inv (d.draw vs ps leftVertex leftPixel gathers) := by
  have other : vs ≠ ps := fun same => by
    subst same
    cases vertex.symm.trans pixel
  unfold ShaderDevice.draw
  dsimp only
  obtain ⟨first, readyVertex⟩ := compile_inv (i := vs) (c := d.vertexConstants) (l := leftVertex) h
  split
  · exact first
  rename_i compiled
  obtain ⟨second, readyPixel⟩ := compile_inv (i := ps) (c := d.pixelConstants) (l := leftPixel) first
  split
  · exact second
  rename_i both
  obtain ⟨compiledPixel, -⟩ := not_or.mp both
  have kept : ((d.compile vs d.vertexConstants leftVertex).1.compile ps d.pixelConstants leftPixel).1.programs vs =
      (d.compile vs d.vertexConstants leftVertex).1.programs vs := ShaderDevice.put_ne other
  refine place_inv second ?_ ?_ ?_ (readyPixel (Bool.eq_true_of_not_eq_false compiledPixel))
  · rw [compile_stage first, compile_stage h]
    exact vertex
  · rw [compile_stage first, compile_stage h]
    exact pixel
  · rw [kept]
    exact readyVertex (Bool.eq_true_of_not_eq_false compiled)

theorem next_inv {d' : ShaderDevice} {call : Call} (h : Inv d) (next : d.next call = some d') : Inv d' := by
  cases call with
  | createShader i stage tokens =>
    rw [ShaderDevice.next] at next
    split at next
    · cases next
    rename_i free
    obtain ⟨vs, ps⟩ := not_or.mp free
    split at next
    · exact Option.some.inj next ▸ h
    rename_i p made
    obtain rfl := Option.some.inj next
    refine ⟨fun j => ?_, fun j mem => ?_, fun j mem => ?_, h.placed⟩
    · by_cases here : j = i
      · rw [here, ShaderDevice.put_self]
        exact createShader_current made
      · rw [ShaderDevice.put_ne here]
        exact h.current j
    · have other : j ≠ i := fun same => vs (same ▸ mem)
      rw [ShaderDevice.put_ne other]
      exact h.vs j mem
    · have other : j ≠ i := fun same => ps (same ▸ mem)
      rw [ShaderDevice.put_ne other]
      exact h.ps j mem
  | setVs i =>
    rw [ShaderDevice.next] at next
    split at next
    · rename_i vertex
      obtain rfl := Option.some.inj next
      exact ⟨h.current, fun j mem => Option.some.inj mem ▸ vertex, h.ps, h.placed⟩
    · cases next
  | setPs i =>
    rw [ShaderDevice.next] at next
    split at next
    · rename_i pixel
      obtain rfl := Option.some.inj next
      exact ⟨h.current, h.vs, fun j mem => Option.some.inj mem ▸ pixel, h.placed⟩
    · cases next
  | setVertexConstants constants =>
    obtain rfl := Option.some.inj next
    exact ⟨h.current, h.vs, h.ps, h.placed⟩
  | setPixelConstants constants =>
    obtain rfl := Option.some.inj next
    exact ⟨h.current, h.vs, h.ps, h.placed⟩
  | setBlend blend =>
    obtain rfl := Option.some.inj next
    exact ⟨h.current, h.vs, h.ps, h.placed⟩
  | draw leftVertex leftPixel gathers =>
    rw [ShaderDevice.next] at next
    split at next
    · rename_i vs ps isVs isPs
      obtain rfl := Option.some.inj next
      exact draw_inv h (h.vs vs isVs) (h.ps ps isPs)
    · cases next

theorem init_inv : Inv programSystem.init where
  current _ := .of_stale rfl
  vs _ no := by cases no
  ps _ no := by cases no
  placed _ no := by cases no

/-- **A program is never used stale.** In every run of shaders, constants and blend states that are set, of draws, and of
compilations that fail, a draw has programs that were compiled for what is set when it is made: the pixel program for the
blend state, under constants that have the current words wherever the program relies on them; the coordinate program
and the linked vertex program under the current constants of the vertex stage; and the linked one for the inputs of
that pixel program. -/
theorem programs_fresh {d : ShaderDevice} (reachable : programSystem.Reachable d) : ∀ e ∈ d.placed, Right e := by
  have inv : Inv d := reachable.invariant init_inv fun _ had _ next => next_inv had next
  exact inv.placed

/-- A vertex program that puts all vertices in one place. -/
def oneVertex : List UWord :=
  [0x10040, 15, 0x04000067, 0x001020f2, 0, 1, 0x08000036, 0x001020f2, 0, 0x00004002, 0, 0, 0, 0x3f800000, 0x0100003e]

/-- A pixel program of one colour. -/
def oneColour : List UWord :=
  [0x40, 14, 0x03000065, 0x001020f2, 0, 0x08000036, 0x001020f2, 0, 0x00004002, 0, 0, 0, 0x3f800000, 0x0100003e]

def oneDraw : List Call :=
  [.createShader 0 .vertex oneVertex, .createShader 1 .pixel oneColour, .setVs 0, .setPs 1, .draw (noShader, noShader) (noShader, noShader) true]

def afterDraw : ShaderDevice := (programSystem.runFrom programSystem.init oneDraw).getD programSystem.init

theorem afterDraw_reachable : programSystem.Reachable afterDraw := by
  unfold afterDraw
  cases run : programSystem.runFrom programSystem.init oneDraw with
  | none => exact .init
  | some d => exact System.reachable_of_run run

theorem programs_fresh_once : afterDraw.placed.length = 1 ∧ ∀ e ∈ afterDraw.placed, Right e :=
  ⟨by decide +kernel, programs_fresh afterDraw_reachable⟩

end Draws

end Pi5Drivers.Draw
