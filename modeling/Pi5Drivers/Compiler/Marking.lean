import Pi5Drivers.Compiler.Masks
import Pi5Drivers.Compiler.Run

/-! Marked nodes of a compilation (`native/shader.cpp`, `maskNodes`). At every point of a compilation marked nodes and
the nodes that tell which lanes are active are all zero or all ones. So wherever a comparison with zero is dropped,
or a select is turned into a bit operation, the node is a mask. -/

namespace Pi5Drivers.Compiler

open Abi Compile Tracked

variable {settings : Settings} {word : ℕ × UWord → UWord} {s t : State} {a b m : ℕ}

/-! ### Loops -/

/-- The lanes a loop was entered with are told by a mask. -/
def LoopMasks (word : ℕ × UWord → UWord) (s : State) (loops : List Loop) : Prop := ∀ loop ∈ loops, LaneMask word s loop.mask

theorem LoopMasks.mono {loops : List Loop} (h : LoopMasks word s loops) (ext : Later False s t) : LoopMasks word t loops :=
  fun loop mem => (h loop mem).mono ext

theorem LoopMasks.tail {loop : Loop} {loops : List Loop} (h : LoopMasks word s (loop :: loops)) : LoopMasks word s loops :=
  fun inner mem => h inner (List.mem_cons_of_mem _ mem)

theorem LoopMasks.cons {loop : Loop} {loops : List Loop} (h : LaneMask word s loop.mask) (hs : LoopMasks word s loops) :
    LoopMasks word s (loop :: loops) := by
  intro inner mem
  obtain rfl | mem := List.mem_cons.mp mem
  · exact h
  · exact hs inner mem

theorem maskHolds_steps : Steps word (maskHolds settings) := by
  refine Steps.get fun _ => ?_
  split
  · exact Steps.pure
  · exact (value_steps _).bind fun _ => Steps.pure

theorem beginLoop_masks {token : UWord} {length next exit : ℕ} {loops : List Loop} (h : LoopMasks word s loops) :
    Builds False word s (beginLoop settings token length next exit loops) fun r t => LoopMasks word t r.2 := by
  refine Advances.given fun sound => Advances.get_bind (Builds.need_bind fun _ => Builds.need_bind fun _ => ?_)
  refine Builds.bind (Q := fun _ _ => True) (Steps.change (fun _ => ?_) s) fun _ t ext _ => ?_
  · rfl
  refine Builds.bind (maskHolds_steps t) fun holds u ext' _ => ?_
  have still := h.mono (ext.trans ext')
  exact Advances.ite (fun _ => Builds.pure (still.cons (sound.active.mono (ext.trans ext')))) fun _ => Builds.pure still

theorem endLoop_masks {token : UWord} {length : ℕ} {loops : List Loop} (h : LoopMasks word s loops) :
    Builds False word s (endLoop token length loops) fun r t => LoopMasks word t r.2 := by
  refine Advances.get_bind ?_
  cases loops with
  | nil => exact Builds.fail
  | cons loop loops =>
    exact Builds.need_bind fun _ => Builds.need_bind fun _ => Builds.pure (h.tail.cons (h loop List.mem_cons_self))

theorem breakCondition_steps (op : ℕ) (token : UWord) : Steps word (breakCondition settings op token) := by
  refine Steps.ite (fun _ => (operand_steps false).bind fun o s => ?_) fun _ => Steps.pure
  refine Builds.bind ((read_gives o 0 true).node s) fun n t _ lt => Builds.bind (nonZero_mask lt) fun v u _ _ => ?_
  exact Steps.get (fun _ => Steps.need.bind fun _ => (value_steps v).bind fun _ => Steps.pure) u

theorem breakLoop_masks {op : ℕ} {token : UWord} {next : ℕ} {loops : List Loop} (h : LoopMasks word s loops) :
    Builds False word s (breakLoop settings op token next loops) fun r t => LoopMasks word t r.2 := by
  cases loops with
  | nil => exact Builds.fail
  | cons loop outer =>
    refine Builds.need_bind fun _ => Builds.bind (breakCondition_steps op token s) fun condition t ext _ => ?_
    have stay {u : State} (ext : Later False s u) : Builds False word u (pure (next, loop :: outer) : Compile (ℕ × List Loop)) fun r v =>
        LoopMasks word v r.2 := Builds.pure (h.mono ext)
    refine Advances.ite (fun _ => Advances.get_bind (Builds.need_bind fun _ => ?_)) fun _ => stay ext
    refine Builds.bind (maskHolds_steps t) fun holds u ext' _ => ?_
    have later := h.mono (ext.trans ext')
    refine Advances.ite (fun _ => ?_) fun _ => stay (ext.trans ext')
    refine Builds.bind (Q := fun _ v => Later False u v) (Builds.change (fun sound => ?_) (later_lanes u _ _ _)
      (later_lanes u _ _ _)) fun _ v ext'' _ => Builds.pure (later.tail.mono ext'')
    exact sound.lanes_change (later loop List.mem_cons_self) sound.returned fun branch mem => sound.branch branch (List.mem_of_mem_drop mem)

theorem follow_masks {ends : ℕ → ℕ} {start : ℕ} {token : UWord} {loops : List Loop} (h : LoopMasks word s loops) :
    Builds False word s (follow settings ends start token loops) fun r t => LoopMasks word t r.2 := by
  refine Advances.ite (fun _ => beginLoop_masks h) fun _ => Advances.ite (fun _ => endLoop_masks h) fun _ =>
    Advances.ite (fun _ => breakLoop_masks h) fun _ => Builds.need_bind fun _ => ?_
  exact Builds.bind (instruction_steps token s) fun _ t ext _ => Builds.pure (h.mono ext)

/-- Whatever is followed, and however far. -/
theorem followAll_steps {tokens : List UWord} {ends : ℕ → ℕ} (remaining start : ℕ) {loops : List Loop} (h : LoopMasks word s loops) :
    Builds False word s (followAll settings tokens ends remaining start loops) fun _ _ => True := by
  induction remaining generalizing s start loops with
  | zero =>
    rw [followAll]
    exact Advances.ite (fun _ => Builds.pure trivial) fun _ => Builds.need_bind fun _ => Builds.fail
  | succ remaining ih =>
    rw [followAll]
    refine Advances.ite (fun _ => Builds.pure trivial) fun _ => Builds.need_bind fun _ => ?_
    refine Builds.bind (Q := fun _ _ => True) (Steps.change (fun _ => ?_) s) fun _ t ext _ => ?_
    · rfl
    refine Builds.bind (Advances.mapFailure (follow_masks (h.mono ext))) fun r u _ masks => ?_
    exact Advances.get_bind (Builds.need_bind fun _ => ih r.1 masks)

/-! ### What the pipeline adds -/

theorem literal_steps (x : UWord) : Steps word (literal x) := (literal_gives x).steps

theorem uniformNode_steps (kind : UniformKind) (value : UWord) : Steps word (uniformNode kind value) :=
  (uniformNode_gives kind value 0).steps

theorem binary_steps (op : Op) (a b : ℕ) : Steps word (binary settings op a b) := (binary_gives op a b true).steps

theorem saturate_steps (v : ℕ) : Steps word (saturate settings v) := (saturate_gives v).steps

theorem invert_steps (v : ℕ) : Steps word (invert settings v) :=
  (literal_steps _).bind fun _ => (literal_steps _).bind fun _ => (binary_steps _ _ _).bind fun _ => binary_steps _ _ _

theorem blendFactor_steps (second : Register) (source destination : Fin 4 → ℕ) (factor : ℕ) (c : Fin 4) :
    Steps word (blendFactor settings second source destination factor c) := by
  have saturated (v : ℕ) (inverse : Prop) [Decidable inverse] : Steps word (do
      let v ← saturate settings v
      if inverse then invert settings v else return v) :=
    (saturate_steps v).bind fun v => Steps.ite (fun _ => invert_steps v) fun _ => Steps.pure
  unfold blendFactor
  split
  case h_11 =>
    exact Steps.ite (fun _ => literal_steps _) fun _ => (invert_steps _).bind fun _ => binary_steps _ _ _
  all_goals first
    | exact literal_steps _
    | exact Steps.pure
    | exact invert_steps _
    | exact (uniformNode_steps _ _).bind fun v => saturated v _
    | exact Steps.fail
    | skip
  all_goals
    split
    · exact Steps.fail
    · exact saturated _ _

theorem blendComponent_steps (blend : ShaderBlend) (second : Register) (source destination : Fin 4 → ℕ) (c : Fin 4) :
    Steps word (blendComponent settings blend second source destination c) := by
  refine Steps.need.bind fun _ => Steps.ite (fun _ => binary_steps _ _ _) fun _ => ?_
  refine (blendFactor_steps _ _ _ _ _).bind fun _ => (binary_steps _ _ _).bind fun _ =>
    (blendFactor_steps _ _ _ _ _).bind fun _ => (binary_steps _ _ _).bind fun _ => ?_
  have add (a b : ℕ) : Steps word (binary settings .add a b) := binary_steps _ _ _
  have first (a b : ℕ) : Steps word (if blend.functions ((if c = 3 then 3 else 0) + 2) = 3 then do
      let l ← literal 0x80000000#32
      let a ← binary settings .xor a l
      binary settings .add a b
    else do
      let a ← Pure.pure a
      binary settings .add a b) :=
    Steps.ite (fun _ => (literal_steps _).bind fun _ => (binary_steps _ _ _).bind fun a => add a b) fun _ =>
      Steps.pure.bind fun a => add a b
  exact Steps.ite (fun _ => (literal_steps _).bind fun _ => (binary_steps _ _ _).bind fun b => first _ b) fun _ =>
    Steps.pure.bind fun b => first _ b

theorem blendOperands_steps (output : Fin 4 → ℕ) (c : Fin 4) : Steps word (blendOperands settings output c) :=
  (saturate_steps _).bind fun _ => (uniformNode_steps _ _).bind fun _ => Steps.pure

theorem components_steps {mask : BitVec 4} {f : Fin 4 → Compile ℕ} (h : ∀ c, Steps word (f c)) : Steps word (components mask f) :=
  fun _ => (components_builds (P := fun _ _ _ => True) (fun _ _ _ _ _ _ => trivial) fun c _ t _ => h c t).weaken
    fun _ _ _ _ _ => trivial

theorem blended_steps (blend : ShaderBlend) (output : Fin 4 → ℕ) (second : Register) :
    Steps word (blended settings blend output second) := by
  refine (blendOperands_steps _ _).bind fun _ => (blendOperands_steps _ _).bind fun _ => (blendOperands_steps _ _).bind fun _ =>
    (blendOperands_steps _ _).bind fun _ => ?_
  exact Steps.join (literal_steps _) Steps.pure fun _ => components_steps fun c => blendComponent_steps _ _ _ _ c

theorem pixelRoots_steps (output : Fin 4 → ℕ) : Steps word (pixelRoots settings output) := by
  unfold pixelRoots
  split
  · exact Steps.pure
  · exact Steps.ite (fun _ => Steps.pure) fun _ => Steps.get fun _ => (blended_steps _ _ _).bind fun _ => Steps.pure

theorem projected_steps (output : Fin 4 → ℕ) (reciprocal : ℕ) (c : Fin 4) : Steps word (projected settings output reciprocal c) :=
  (uniformNode_steps _ _).bind fun _ => (binary_steps _ _ _).bind fun _ => (binary_steps _ _ _).bind fun _ => binary_steps _ _ _

theorem varyingRoots_steps (positionOutput reg : ℕ) : Steps word (varyingRoots settings positionOutput reg) :=
  Steps.get fun _ => Steps.need.bind fun _ => Steps.need.bind fun _ => Steps.need.bind fun _ => Steps.pure

theorem allVaryingRoots_steps (positionOutput : ℕ) (regs : List ℕ) : Steps word (allVaryingRoots settings positionOutput regs) := by
  induction regs with
  | nil => exact Steps.pure
  | cons reg regs ih => exact (varyingRoots_steps _ _).bind fun _ => ih.bind fun _ => Steps.pure

theorem vertexRoots_steps (positionOutput : ℕ) (output : Fin 4 → ℕ) : Steps word (vertexRoots settings positionOutput output) :=
  (binary_steps _ _ _).bind fun _ => (projected_steps _ _ _).bind fun _ => (projected_steps _ _ _).bind fun _ =>
    Steps.ite (fun _ => Steps.pure) fun _ => (uniformNode_steps _ _).bind fun _ => (binary_steps _ _ _).bind fun _ =>
      (binary_steps _ _ _).bind fun _ => (uniformNode_steps _ _).bind fun _ => (binary_steps _ _ _).bind fun _ =>
        (allVaryingRoots_steps _ _).bind fun _ => Steps.pure

theorem complete_steps (output : Register) : Steps word (complete output) := Steps.need.bind fun _ => Steps.pure

theorem selectRoots_steps : Steps word (selectRoots settings) := by
  refine Steps.get fun s => ?_
  dsimp only
  split
  · exact Steps.fail
  · rename_i selected _
    have finish (r : List ℕ × ℕ) : Steps word (do
        Compile.need (r.2 ≤ maxVaryings) "varying scalar limit exceeded"
        change fun s => { s with roots := r.1, varyingScalars := r.2 }) :=
      Steps.need.bind fun _ => Steps.change fun _ => rfl
    refine Steps.need.bind fun _ => (complete_steps _).bind fun output => Steps.ite (fun _ => ?_) fun _ => ?_
    · exact (pixelRoots_steps output).bind fun roots => Steps.pure.bind fun r => finish r
    · exact (vertexRoots_steps selected output).bind fun r => finish r

theorem emit_steps : Steps word (emit settings) := by
  refine Steps.get fun s => ?_
  split
  · exact Steps.fail
  · exact Steps.need.bind fun _ => Steps.need.bind fun _ => Steps.pure

/-! ### Compilations -/

theorem run_steps (tokens : List UWord) : Steps word (run settings tokens) := by
  refine Steps.bind (Steps.change fun _ => rfl) fun _ => take_steps.bind fun _ => Steps.need.bind fun _ => take_steps.bind fun _ =>
    Steps.need.bind fun _ => ?_
  split
  · exact Steps.fail
  · refine Steps.bind (fun s => followAll_steps _ _ ?_) fun _ => selectRoots_steps.bind fun _ => emit_steps
    exact fun _ none => absurd none List.not_mem_nil

/-- The states that a compilation of tokens passes through, also where it fails. -/
def points (settings : Settings) (word : ℕ × UWord → UWord) (tokens : List UWord) : List State :=
  .initial :: (run settings tokens).states word .initial

/-- Where it ends. -/
def outcome (settings : Settings) (word : ℕ × UWord → UWord) (tokens : List UWord) : State :=
  ((run settings tokens).run word .initial).2

theorem outcome_mem (settings : Settings) (word : ℕ × UWord → UWord) (tokens : List UWord) :
    outcome settings word tokens ∈ points settings word tokens := Tracked.run_mem _ _ _

theorem points_sound {tokens : List UWord} (h : s ∈ points settings word tokens) :
    Sound word s ∧ Later False s (outcome settings word tokens) := by
  have steps : Builds False word .initial (run settings tokens) fun _ _ => True := run_steps tokens .initial
  obtain ⟨along, -, ext, -⟩ := steps sound_initial
  obtain rfl | later := List.mem_cons.mp h
  · exact ⟨sound_initial, ext⟩
  · exact ⟨(along s later).1, (along s later).2.2⟩

/-- A select with one of two masks made for it. -/
theorem select_made {x : Compile ℕ} {p : Inputs → Prop} [∀ inputs, Decidable (p inputs)] (ha : a < s.nodes.length)
    (hb : b < s.nodes.length) (made : Builds True word s x fun r t => Has word t r fun inputs => boolean (p inputs)) :
    Builds True word s (do select settings (← x) a b) fun r t =>
      Has word t r fun inputs => if p inputs then s.word inputs a else s.word inputs b := by
  refine Builds.bind made fun m t ext has => ?_
  refine (select_has has ((has_self ha).mono ext) ((has_self hb).mono ext) fun _ _ => mask_boolean _).weaken
    fun r u _ _ result => result.congr fun inputs _ => ?_
  simp only [choose, boolean_ne_zero]

/-- **Marked nodes are masks.** At every point of the compilation of any tokens, marked nodes and the nodes that tell
lanes apart are all zero or all ones for all inputs; they stay marked with their words. A test of a node for not
being zero is exact, and so are selects by the masks of the lanes, by such a test and by a comparison of indices. -/
theorem marking_sound (settings : Settings) (word : ℕ × UWord → UWord) (tokens : List UWord) :
    ∀ s ∈ points settings word tokens,
      (∀ m, s.maskNodes m = true ∨ s.Lanes m → m < s.nodes.length ∧ ∀ inputs, Agrees word inputs s → Mask (s.word inputs m)) ∧
      (∀ m, s.maskNodes m = true → (outcome settings word tokens).maskNodes m = true ∧
        ∀ inputs, (outcome settings word tokens).word inputs m = s.word inputs m) ∧
      (∀ x < s.nodes.length, Computes word s (nonZero settings x) fun inputs => boolean (s.word inputs x ≠ 0)) ∧
      ∀ a < s.nodes.length, ∀ b < s.nodes.length,
        (∀ m, s.maskNodes m = true ∨ s.Lanes m → Computes word s (select settings m a b) fun inputs =>
          if s.word inputs m ≠ 0 then s.word inputs a else s.word inputs b) ∧
        (∀ x < s.nodes.length, Computes word s (do select settings (← nonZero settings x) a b) fun inputs =>
          if s.word inputs x ≠ 0 then s.word inputs a else s.word inputs b) ∧
        ∀ i < s.nodes.length, ∀ j < s.nodes.length, Computes word s (do select settings (← ieq settings i j) a b) fun inputs =>
          if s.word inputs i = s.word inputs j then s.word inputs a else s.word inputs b := by
  intro s point
  obtain ⟨sound, ext⟩ := points_sound point
  have mask (m : ℕ) (h : s.maskNodes m = true ∨ s.Lanes m) : MaskNode word s m := h.elim (sound.marked m) (sound.lanes m)
  refine ⟨mask, fun m marked => ⟨ext.masks m marked, fun inputs => ext.word_eq (sound.marked m marked).1⟩, fun x hx => ?_,
    fun a ha b hb => ⟨fun m h => ?_, fun x hx => ?_, fun i hi j hj => ?_⟩⟩
  · exact Builds.computes sound (nonZero_has (has_self hx))
  · exact Builds.computes sound (select_has (mask m h).has (has_self ha) (has_self hb) (mask m h).2)
  · exact Builds.computes sound (select_made ha hb (nonZero_has (has_self hx)))
  · exact Builds.computes sound (select_made ha hb (ieq_has (has_self hi) (has_self hj)))

/-- `dcl_input_ps constant v0.xy`, `dcl_output o0`, `ult o0, v0.x, v0.y`, `ret`. -/
def lessThan : List UWord :=
  [0x40, 16, 0x03000862, 0x00101032, 0, 0x03000065, 0x001020f2, 0, 0x0700004f, 0x001020f2, 0, 0x00101006, 0, 0x00101556, 0, 0x0100003e]

/-- The lanes get the numbers of their varyings, and one more. -/
def numbered : Inputs where
  constant := fun _ => 0
  word := fun u => u.value + 1
  texel := fun _ _ _ _ => 0
  float := fun _ _ _ => 0

set_option maxRecDepth 20000 in
/-- The third node of the program is its comparison, and a mask. -/
theorem lessThan_marked : Mask ((outcome ⟨.pixel, none, false, none, 64⟩ (fun _ => 0) lessThan).word numbered 2) := by
  have marked : (outcome ⟨.pixel, none, false, none, 64⟩ (fun _ => 0) lessThan).maskNodes 2 = true := by decide +kernel
  have alone : (outcome ⟨.pixel, none, false, none, 64⟩ (fun _ => 0) lessThan).specialized = [] := by decide +kernel
  refine ((marking_sound _ _ lessThan _ (outcome_mem _ _ _)).1 2 (.inl marked)).2 numbered fun k mem => ?_
  rw [State.reliedOn, alone] at mem
  obtain ⟨u, mem, -⟩ := mem
  exact absurd mem List.not_mem_nil

end Pi5Drivers.Compiler
