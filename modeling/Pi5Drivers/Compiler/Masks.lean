import Pi5Drivers.Compiler.Comparisons
import Pi5Drivers.Compiler.Indexing

/-! Instructions keep what a compilation keeps (`native/shader.cpp`, `Read`, `Store` and `Instruction`). Marked nodes
and the nodes that tell which lanes are active stay all zero or all ones, and registers name nodes of the graph. -/

namespace Pi5Drivers.Compiler

open Abi Compile Tracked

variable {settings : Settings} {q : Prop} {word : ℕ × UWord → UWord} {s t : State} {a b m : ℕ}

/-! ### Steps -/

/-- From any state what a compilation keeps is kept. -/
def Steps {α : Type} (word : ℕ × UWord → UWord) (x : Compile α) : Prop := ∀ s, Builds False word s x fun _ _ => True

theorem Gives.steps {x : Compile ℕ} (h : Gives word x) : Steps word x := fun s => (h.node s).weaken fun _ _ _ _ _ => trivial

/-- What is kept, without the rest of the state. -/
def State.core (s : State) : State :=
  { State.initial with
    nodes := s.nodes, maskNodes := s.maskNodes, expressions := s.expressions, specialized := s.specialized
    temps := s.temps, indexable := s.indexable, outputs := s.outputs, constantSizes := s.constantSizes
    constantSlot := s.constantSlot, constantWords := s.constantWords, lookups := s.lookups
    activeMask := s.activeMask, returnedMask := s.returnedMask, branches := s.branches }

theorem sound_core : Sound word s.core ↔ Sound word s := ⟨fun h => { h with }, fun h => { h with }⟩

theorem later_core (same : t.core = s.core) : Later False s t := by
  have ext : Later False s.core t.core := by
    rw [same]
    exact Later.refl _
  exact { ext with frame := fun no => no.elim }

namespace Steps

variable {α β : Type} {x y : Compile α} {f : α → Compile β}

theorem pure {a : α} : Steps word (Pure.pure a : Compile α) := fun _ => Builds.pure trivial

theorem fail {message : String} : Steps word (Tracked.fail message : Compile α) := fun _ => Builds.fail

theorem bind (hx : Steps word x) (hf : ∀ a, Steps word (f a)) : Steps word (x >>= f) :=
  fun s => Builds.bind (hx s) fun a t _ _ => hf a t

theorem get {f : State → Compile β} (hf : ∀ s, Steps word (f s)) : Steps word ((Tracked.get : Compile State) >>= f) :=
  fun s => Advances.get_bind (hf s s)

theorem ite {c : Prop} [Decidable c] (hx : c → Steps word x) (hy : ¬c → Steps word y) : Steps word (if c then x else y) :=
  fun s => Advances.ite (fun h => hx h s) fun h => hy h s

/-- Two ways to a value, and what follows both. -/
theorem join {c : Prop} [Decidable c] (hx : Steps word x) (hy : Steps word y) (hf : ∀ a, Steps word (f a)) :
    Steps word (if c then x >>= f else y >>= f) := ite (fun _ => hx.bind hf) fun _ => hy.bind hf

theorem need {condition : Prop} [Decidable condition] {message : String} : Steps word (Compile.need condition message) :=
  fun _ => Builds.need fun _ => trivial

/-- A step that changes nothing of what is kept. -/
theorem change {g : State → State} {h : ∀ s, (g s).specialized = s.specialized} (same : ∀ s, (g s).core = s.core) :
    Steps word (Compile.change g h) :=
  fun s => Builds.change (fun sound => sound_core.mp (same s ▸ sound_core.mpr sound)) (later_core (same s)) trivial

end Steps

theorem literal_gives (x : UWord) : Gives word (literal x) := fun _ => (literal_has x).weaken fun _ _ _ _ has => has.lt

theorem uniformNode_gives (kind : UniformKind) (value : UWord) (slot : ℕ) : Gives word (uniformNode kind value slot) :=
  fun _ => (uniformNode_has kind value slot).weaken fun _ _ _ _ has => has.lt

theorem binary_gives (op : Op) (a b : ℕ) (fold : Bool) : Gives word (binary settings op a b fold) :=
  fun _ => (binary_has op a b fold).weaken fun _ _ _ _ result => result.2.2.1

theorem value_steps (node : ℕ) : Steps word (value settings node) :=
  fun _ => (value_has node).weaken fun _ _ _ _ _ => trivial

theorem read_steps {α : Type} (reader : Reader α) : Steps word (Compile.read reader) := by
  refine Steps.get fun s => ?_
  split
  · exact Steps.fail
  · exact Steps.bind (Steps.change fun _ => rfl) fun _ => Steps.pure

theorem take_steps : Steps word take := read_steps _

theorem operand_steps (destination : Bool) : Steps word (operand destination) := read_steps _

theorem binding_steps (resource : ℕ) (sampler : Option ℕ) : Steps word (binding resource sampler) := by
  refine Steps.get fun s => ?_
  split
  · exact Steps.pure
  · exact Steps.need.bind fun _ => Steps.bind (Steps.change fun _ => rfl) fun _ => Steps.pure

/-! ### Masks -/

theorem MaskNode.has (h : MaskNode word s m) : Has word s m fun inputs => s.word inputs m := has_self h.1

theorem Has.maskNode {x : Inputs → UWord} (h : Has word s m x) (masks : ∀ inputs, Agrees word inputs s → Mask (x inputs)) :
    MaskNode word s m := ⟨h.lt, fun inputs agrees => (h.word inputs agrees).symm ▸ masks inputs agrees⟩

theorem literal_mask {x : UWord} (h : Mask x) : Builds q word s (literal x) fun r t => MaskNode word t r :=
  (literal_has x).weaken fun _ _ _ _ has => has.maskNode fun _ _ => h

theorem nonZero_mask (h : a < s.nodes.length) : Builds q word s (nonZero settings a) fun r t => MaskNode word t r :=
  (nonZero_has (has_self h)).weaken fun _ _ _ _ has => has.maskNode fun _ _ => mask_boolean _

theorem not_mask (h : MaskNode word s m) : Builds q word s (not settings m) fun r t => MaskNode word t r :=
  (not_has h.has h.2).weaken fun _ _ _ ext has => has.maskNode fun inputs agrees => (h.2 inputs (agrees.mono ext)).not

theorem andMask_mask (ha : MaskNode word s a) (hb : MaskNode word s b) :
    Builds q word s (andMask settings a b) fun r t => MaskNode word t r :=
  (andMask_has ha.has hb.has ha.2 hb.2).weaken fun _ _ _ ext has =>
    has.maskNode fun inputs agrees => (ha.2 inputs (agrees.mono ext)).and (hb.2 inputs (agrees.mono ext))

theorem or_mask (ha : MaskNode word s a) (hb : MaskNode word s b) :
    Builds q word s (binary settings .or a b) fun r t => MaskNode word t r :=
  (binary_kept (by decide) ha.has hb.has true).weaken fun _ _ _ ext has =>
    has.maskNode fun inputs agrees => (ha.2 inputs (agrees.mono ext)).or (hb.2 inputs (agrees.mono ext))

theorem select_inside {condition : ℕ} (hc : MaskNode word s condition) (ha : a < s.nodes.length) (hb : b < s.nodes.length) :
    Builds q word s (select settings condition a b) fun r t => r < t.nodes.length :=
  (select_has hc.has (has_self ha) (has_self hb) hc.2).weaken fun _ _ _ _ has => has.lt

/-! ### Sources -/

theorem readInput_gives (o : Operand) (c : Fin 4) : Gives word (readInput settings o c) := by
  intro s
  refine Advances.get_bind (Builds.need_bind fun _ => Builds.need_bind fun _ => Advances.ite (fun _ => ?_) fun _ => ?_)
  · exact Builds.need_bind fun _ => (uniformNode_gives _ _ _).node s
  · exact Builds.need_bind fun _ => (uniformNode_gives _ _ _).node s

theorem readIndexable_inside {o : Operand} {relative : Option (Compile ℕ)} {c : Fin 4} (h : RelativeGives word relative) :
    Builds True word s (readIndexable settings o relative c) fun r t => ∀ node, r = some node → node < t.nodes.length :=
  (readIndexable_has h).weaken fun _ _ _ _ element node same => (element node same).choose_spec.2.has.lt

theorem readConstant_gives {o : Operand} {relative : Option (Compile ℕ)} {c : Fin 4} (h : RelativeGives word relative) :
    Gives word (readConstant settings o relative c) := by
  refine fun s => (readConstant_has h).weaken fun r t _ _ constant => ?_
  obtain ⟨g, -, element | ⟨-, values, group, rfl, looksUp⟩⟩ := constant
  · exact element.lt
  · exact (looksUp.delivers 0).lt

theorem modified_inside {o : Operand} {v : ℕ} {integer : Bool} (h : v < s.nodes.length) :
    Builds q word s (modified settings o v integer) fun r t => r < t.nodes.length := by
  unfold modified
  refine Advances.ite (fun _ => Builds.need_bind fun _ => Advances.ite (fun _ => ?_) fun _ => Builds.pure h) fun _ => ?_
  · exact Builds.bind ((literal_gives _).node s) fun _ t _ _ => (binary_gives _ _ _ _).node t
  · have sign {v : ℕ} {u : State} (lt : v < u.nodes.length) : Builds q word u (if o.modifier % 2 = 1 then do
        binary settings .xor v (← literal 0x80000000#32) false else return v) fun r t => r < t.nodes.length :=
      Advances.ite (fun _ => Builds.bind ((literal_gives _).node u) fun _ t _ _ => (binary_gives _ _ _ _).node t) fun _ => Builds.pure lt
    refine Advances.ite (fun _ => ?_) fun _ => ?_
    · refine Builds.bind ((literal_gives _).node s) fun l t _ _ => Builds.bind ((binary_gives _ _ _ _).node t) fun v u _ lt => sign lt
    · exact Builds.bind (Builds.pure h) fun v u _ lt => sign lt

theorem map_some {x : Compile ℕ} {Q : ℕ → State → Prop} (h : Builds q word s x Q) :
    Builds q word s (some <$> x) fun r t => ∃ node, r = some node ∧ Q node t :=
  Builds.bind h fun node _ _ holds => Builds.pure ⟨node, rfl, holds⟩

theorem some_inside {x : Compile ℕ} (h : Gives word x) :
    Builds q word s (some <$> x) fun r t => ∀ node, r = some node → node < t.nodes.length := by
  refine (map_some (h.node s)).weaken fun r t _ _ given node same => ?_
  obtain ⟨node', rfl, lt⟩ := given
  obtain rfl := Option.some.inj same
  exact lt

/-- A value that was read is modified, if there is one. -/
theorem modified_some {o : Operand} {integer : Bool} {v : Option ℕ} {t : State} (inside : ∀ node, v = some node → node < t.nodes.length) :
    Builds True word t (match v with
      | none => .fail "read of uninitialized temporary register"
      | some v => modified settings o v integer) fun r u => r < u.nodes.length := by
  cases v with
  | none => exact Builds.fail
  | some v => exact modified_inside (inside v rfl)

theorem readWith_gives {o : Operand} {relative : Option (Compile ℕ)} {lane : Fin 4} {integer : Bool}
    (h : RelativeGives word relative) : Gives word (readWith settings o relative lane integer) := by
  intro s
  refine Advances.given fun sound => Builds.need_bind fun _ => Advances.get_bind ?_
  refine Advances.ite (fun _ => Builds.need_bind fun fits => ?_) fun _ => ?_
  · refine Builds.bind (Builds.pure (Q := fun r t => ∀ node, r = some node → node < t.nodes.length) fun node at_ => ?_)
      fun v t _ inside => modified_some inside
    refine sound.registers node (.inl ⟨_, List.getElem_mem fits.2, o.swizzle lane, ?_⟩)
    rwa [List.getD_eq_getElem _ _ fits.2] at at_
  refine Advances.ite (fun _ => Builds.bind (readIndexable_inside h) fun v t _ inside => modified_some inside) fun _ => ?_
  refine Advances.ite (fun _ => Builds.bind (some_inside (readInput_gives o _)) fun v t _ inside => modified_some inside) fun _ => ?_
  refine Advances.ite (fun _ => Builds.bind (some_inside (literal_gives _)) fun v t _ inside => modified_some inside) fun _ => ?_
  refine Advances.ite (fun _ => Builds.bind (some_inside (readConstant_gives h)) fun v t _ inside => modified_some inside) fun _ => ?_
  exact Builds.bind Builds.fail fun v t _ inside => modified_some inside

/-- The relative indices of an operand are read in turn. -/
theorem read_gives : (o : Operand) → (lane : Fin 4) → (integer : Bool) → Gives word (read settings o lane integer)
  | ⟨type, dimensions, index0, index1, value, swizzle, mask, modifier, relative0, none⟩, lane, integer => by
    rw [read]
    exact readWith_gives fun x no => nomatch no
  | ⟨type, dimensions, index0, index1, value, swizzle, mask, modifier, relative0, some relative⟩, lane, integer => by
    rw [read]
    refine readWith_gives fun x same => ?_
    obtain rfl := Option.some.inj same
    exact read_gives relative 0 true

/-! ### Destinations -/

theorem destination_inside (sound : Sound word s) {o : Operand} {c : Fin 4} {node : ℕ} (at_ : s.destination o c = some node) :
    node < s.nodes.length := by
  have getD {list : List Register} {k : ℕ} (at_ : list.getD k .missing c = some node) :
      ∃ register ∈ list, register c = some node := by
    rw [List.getD_eq_getElem?_getD] at at_
    rcases found : list[k]? with _ | register
    · rw [found] at at_
      exact nomatch at_
    · rw [found] at at_
      exact ⟨register, List.mem_of_getElem? found, at_⟩
  refine sound.registers node ?_
  unfold State.destination at at_
  split_ifs at at_
  · obtain ⟨register, mem, named⟩ := getD at_
    exact .inl ⟨register, mem, c, named⟩
  · obtain ⟨register, mem, named⟩ := getD at_
    exact .inr (.inl ⟨_, register, mem, c, named⟩)
  · exact .inr (.inr ⟨_, c, at_⟩)

theorem Sound.assign (sound : Sound word s) (o : Operand) (c : Fin 4) {v : ℕ} (lt : v < s.nodes.length) :
    Sound word (s.assign o c v) := by
  have updated {c' : Fin 4} {i : ℕ} (at_ : Function.update (s.destination o) c (some v) c' = some i) : i < s.nodes.length := by
    rw [Function.update_apply] at at_
    split at at_
    · exact Option.some.inj at_ ▸ lt
    · exact destination_inside sound at_
  unfold State.assign
  split_ifs
  · refine { sound with registers := fun i named => ?_ }
    obtain ⟨register, mem, c', at_⟩ | other := named
    · obtain old | rfl := List.mem_or_eq_of_mem_set mem
      · exact sound.registers i (.inl ⟨register, old, c', at_⟩)
      · exact updated at_
    · exact sound.registers i (.inr other)
  · refine { sound with registers := fun i named => ?_, arrays := fun k => ?_ }
    · obtain temp | ⟨k, register, mem, c', at_⟩ | output := named
      · exact sound.registers i (.inl temp)
      · dsimp only at mem
        rw [Function.update_apply] at mem
        split at mem
        · obtain old | rfl := List.mem_or_eq_of_mem_set mem
          · exact sound.registers i (.inr (.inl ⟨_, register, old, c', at_⟩))
          · exact updated at_
        · exact sound.registers i (.inr (.inl ⟨k, register, mem, c', at_⟩))
      · exact sound.registers i (.inr (.inr output))
    · dsimp only
      rw [Function.update_apply]
      split
      · rw [List.length_set]
        exact sound.arrays o.index0
      · exact sound.arrays k
  · refine { sound with registers := fun i named => ?_ }
    obtain temp | array | ⟨k, c', at_⟩ := named
    · exact sound.registers i (.inl temp)
    · exact sound.registers i (.inr (.inl array))
    · dsimp only at at_
      rw [Function.update_apply] at at_
      split at at_
      · exact updated at_
      · exact sound.registers i (.inr (.inr ⟨k, c', at_⟩))

theorem later_assign (s : State) (o : Operand) (c : Fin 4) (v : ℕ) : Later False s (s.assign o c v) := by
  unfold State.assign
  split_ifs <;> exact { Later.refl (q := False) s with frame := fun no => no.elim }

theorem storeComponent_steps {o : Operand} {v : ℕ} {c : Fin 4} (lt : v < s.nodes.length) :
    Builds False word s (storeComponent settings o v c) fun _ _ => True := by
  have finish {v : ℕ} {t : State} (lt : v < t.nodes.length) :
      Builds False word t (change (·.assign o c v) (assign_specialized o c v)) fun _ _ => True :=
    Builds.change (fun sound => sound.assign o c lt) (later_assign t o c v) trivial
  refine Advances.given fun sound => Advances.get_bind ?_
  split
  · exact Builds.bind (Builds.pure lt) fun v t _ lt => finish lt
  · rename_i active at_
    have mask := sound.lanes active (.inl at_)
    have chosen {old : ℕ} {t : State} (ext : Later False s t) (inside : old < t.nodes.length) : Builds False word t (do
        let v ← select settings active v old
        change (·.assign o c v) (assign_specialized o c v)) fun _ _ => True :=
      Builds.bind (select_inside (mask.mono ext) (lt.trans_le ext.length_le) inside) fun v u _ lt => finish lt
    split
    · exact Builds.bind ((literal_gives _).node s) fun old t ext inside => chosen ext inside
    · rename_i old named
      exact Builds.bind (Builds.pure (destination_inside sound named)) fun old t ext inside => chosen ext inside

/-- Components are visited in turn. -/
theorem forComponents_steps {mask : BitVec 4} {f : Fin 4 → Compile Unit}
    (h : ∀ c : Fin 4, mask.getLsbD c = true → ∀ t, Later False s t → Builds False word t (f c) fun _ _ => True) :
    Builds False word s (forComponents mask f) fun _ _ => True := by
  have list (l : List (Fin 4)) (t : State) (ext : Later False s t) :
      Builds False word t (l.forM fun c => if mask.getLsbD c then f c else pure ()) fun _ _ => True := by
    induction l generalizing t with
    | nil => exact Builds.pure trivial
    | cons c l ih =>
      refine Builds.bind (Advances.ite (fun on => h c on t ext) fun _ => Builds.pure trivial) fun _ u ext' _ => ?_
      exact ih u (ext.trans ext')
  exact list _ s (Later.refl s)

theorem store_steps {o : Operand} {values : Fin 4 → ℕ} (h : ∀ c : Fin 4, o.mask.getLsbD c = true → values c < s.nodes.length) :
    Builds False word s (store settings o values) fun _ _ => True := by
  have finish : Builds False word s (forComponents o.mask fun c => storeComponent settings o (values c) c) fun _ _ => True :=
    forComponents_steps fun c on t ext => storeComponent_steps ((h c on).trans_le ext.length_le)
  refine Advances.get_bind (Builds.need_bind fun _ => Advances.ite (fun _ => ?_) fun _ => Advances.ite (fun _ => ?_) fun _ => ?_)
  · exact Builds.need_bind fun _ => finish
  · exact Builds.need_bind fun _ => Builds.need_bind fun _ => finish
  · exact Builds.need_bind fun _ => finish

/-! ### Declarations -/

theorem declareTemps_steps : Steps word declareTemps := by
  refine Steps.get fun s => Steps.need.bind fun _ => take_steps.bind fun count => Steps.need.bind fun _ s => ?_
  refine Builds.change (fun sound => { sound with registers := fun i named => ?_ })
    { Later.refl (q := False) s with frame := fun no => no.elim } trivial
  obtain ⟨register, mem, c, at_⟩ | other := named
  · obtain rfl := List.eq_of_mem_replicate mem
    exact nomatch at_
  · exact sound.registers i (.inr other)

theorem declareIndexable_steps (token : UWord) : Steps word (declareIndexable token) := by
  refine take_steps.bind fun id => take_steps.bind fun count => take_steps.bind fun components s => ?_
  refine Advances.get_bind (Builds.need_bind fun fits => ?_)
  refine Builds.change (fun sound => { sound with registers := fun i named => ?_, arrays := fun k => ?_ })
    { Later.refl (q := False) s with frame := fun no => no.elim } trivial
  · obtain temp | ⟨k, register, mem, c, at_⟩ | output := named
    · exact sound.registers i (.inl temp)
    · dsimp only at mem
      rw [Function.update_apply] at mem
      split at mem
      · obtain rfl := List.eq_of_mem_replicate mem
        exact nomatch at_
      · exact sound.registers i (.inr (.inl ⟨k, register, mem, c, at_⟩))
    · exact sound.registers i (.inr (.inr output))
  · dsimp only
    rw [Function.update_apply]
    split
    · rw [List.length_replicate]
      omega
    · exact sound.arrays k

theorem declareSystemInput_steps : Steps word (declareSystemInput settings) :=
  (operand_steps true).bind fun _ => take_steps.bind fun _ => Steps.get fun _ => Steps.need.bind fun _ => Steps.change fun _ => rfl

theorem declareInput_steps (op : ℕ) (token : UWord) : Steps word (declareInput settings op token) :=
  (operand_steps true).bind fun _ => Steps.get fun _ => Steps.need.bind fun _ => Steps.change fun _ => rfl

theorem declarePosition_steps : Steps word (declarePosition settings) :=
  (operand_steps true).bind fun _ => Steps.get fun _ => Steps.need.bind fun _ => take_steps.bind fun _ =>
    Steps.need.bind fun _ => Steps.change fun _ => rfl

theorem declareOutput_steps (op : ℕ) : Steps word (declareOutput settings op) := by
  refine (operand_steps true).bind fun d => ?_
  have finish : Steps word (do
      let s ← Tracked.get
      Compile.need (¬s.executable ∧ d.type = 2 ∧ d.dimensions = 1 ∧ d.index0 < shaderRegisters ∧
        (settings.stage = .pixel → d.index0 ≤ 1) ∧ fresh s.outputMasks d) "invalid output declaration"
      change fun s => { s with outputMasks := declared s.outputMasks d }) :=
    Steps.get fun _ => Steps.need.bind fun _ => Steps.change fun _ => rfl
  refine Steps.ite (fun _ => ?_) fun _ => finish
  refine Steps.need.bind fun _ => take_steps.bind fun _ => Steps.get fun _ => Steps.need.bind fun _ => ?_
  exact Steps.bind (Steps.change fun _ => rfl) fun _ => finish

theorem declareFlags_steps (token : UWord) : Steps word (declareFlags token) := Steps.get fun _ => Steps.need

theorem declareResource_steps (token : UWord) : Steps word (declareResource settings token) :=
  (operand_steps false).bind fun _ => take_steps.bind fun _ => Steps.get fun _ => Steps.need.bind fun _ => Steps.change fun _ => rfl

theorem declareSampler_steps (token : UWord) : Steps word (declareSampler settings token) :=
  (operand_steps false).bind fun _ => Steps.get fun _ => Steps.need.bind fun _ => Steps.change fun _ => rfl

/-- A size is declared once. -/
theorem declareConstants_steps (token : UWord) : Steps word (declareConstants token) := by
  refine (operand_steps false).bind fun d s => Advances.get_bind (Builds.need_bind fun fits => ?_)
  obtain ⟨-, -, -, -, -, most, undeclared, -⟩ := fits
  have kept (k : ℕ) (declared : s.constantSizes k ≠ 0) :
      Function.update s.constantSizes d.index0 d.index1 k = s.constantSizes k :=
    Function.update_of_ne (fun same : k = d.index0 => declared (by rw [same]; exact undeclared)) _ _
  refine Builds.change (fun sound => { sound with sizes := fun k => ?_, table := fun k at_ => ?_ })
    { Later.refl (q := False) s with sizes := kept, frame := fun no => no.elim } trivial
  · dsimp only
    rw [Function.update_apply]
    split
    · exact most
    · exact sound.sizes k
  · have table := sound.table k at_
    dsimp only
    rwa [kept k table.2.1.ne']

theorem declaration_steps {op : ℕ} {token : UWord} {declare : Compile Unit} (h : declaration settings op token = some declare) :
    Steps word declare := by
  unfold declaration at h
  split at h <;> cases h
  · exact declareTemps_steps
  · exact declareIndexable_steps token
  · exact declareSystemInput_steps
  · exact declareInput_steps _ token
  · exact declareInput_steps _ token
  · exact declarePosition_steps
  · exact declareOutput_steps _
  · exact declareOutput_steps _
  · exact declareConstants_steps token
  · exact declareFlags_steps token
  · exact declareResource_steps token
  · exact declareSampler_steps token

/-! ### Control flow -/

/-- A mask of lanes, if there is one, is a mask. -/
def LaneMask (word : ℕ × UWord → UWord) (s : State) (mask : Option ℕ) : Prop := ∀ m, mask = some m → MaskNode word s m

theorem LaneMask.mono {mask : Option ℕ} (h : LaneMask word s mask) (ext : Later False s t) : LaneMask word t mask :=
  fun m same => (h m same).mono ext

theorem MaskNode.laneMask (h : MaskNode word s m) : LaneMask word s (some m) := fun _ same => Option.some.inj same ▸ h

/-- The lanes are told by other masks. -/
theorem Sound.lanes_change (sound : Sound word s) {active returned : Option ℕ} {branches : List Branch}
    (ha : LaneMask word s active) (hr : LaneMask word s returned)
    (hb : ∀ branch ∈ branches, MaskNode word s branch.condition ∧ LaneMask word s branch.parent) :
    Sound word { s with activeMask := active, returnedMask := returned, branches := branches } := by
  refine { sound with lanes := fun m lanes => ?_ }
  obtain at_ | at_ | ⟨branch, mem, at_ | at_⟩ := lanes
  · exact ha m at_
  · exact hr m at_
  · exact at_ ▸ (hb branch mem).1
  · exact (hb branch mem).2 m at_

theorem later_lanes (s : State) (active returned : Option ℕ) (branches : List Branch) :
    Later False s { s with activeMask := active, returnedMask := returned, branches := branches } :=
  { Later.refl (q := False) s with frame := fun no => no.elim }

theorem Sound.active (sound : Sound word s) : LaneMask word s s.activeMask := fun m at_ => sound.lanes m (.inl at_)

theorem Sound.returned (sound : Sound word s) : LaneMask word s s.returnedMask := fun m at_ => sound.lanes m (.inr (.inl at_))

theorem Sound.branch (sound : Sound word s) : ∀ branch ∈ s.branches, MaskNode word s branch.condition ∧ LaneMask word s branch.parent :=
  fun branch mem => ⟨sound.lanes _ (.inr (.inr ⟨branch, mem, .inl rfl⟩)), fun m at_ => sound.lanes m (.inr (.inr ⟨branch, mem, .inr at_⟩))⟩

theorem liveMask_mask {mask : Option ℕ} (h : LaneMask word s mask) :
    Builds False word s (liveMask settings mask) fun r t => LaneMask word t r := by
  refine Advances.given fun sound => Advances.get_bind ?_
  split
  · exact Builds.pure h
  · rename_i returned at_
    refine Builds.bind (not_mask (sound.returned returned at_)) fun live t ext live_ => ?_
    cases mask with
    | none => exact Builds.pure live_.laneMask
    | some mask =>
      refine Builds.bind (andMask_mask ((h mask rfl).mono ext) live_) fun m u _ mask => Builds.pure mask.laneMask

theorem ret_steps (token : UWord) : Steps word (ret settings token) := by
  intro s
  refine Advances.given fun sound => Builds.need_bind fun _ => Advances.get_bind (Advances.ite (fun _ => ?_) fun _ => ?_)
  · refine Steps.change (fun _ => ?_) s
    rfl
  · split
    · exact Builds.fail
    · rename_i active at_
      have mask := sound.active active at_
      have finish {returned : ℕ} {t : State} (h : MaskNode word t returned) : Builds False word t (do
          change fun s => { s with returnedMask := some returned }
          let none ← literal 0#32
          change fun s => { s with activeMask := some none }) fun _ _ => True := by
        refine Builds.bind (Q := fun _ _ => True) (Builds.change (fun sound => ?_) (later_lanes t _ _ _) trivial) fun _ u _ _ => ?_
        · exact sound.lanes_change sound.active h.laneMask sound.branch
        refine Builds.bind (literal_mask (.inl rfl)) fun none v _ zero => ?_
        refine Builds.change (fun sound => ?_) (later_lanes v _ _ _) trivial
        exact sound.lanes_change zero.laneMask sound.returned sound.branch
      split
      · exact Builds.bind (Builds.pure mask) fun returned t _ h => finish h
      · rename_i returned earlier
        exact Builds.bind (or_mask (sound.returned returned earlier) mask) fun returned t _ h => finish h

/-- A block under a condition is entered. -/
theorem enter_steps {condition : ℕ} {t : State} (h : MaskNode word t condition) : Builds False word t (do
    let s ← Tracked.get
    change fun s => { s with branches := ⟨s.activeMask, condition, false⟩ :: s.branches }
    let active ← match s.activeMask with
      | none => pure condition
      | some active => andMask settings active condition
    change fun s => { s with activeMask := some active }) fun _ _ => True := by
  refine Advances.given fun sound => Advances.get_bind ?_
  refine Builds.bind (Q := fun _ _ => True) (Builds.change (fun sound => ?_) (later_lanes t _ _ _) trivial) fun _ u ext _ => ?_
  · refine sound.lanes_change sound.active sound.returned fun branch mem => ?_
    obtain rfl | mem := List.mem_cons.mp mem
    · exact ⟨h, sound.active⟩
    · exact sound.branch branch mem
  have activate {active : ℕ} {v : State} (h : MaskNode word v active) :
      Builds False word v (change fun s => { s with activeMask := some active }) fun _ _ => True :=
    Builds.change (fun sound => sound.lanes_change h.laneMask sound.returned sound.branch) (later_lanes v _ _ _) trivial
  split
  · exact Builds.bind (Builds.pure (h.mono ext)) fun active v _ h => activate h
  · rename_i active at_
    exact Builds.bind (andMask_mask ((sound.active active at_).mono ext) (h.mono ext)) fun active v _ h => activate h

theorem ifBlock_steps (token : UWord) : Steps word (ifBlock settings token) := by
  refine Steps.need.bind fun _ => (operand_steps false).bind fun o s => ?_
  refine Builds.bind ((read_gives o 0 true).node s) fun v t _ lt => Builds.bind (nonZero_mask lt) fun condition u _ mask => ?_
  refine Advances.ite (fun _ => ?_) fun _ => ?_
  · exact Builds.bind (Builds.pure mask) fun condition v _ h => enter_steps h
  · exact Builds.bind (not_mask mask) fun condition v _ h => enter_steps h

theorem elseBlock_steps (token : UWord) : Steps word (elseBlock settings token) := by
  intro s
  refine Advances.given fun sound => Advances.get_bind ?_
  split
  · rename_i parent condition branches at_
    obtain ⟨mask, outer⟩ := sound.branch ⟨parent, condition, false⟩ (by rw [at_]; exact List.mem_cons_self)
    refine Builds.need_bind fun _ => ?_
    refine Builds.bind (Q := fun _ _ => True) (Builds.change (fun sound => ?_) (later_lanes s _ _ _) trivial) fun _ t ext _ => ?_
    · refine sound.lanes_change sound.active sound.returned fun branch mem => ?_
      obtain rfl | mem := List.mem_cons.mp mem
      · exact ⟨mask, outer⟩
      · exact sound.branch branch (by rw [at_]; exact List.mem_cons_of_mem _ mem)
    have finish {m : ℕ} {u : State} (h : MaskNode word u m) : Builds False word u (do
        let active ← liveMask settings (some m)
        change fun s => { s with activeMask := active }) fun _ _ => True := by
      refine Builds.bind (liveMask_mask h.laneMask) fun active v _ live => ?_
      exact Builds.change (fun sound => sound.lanes_change live sound.returned sound.branch) (later_lanes v _ _ _) trivial
    refine Builds.bind (not_mask (mask.mono ext)) fun inverse u ext' h => ?_
    cases parent with
    | none => exact Builds.bind (Builds.pure h) fun m v _ h => finish h
    | some parent =>
      exact Builds.bind (andMask_mask ((outer parent rfl).mono (ext.trans ext')) h) fun m v _ h => finish h
  · exact Builds.fail

theorem endifBlock_steps (token : UWord) : Steps word (endifBlock settings token) := by
  intro s
  refine Advances.given fun sound => Advances.get_bind ?_
  split
  · exact Builds.fail
  · rename_i branch branches at_
    refine Builds.need_bind fun _ => ?_
    have inner := sound.branch branch (by rw [at_]; exact List.mem_cons_self)
    refine Builds.bind (liveMask_mask inner.2) fun active t ext live => ?_
    refine Builds.change (fun now => ?_) (later_lanes t _ _ _) trivial
    refine now.lanes_change live now.returned fun branch mem => ?_
    have outer := sound.branch branch (by rw [at_]; exact List.mem_cons_of_mem _ mem)
    exact ⟨outer.1.mono ext, outer.2.mono ext⟩

/-! ### Arithmetic -/

theorem components_inside {mask : BitVec 4} {f : Fin 4 → Compile ℕ}
    (h : ∀ c : Fin 4, mask.getLsbD c = true → ∀ t, Later q s t → Builds q word t (f c) fun r u => r < u.nodes.length) :
    Builds q word s (components mask f) fun values t => ∀ c : Fin 4, mask.getLsbD c = true → values c < t.nodes.length :=
  components_builds (P := fun _ n t => n < t.nodes.length) (fun _ _ _ _ ext lt => lt.trans_le ext.length_le) h

theorem saturate_gives (v : ℕ) : Gives word (saturate settings v) :=
  (literal_gives _).bind fun _ => (binary_gives _ _ _ _).bind fun _ =>
    (literal_gives _).bind fun _ => binary_gives _ _ _ _

theorem saturated_inside {token : UWord} {mask : BitVec 4} {result : Fin 4 → ℕ}
    (h : ∀ c : Fin 4, mask.getLsbD c = true → result c < s.nodes.length) :
    Builds q word s (saturated settings token mask result) fun values t =>
      ∀ c : Fin 4, mask.getLsbD c = true → values c < t.nodes.length :=
  Advances.ite (fun _ => components_inside fun _ _ t _ => (saturate_gives _).node t) fun _ => Builds.pure h

/-- What is stored after it was computed. -/
theorem store_saturated {d : Operand} {token : UWord} {result : Fin 4 → ℕ}
    (h : ∀ c : Fin 4, d.mask.getLsbD c = true → result c < s.nodes.length) :
    Builds False word s (do store settings d (← saturated settings token d.mask result)) fun _ _ => True :=
  Builds.bind (saturated_inside h) fun _ _ _ inside => store_steps inside

theorem conditionalMove_steps (token : UWord) : Steps word (conditionalMove settings token) := by
  refine Steps.need.bind fun _ => (operand_steps true).bind fun d => (operand_steps false).bind fun condition =>
    (operand_steps false).bind fun a => (operand_steps false).bind fun b s => ?_
  refine Builds.bind (components_inside fun c _ t _ => ?_) fun result t _ inside => store_saturated inside
  refine Builds.bind ((read_gives condition c true).node t) fun n t₀ e₀ h₀ => ?_
  refine Builds.bind (nonZero_mask h₀) fun m t₁ e₁ mask => ?_
  refine Builds.bind ((read_gives a c false).node t₁) fun x t₂ e₂ h₂ => ?_
  refine Builds.bind ((read_gives b c false).node t₂) fun y t₃ e₃ h₃ => ?_
  exact select_inside (mask.mono (e₂.trans e₃)) (h₂.trans_le e₃.length_le) h₃

theorem fetch_inside {kind : Lookup} {binding u v : ℕ} (hu : u < s.nodes.length) (hv : v < s.nodes.length) :
    Builds q word s (fetch kind binding u v) fun values t => ∀ c, values c < t.nodes.length :=
  (fetch_looksUp kind binding (has_self hu) (has_self hv)).weaken fun _ _ _ _ h c => (h.choose_spec.delivers c).lt

theorem sample_steps (token : UWord) : Steps word (sample settings token) := by
  refine Steps.need.bind fun _ => (operand_steps true).bind fun d => (operand_steps false).bind fun uv =>
    (operand_steps false).bind fun texture => (operand_steps false).bind fun sampler => Steps.get fun _ => Steps.need.bind fun _ =>
      (binding_steps _ _).bind fun k s => ?_
  refine Builds.bind ((read_gives uv 0 false).node s) fun u t ext hu => Builds.bind ((read_gives uv 1 false).node t) fun v t' ext' hv => ?_
  exact Builds.bind (fetch_inside (hu.trans_le ext'.length_le) hv) fun values t _ inside => store_steps fun c _ => inside _

theorem fetchBuffer_inside (k : ℕ) (address : Operand) :
    Builds q word s (fetchBuffer settings k address) fun values t => ∀ c, values c < t.nodes.length := by
  refine (Builds.quiet (fetchBuffer_has (read_gives address 0 true))).weaken fun values t _ _ fetched c => ?_
  obtain ⟨index, group, -, looksUp⟩ := fetched
  exact (looksUp.delivers c).lt

theorem fetchTexel_inside (k : ℕ) (address : Operand) :
    Builds q word s (fetchTexel settings k address) fun values t => ∀ c, values c < t.nodes.length := by
  refine (Builds.quiet (fetchTexel_has fun lane => read_gives address lane true)).weaken fun values t _ _ fetched c => ?_
  obtain ⟨i, j, texels, group, -, -, -, has⟩ := fetched
  exact (has c).lt

theorem load_steps (token : UWord) : Steps word (load settings token) := by
  refine Steps.need.bind fun _ => (operand_steps true).bind fun d => (operand_steps false).bind fun address =>
    (operand_steps false).bind fun texture => Steps.get fun _ => Steps.need.bind fun _ => (binding_steps _ _).bind fun k s => ?_
  have finish {values : Fin 4 → ℕ} {t : State} (inside : ∀ c, values c < t.nodes.length) :
      Builds False word t (store settings d fun c => values (texture.swizzle c)) fun _ _ => True := store_steps fun _ _ => inside _
  refine Advances.ite (fun _ => ?_) fun _ => ?_
  · exact Builds.bind (fetchBuffer_inside k address) fun values t _ inside => finish inside
  · exact Builds.bind (fetchTexel_inside k address) fun values t _ inside => finish inside

theorem multiply_steps (token : UWord) : Steps word (multiply settings token) := by
  refine Steps.need.bind fun _ => (operand_steps true).bind fun high => (operand_steps true).bind fun low =>
    (operand_steps false).bind fun a => (operand_steps false).bind fun b => Steps.need.bind fun _ =>
      Steps.ite (fun _ => Steps.pure) fun _ s => ?_
  refine Builds.bind (components_inside fun c _ t _ => ?_) fun result t _ inside => store_steps inside
  exact Builds.bind ((read_gives a c true).node t) fun _ t _ _ => Builds.bind ((read_gives b c true).node t) fun _ t _ _ =>
    (binary_gives _ _ _ _).node t

theorem ilt_mask (ha : a < s.nodes.length) (hb : b < s.nodes.length) :
    Builds q word s (ilt settings a b) fun r t => MaskNode word t r :=
  (ilt_has (has_self ha) (has_self hb)).weaken fun _ _ _ _ has => has.maskNode fun _ _ => mask_boolean _

theorem ult_mask (ha : a < s.nodes.length) (hb : b < s.nodes.length) :
    Builds q word s (ult settings a b) fun r t => MaskNode word t r :=
  (ult_has (has_self ha) (has_self hb)).weaken fun _ _ _ _ has => has.maskNode fun _ _ => mask_boolean _

theorem ieq_mask (ha : a < s.nodes.length) (hb : b < s.nodes.length) :
    Builds q word s (ieq settings a b) fun r t => MaskNode word t r :=
  (ieq_has (has_self ha) (has_self hb)).weaken fun _ _ _ _ has => has.maskNode fun _ _ => mask_boolean _

theorem composite_inside {op : ℕ} {third : Compile ℕ} (ha : a < s.nodes.length) (hb : 1 < sourceCount op → b < s.nodes.length)
    (h : Gives word third) : Builds q word s (composite settings op a b third) fun r t => r < t.nodes.length := by
  have inside (x : Compile ℕ) (h : Builds q word s x fun r t => MaskNode word t r) : Builds q word s x fun r t => r < t.nodes.length :=
    h.weaken fun _ _ _ _ mask => mask.1
  have negated (x : Compile ℕ) (h : Builds q word s x fun r t => MaskNode word t r) :
      Builds q word s (do not settings (← x)) fun r t => r < t.nodes.length :=
    Builds.bind h fun r t _ mask => (not_mask mask).weaken fun _ _ _ _ mask => mask.1
  unfold composite
  split
  · exact inside _ (ieq_mask ha (hb (by decide)))
  · exact negated _ (ilt_mask ha (hb (by decide)))
  · exact inside _ (ilt_mask ha (hb (by decide)))
  · exact Builds.bind ((binary_gives _ _ _ _).node s) fun r t _ lt => (nonZero_mask lt).weaken fun _ _ _ _ mask => mask.1
  · exact inside _ (ult_mask ha (hb (by decide)))
  · exact negated _ (ult_mask ha (hb (by decide)))
  · exact (binary_gives _ _ _ _).bind (fun _ => (literal_gives _).bind fun _ =>
      (binary_gives _ _ _ _).bind fun _ => binary_gives _ _ _ _) |>.node s
  · exact (binary_gives _ _ _ _).bind (fun _ => h.bind fun _ => binary_gives _ _ _ _) |>.node s
  · exact (binary_gives _ _ _ _).bind (fun _ => h.bind fun _ => binary_gives _ _ _ _) |>.node s
  · exact (literal_gives _).bind (fun _ => binary_gives _ _ _ _) |>.node s
  · exact (binary_gives _ _ _ _).bind (fun _ => binary_gives _ _ _ _) |>.node s
  · exact (literal_gives _).bind (fun _ => binary_gives _ _ _ _) |>.node s
  · exact (binary_gives _ _ _ _).bind (fun _ => h.bind fun _ => binary_gives _ _ _ _) |>.node s
  · exact Builds.pure ha

/-- Float comparisons have two sources. -/
theorem floatComparison_sources {op : ℕ} {operation : Op} (h : floatComparison op = some operation) :
    1 < sourceCount op ∧ operation.comparesFloats := by
  unfold floatComparison at h
  split at h <;> cases h
  · exact ⟨by decide, .inl rfl⟩
  · exact ⟨by decide, .inr (.inr (.inr rfl))⟩
  · exact ⟨by decide, .inr (.inr (.inl rfl))⟩
  · exact ⟨by decide, .inr (.inl rfl)⟩

theorem scalar_inside {op : ℕ} {third : Compile ℕ} (ha : a < s.nodes.length) (hb : 1 < sourceCount op → b < s.nodes.length)
    (h : Gives word third) : Builds q word s (scalar settings op a b third) fun r t => r < t.nodes.length := by
  unfold scalar
  split
  · exact (binary_gives _ _ _ _).node s
  · exact (binary_gives _ _ _ _).node s
  · rename_i operation _ _ compares
    obtain ⟨two, compares⟩ := floatComparison_sources compares
    refine (floatCompareWithin_tests compares 2 (has_self ha) (has_self (hb two))).weaken fun _ _ _ _ tests => tests.has.lt
  · exact composite_inside ha hb h

theorem dotProduct_inside (x y : Operand) (n : ℕ) (h : n ≤ 4) :
    Builds q word s (dotProduct settings x y n h) fun r t => ∀ node, r = some node → node < t.nodes.length := by
  induction n with
  | zero => exact Builds.pure fun node no => nomatch no
  | succ n ih =>
    have some_ {x : Compile ℕ} {u : State} (h : Gives word x) : Builds q word u (do return some (← x)) fun r t =>
        ∀ node, r = some node → node < t.nodes.length := some_inside h
    refine Builds.bind (ih (by omega)) fun dot t _ _ => ?_
    refine Builds.bind ((read_gives x _ false).node t) fun v t _ _ => Builds.bind ((read_gives y _ false).node t) fun w t _ _ => ?_
    refine Builds.bind ((binary_gives _ _ _ _).node t) fun term t _ lt => ?_
    cases dot with
    | none =>
      refine Builds.pure fun node same => ?_
      obtain rfl := Option.some.inj same
      exact lt
    | some dot => exact some_ (binary_gives _ _ _ _)

theorem arithmetic_steps (op : ℕ) (token : UWord) : Steps word (arithmetic settings op token) := by
  refine Steps.need.bind fun _ => Steps.need.bind fun _ => Steps.need.bind fun _ => (operand_steps true).bind fun d =>
    (operand_steps false).bind fun first => Steps.join (operand_steps false) Steps.pure fun second =>
      Steps.join (operand_steps false) Steps.pure fun third s => ?_
  dsimp only
  split
  · refine Builds.bind (dotProduct_inside first second _ _) fun dot t _ inside => ?_
    cases dot with
    | none => exact Builds.bind Builds.fail fun _ _ _ no => False.elim no
    | some dot => exact Builds.bind (Builds.pure fun _ _ => inside dot rfl) fun result u _ inside => store_saturated inside
  · refine Builds.bind (components_inside fun c _ t _ => ?_) fun result t _ inside => store_saturated inside
    refine Builds.bind ((read_gives first c _).node t) fun x t₀ e₀ hx => ?_
    refine Builds.join (Q := fun y u => 1 < sourceCount op → y < u.nodes.length) (fun _ => ?_) (fun one => ?_) fun y t₁ e₁ hy => ?_
    · exact ((read_gives second c _).node t₀).weaken fun _ _ _ _ lt _ => lt
    · exact Builds.pure fun two => absurd two one
    · exact scalar_inside (hx.trans_le e₁.length_le) hy (read_gives third c _)

theorem instruction_steps (token : UWord) : Steps word (instruction settings token) := by
  refine Steps.get fun _ => Steps.need.bind fun _ => Steps.need.bind fun _ => ?_
  split
  · rename_i declare found
    exact declaration_steps found
  · refine Steps.bind (Steps.change fun _ => rfl) fun _ => ?_
    split
    · exact ret_steps token
    · exact Steps.pure
    · exact ifBlock_steps token
    · exact elseBlock_steps token
    · exact endifBlock_steps token
    · exact conditionalMove_steps token
    · exact sample_steps token
    · exact load_steps token
    · exact multiply_steps token
    · exact multiply_steps token
    · exact arithmetic_steps _ token

end Pi5Drivers.Compiler
