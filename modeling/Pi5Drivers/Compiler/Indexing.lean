import Pi5Drivers.Compiler.Folding
import Mathlib.Tactic.FinCases

/-! Dynamically indexed reads (`native/shader.cpp`, `Read` and `Instruction`): elements of indexable temporaries, of
constant buffers and of typed buffers, and texels. An element of a temporary is selected, one of a constant buffer is
looked up in a texture, an index into a typed buffer is clamped onto one element more, and texels outside are masked.
An index that is known is followed at once. -/

namespace Pi5Drivers.Compiler

open Abi Compile Tracked

variable {settings : Settings} {q : Prop} {word : ℕ × UWord → UWord} {s t u : State} {i : ℕ} {g x y : Inputs → UWord}

/-- On the way from `s` to `t` a node was read. -/
def Gave (word : ℕ × UWord → UWord) (s : State) (x : Compile ℕ) (t : State) (node : ℕ) : Prop :=
  ∃ u v, Later True s u ∧ x.run word u = (.ok node, v) ∧ node < v.nodes.length ∧ Later True v t

theorem Gave.mono {x : Compile ℕ} {node : ℕ} (h : Gave word s x t node) (ext : Later True t u) : Gave word s x u node := by
  obtain ⟨v, w, before, ran, lt, after⟩ := h
  exact ⟨v, w, before, ran, lt, after.trans ext⟩

theorem Gives.gave {x : Compile ℕ} (h : Gives word x) (ext : Later True s t) :
    Builds True word t x fun r u => r < u.nodes.length ∧ Gave word s x u r :=
  (Advances.outcome (h t)).weaken fun _ u _ _ result => ⟨result.1, t, u, ext, result.2, result.1, Later.refl u⟩

/-- The relative index of an operand was read on the way from `s` to `t`, and it has this word. -/
def Indexed (word : ℕ × UWord → UWord) (s : State) (t : State) (g : Inputs → UWord) : Option (Compile ℕ) → Prop
  | none => g = fun _ => 0
  | some relative => ∃ index, Gave word s relative t index ∧ g = fun inputs => t.word inputs index

theorem Gave.indexed {x : Compile ℕ} {node : ℕ} (h : Gave word s x t node) (ext : Later True t u) (lt : node < t.nodes.length) :
    Indexed word s u (fun inputs => t.word inputs node) (some x) :=
  ⟨node, h.mono ext, funext fun _ => (ext.word_eq lt).symm⟩

/-- A relative index is a node. -/
def RelativeGives (word : ℕ × UWord → UWord) (relative : Option (Compile ℕ)) : Prop := ∀ x, relative = some x → Gives word x

/-! ### Temporaries -/

/-- The word of an element; elements outside are zero. -/
def State.element (s : State) (array : List Register) (c : Fin 4) (inputs : Inputs) (x : UWord) : UWord :=
  (array[x.toNat]?).elim 0 fun register => (register c).elim 0 (s.word inputs)

/-- The element of a part of an array that an index selects. -/
def State.selected (s : State) (elements : List (Option ℕ)) (i : ℕ) (inputs : Inputs) (x y : UWord) : UWord :=
  if i ≤ x.toNat then (elements[x.toNat - i]?).elim y fun element => element.elim 0 (s.word inputs) else y

theorem selected_cons (s : State) (node : ℕ) (elements : List (Option ℕ)) (inputs : Inputs) (v w : UWord) (small : i < 2 ^ 32) :
    s.selected (some node :: elements) i inputs v w =
      s.selected elements (i + 1) inputs v (choose (boolean (v = BitVec.ofNat 32 i)) (s.word inputs node) w) := by
  have here : v = BitVec.ofNat 32 i ↔ v.toNat = i := by
    rw [← BitVec.toNat_inj, BitVec.toNat_ofNat, Nat.mod_eq_of_lt small]
  rw [State.selected, State.selected, choose]
  simp only [boolean_ne_zero, here]
  rcases lt_trichotomy v.toNat i with lt | rfl | gt
  · rw [if_neg (by omega), if_neg (by omega), if_neg (by omega)]
  · rw [if_pos le_rfl, if_neg (by omega), if_pos rfl, Nat.sub_self]
    rfl
  · obtain ⟨d, eq⟩ : ∃ d, v.toNat - i = d + 1 := ⟨v.toNat - i - 1, by omega⟩
    rw [if_pos gt.le, if_pos (by omega), if_neg (by omega), eq, List.getElem?_cons_succ]
    congr 2
    omega

/-- **Selection of an element.** A chain of selects gives the element at the index, or the word it started with. -/
theorem selectElement_has {index v : ℕ} {elements : List (Option ℕ)} (hx : Has word s index x) (hy : Has word s v y)
    (inside : ∀ node, some node ∈ elements → node < s.nodes.length) (small : i + elements.length ≤ 2 ^ 32) :
    Builds q word s (selectElement settings index elements i v) fun r t => none ∉ elements ∧
      Has word t r fun inputs => s.selected elements i inputs (x inputs) (y inputs) := by
  induction elements generalizing s i v y with
  | nil =>
    refine Builds.pure ⟨List.not_mem_nil, hy.congr fun inputs _ => ?_⟩
    rw [State.selected]
    split <;> rfl
  | cons element elements ih =>
    rw [List.length_cons] at small
    cases element with
    | none => exact Builds.fail
    | some node =>
      have hn : Has word s node _ := has_self (inside node List.mem_cons_self)
      refine Builds.bind (literal_has _) fun l t ext hl => ?_
      refine Builds.bind (ieq_has (hx.mono ext) hl) fun here t' ext' hh => ?_
      have ext₂ := ext.trans ext'
      refine Builds.bind (select_has hh (hn.mono ext₂) (hy.mono ext₂) fun _ _ => mask_boolean _) fun v' t'' ext'' hv => ?_
      have ext₃ := ext₂.trans ext''
      refine (ih (hx.mono ext₃) hv (fun node mem => ?_) (by omega)).weaken
        fun r u _ _ result => ⟨fun mem => ?_, result.2.congr fun inputs _ => ?_⟩
      · exact (inside node (List.mem_cons_of_mem _ mem)).trans_le ext₃.length_le
      · exact result.1 ((List.mem_cons.mp mem).resolve_left nofun)
      · rw [selected_cons s node elements inputs (x inputs) (y inputs) (by omega)]
        have same (list : List (Option ℕ)) (sub : ∀ node, some node ∈ list → node < s.nodes.length) (j : ℕ) (v w : UWord) :
            t''.selected list j inputs v w = s.selected list j inputs v w := by
          rw [State.selected, State.selected]
          split
          · rcases at_ : list[v.toNat - j]? with _ | _ | node
            · rfl
            · rfl
            · exact ext₃.word_eq (sub node (List.mem_of_getElem? at_))
          · rfl
        exact same elements (fun node mem => inside node (List.mem_cons_of_mem _ mem)) _ _ _

/-- The node is an element of an array, and zero if the index is outside. An element that is read was stored before. -/
structure ElementAt (word : ℕ × UWord → UWord) (s u : State) (node : ℕ) (array : List Register) (c : Fin 4) (x : Inputs → UWord) :
    Prop where
  has : Has word u node fun inputs => s.element array c inputs (x inputs)
  stored : ∀ inputs, Agrees word inputs u → ∀ register, array[(x inputs).toNat]? = some register → register c ≠ none

/-- An element of an array, wherever its index comes from. -/
theorem elementAt_has (settings : Settings) {array : List Register} {index : ℕ} {c : Fin 4} (ext : Later q s t)
    (hx : Has word t index x)
    (inside : ∀ register ∈ array, ∀ node, register c = some node → node < s.nodes.length) (small : array.length ≤ 4096) :
    Builds q word t (do
      let s ← .get
      if s.isLiteral settings index then
        let element ← value settings index
        match array[element.toNat]? with
        | some element => return element c
        | none => return some (← literal 0#32)
      else return some (← selectElement settings index (array.map (· c)) 0 (← literal 0#32))) fun r u =>
      ∀ node, r = some node → ElementAt word s u node array c x := by
  refine Advances.get_bind (Advances.ite (fun _ => ?_) fun _ => ?_)
  · refine Builds.bind (value_has index) fun v t' ext' hv => ?_
    have known (inputs : Inputs) {u : State} (ext'' : Later q t' u) (agrees : Agrees word inputs u) : x inputs = v := by
      rw [← hx.word inputs (agrees.mono (ext'.trans ext'')), ← ext'.word_eq hx.lt, hv.word inputs (agrees.mono ext'')]
    rcases at_ : array[v.toNat]? with _ | register
    · refine Builds.bind (literal_has 0#32) fun z u ext'' hz => Builds.pure fun node same => ?_
      obtain rfl := Option.some.inj same
      refine ⟨hz.congr fun inputs agrees => ?_, fun inputs agrees register found => ?_⟩
      · rw [State.element, known inputs ext'' agrees, at_]
        rfl
      · rw [known inputs ext'' agrees, at_] at found
        exact nomatch found
    · refine Builds.pure fun node same => ?_
      have lt := inside register (List.mem_of_getElem? at_) node same
      refine ⟨(((has_self lt).mono ext).mono ext').congr fun inputs agrees => ?_, fun inputs agrees register' found => ?_⟩
      · rw [State.element, known inputs (Later.refl t') agrees, at_, Option.elim_some, same, Option.elim_some]
      · rw [known inputs (Later.refl t') agrees, at_] at found
        rw [← Option.some.inj found, same]
        exact Option.some_ne_none node
  · refine Builds.bind (literal_has 0#32) fun z t' ext' hz => ?_
    have inside' (node : ℕ) (mem : some node ∈ array.map (· c)) : node < s.nodes.length := by
      obtain ⟨register, mem, at_⟩ := List.mem_map.mp mem
      exact inside register mem node at_
    refine Builds.bind (selectElement_has (hx.mono ext') hz (fun node mem => (inside' node mem).trans_le (ext.trans ext').length_le)
      (by rw [List.length_map]; omega)) fun r u _ result => Builds.pure fun node same => ?_
    obtain rfl := Option.some.inj same
    refine ⟨result.2.congr fun inputs _ => ?_, fun inputs _ register found none => ?_⟩
    · rw [State.selected, if_pos (Nat.zero_le _), Nat.sub_zero, List.getElem?_map, State.element]
      rcases at_ : array[(x inputs).toNat]? with _ | register
      · rfl
      · rw [Option.map_some, Option.elim_some, Option.elim_some]
        rcases named : register c with _ | node
        · rfl
        · exact (ext.trans ext').word_eq (inside register (List.mem_of_getElem? at_) node named)
    · exact result.1 (List.mem_map.mpr ⟨register, List.mem_of_getElem? found, none⟩)

/-- **Indexed temporaries.** The word of an indexed temporary is that of its element, and zero outside of the array. -/
theorem readIndexable_has {o : Operand} {relative : Option (Compile ℕ)} {c : Fin 4} (h : RelativeGives word relative) :
    Builds True word s (readIndexable settings o relative c) fun r t => ∀ node, r = some node →
      ∃ g, Indexed word s t g relative ∧
        ElementAt word s t node (s.indexable o.index0).values c fun inputs => g inputs + BitVec.ofNat 32 o.index1 := by
  refine Advances.given fun sound => Advances.get_bind (Builds.need_bind fun _ => Builds.need_bind fun _ => ?_)
  have inside (register : Register) (mem : register ∈ (s.indexable o.index0).values) (node : ℕ) (at_ : register c = some node) :
      node < s.nodes.length := sound.registers node (.inr (.inl ⟨_, register, mem, c, at_⟩))
  refine Builds.bind (literal_has _) fun base t ext hb => ?_
  cases relative with
  | none =>
    have has : Has word t base fun _ => 0 + BitVec.ofNat 32 o.index1 := hb.congr fun _ _ => (BitVec.zero_add _).symm
    exact (elementAt_has settings ext has inside (sound.arrays o.index0)).weaken fun r u _ _ has node same => ⟨_, rfl, has node same⟩
  | some relative =>
    refine Builds.bind ((h relative rfl).gave ext) fun r t' ext' given => ?_
    refine Builds.bind (binary_kept (by decide) (has_self given.1) (hb.mono ext') true) fun index v ext'' has => ?_
    refine (elementAt_has settings (ext.trans (ext'.trans ext'')) has inside (sound.arrays o.index0)).weaken
      fun r u _ ext₃ has node same => ⟨_, given.2.indexed (ext''.trans ext₃) given.1, has node same⟩

/-! ### Lookups -/

/-- The words that a lookup delivers. -/
structure LooksUp (word : ℕ × UWord → UWord) (t : State) (kind : Lookup) (b : ℕ) (values : Fin 4 → ℕ) (x y : Inputs → UWord)
    (group : ℕ) : Prop where
  lookup : t.lookups[group]? = some ⟨kind, b, values⟩
  delivers : ∀ c : Fin 4, Has word t (values c) fun inputs => inputs.texel group c (x inputs) (y inputs)

theorem put_texture {u v c group : ℕ} (hu : Has word s u x) (hv : Has word s v y) :
    Builds q word s (put (.texture u v c group)) fun i t => t.lookups = s.lookups ∧
      Has word t i fun inputs => inputs.texel group c (x inputs) (y inputs) := by
  have before : ∀ j ∈ (Node.texture u v c group).operands, j < s.nodes.length := by
    simp [Node.operands, hu.lt, hv.lt]
  refine (put_builds before).weaken fun i t _ _ new => ?_
  obtain ⟨rfl, rfl⟩ := new
  refine ⟨rfl, by simp [State.snoc], fun inputs agrees => ?_⟩
  refine (Straightline.result_snoc).trans ?_
  change inputs.texel group c (s.word inputs u) (s.word inputs v) = _
  rw [hu.word inputs agrees, hv.word inputs agrees]

theorem fetch_looksUp (kind : Lookup) (b : ℕ) {u v : ℕ} (hu : Has word s u x) (hv : Has word s v y) :
    Builds q word s (fetch kind b u v) fun values t => ∃ group, LooksUp word t kind b values x y group := by
  refine Advances.get_bind (Builds.need_bind fun _ => ?_)
  refine Builds.bind (put_texture hu hv) fun n₀ t₀ e₀ h₀ => ?_
  refine Builds.bind (put_texture (hu.mono e₀) (hv.mono e₀)) fun n₁ t₁ e₁ h₁ => ?_
  have e₀₁ := e₀.trans e₁
  refine Builds.bind (put_texture (hu.mono e₀₁) (hv.mono e₀₁)) fun n₂ t₂ e₂ h₂ => ?_
  have e₀₂ := e₀₁.trans e₂
  refine Builds.bind (put_texture (hu.mono e₀₂) (hv.mono e₀₂)) fun n₃ t₃ e₃ h₃ => ?_
  have same : t₃.lookups = s.lookups := h₃.1.trans (h₂.1.trans (h₁.1.trans h₀.1))
  refine Builds.bind (Q := fun _ t => t = { t₃ with lookups := t₃.lookups ++ [⟨kind, b, ![n₀, n₁, n₂, n₃]⟩] })
    (Builds.change (fun sound => { sound with }) { Later.refl t₃ with lookups := List.prefix_append _ _ } rfl)
    fun _ t ext eq => Builds.pure ⟨s.lookups.length, ?_, fun c => ?_⟩
  · rw [eq, same]
    exact List.getElem?_concat_length
  · have e₁₃ := e₁.trans (e₂.trans e₃)
    fin_cases c
    · exact (h₀.2.mono e₁₃).mono ext
    · exact (h₁.2.mono (e₂.trans e₃)).mono ext
    · exact (h₂.2.mono e₃).mono ext
    · exact h₃.2.mono ext

theorem LooksUp.mono {kind : Lookup} {b group : ℕ} {values : Fin 4 → ℕ} (h : LooksUp word s kind b values x y group)
    (ext : Later q s t) : LooksUp word t kind b values x y group := by
  refine ⟨?_, fun c => (h.delivers c).mono ext⟩
  obtain ⟨lt, at_⟩ := List.getElem?_eq_some_iff.mp h.lookup
  exact List.getElem?_eq_some_iff.mpr ⟨lt.trans_le ext.lookups.length_le, (ext.lookups.getElem lt).symm.trans at_⟩

/-! ### Constant buffers -/

/-- The word of an element of a constant buffer; elements outside of its declaration are zero. -/
def constantElement (inputs : Inputs) (slot size : ℕ) (c : Fin 4) (x : UWord) : UWord :=
  if x.toNat < size then inputs.constant (slot, BitVec.ofNat 32 (x.toNat * 4 + c)) else 0

/-- Where the table is asked for an element. -/
def tableCoordinate (inputs : Inputs) (words : ℕ) (c : Fin 4) (x : UWord) : UWord :=
  inputs.float .add (inputs.float .mul (inputs.float .utof x x) (tableScale words)) (tableBias words c)

/-- The node is the first word of a lookup in the table of a constant buffer. -/
def InTable (word : ℕ × UWord → UWord) (t : State) (node slot size : ℕ) (c : Fin 4) (x : Inputs → UWord) : Prop :=
  t.constantSlot = some slot ∧ ∃ values group, node = values 0 ∧ LooksUp word t .constant 0 values
    (fun inputs => tableCoordinate inputs (tableWords size) c (x inputs)) (fun _ => 0x3f000000#32) group

theorem negated_none {op : Op} {a b : ℕ} (at_ : s.nodes[i]? = some (.binary op a b)) (h : op ≠ .xor) : s.negated i = none := by
  rw [State.negated, at_]
  cases op <;> first | rfl | exact absurd rfl h

theorem negated_uniform {u : Uniform} (at_ : s.nodes[i]? = some (.uniform u)) : s.negated i = none := by
  rw [State.negated, at_]

theorem Later.at_node (ext : Later q s t) {n : Node} (at_ : s.nodes[i]? = some n) : t.nodes[i]? = some n := by
  obtain ⟨lt, at_⟩ := List.getElem?_eq_some_iff.mp at_
  exact List.getElem?_eq_some_iff.mpr ⟨lt.trans_le ext.length_le, (ext.nodes.getElem lt).symm.trans at_⟩

theorem lookUpConstant_inTable {o : Operand} {modifier index : ℕ} {c : Fin 4} (hx : Has word s index x)
    (slot : o.index0 < 14)
    (declared : 0 < s.constantSizes o.index0) : Builds q word s (lookUpConstant settings o modifier index c) fun r t =>
      InTable word t r o.index0 (s.constantSizes o.index0) c x := by
  refine Advances.get_bind (Builds.need_bind fun fits => ?_)
  refine Builds.bind (Q := fun _ t => t.constantSlot = some o.index0) (Builds.change (fun sound => ?_) ?_ rfl) fun _ t₀ e₀ slot => ?_
  · refine { sound with table := fun k at_ => ?_ }
    obtain rfl := Option.some.inj at_
    exact ⟨slot, declared, fits.1, rfl⟩
  · refine { Later.refl s with slot := fun k at_ => ?_ }
    obtain none | same := fits.2.1
    · exact nomatch none.symm.trans at_
    · exact same.symm.trans at_
  have hx₀ := hx.mono e₀
  refine Builds.bind (binary_plain (by decide) (subtraction_eq (by decide)) hx₀ hx₀) fun converted t₁ e₁ h₁ => ?_
  refine Builds.bind (literal_has _) fun scale t₂ e₂ h₂ => ?_
  refine Builds.bind (binary_plain (by decide) (subtraction_eq (by decide)) (h₁.2.mono e₂) h₂) fun scaled t₃ e₃ h₃ => ?_
  refine Builds.bind (uniformNode_node _ _ _) fun bias t₄ e₄ at_ => Advances.given fun sound => ?_
  have plain : subtraction t₄ .add scaled bias = (.add, scaled, bias) := by
    rw [subtraction, if_pos rfl, negated_uniform at_, negated_none (e₄.at_node h₃.1) (by decide)]
  refine Builds.bind (binary_plain (by decide) plain (h₃.2.mono e₄) (sound.has_uniform at_)) fun u t₅ e₅ h₅ => ?_
  refine Builds.bind (literal_has _) fun v t₆ e₆ h₆ => ?_
  refine Builds.bind (fetch_looksUp .constant 0 (h₅.2.mono e₆) h₆) fun values t e h => Builds.pure ?_
  obtain ⟨group, looksUp⟩ := h
  have later := e₁.trans (e₂.trans (e₃.trans (e₄.trans (e₅.trans (e₆.trans e)))))
  exact ⟨later.slot _ slot, values, group, rfl, looksUp⟩

/-- An element of a constant buffer, wherever its index comes from. -/
theorem constantAt_has (settings : Settings) (o : Operand) (modifier : ℕ) (c : Fin 4) {index : ℕ} (ext : Later q s t)
    (hx : Has word t index x) (slot : o.index0 < 14) (declared : 0 < s.constantSizes o.index0) : Builds q word t (do
      let s ← .get
      if s.isLiteral settings index then
        let element ← value settings index
        if element.toNat < s.constantSizes o.index0 then
          uniformNode .constantBuffer (BitVec.ofNat 32 (element.toNat * 4 + c)) o.index0
        else literal 0#32
      else lookUpConstant settings o modifier index c) fun r u =>
      Has word u r (fun inputs => constantElement inputs o.index0 (s.constantSizes o.index0) c (x inputs)) ∨
        InTable word u r o.index0 (s.constantSizes o.index0) c x := by
  have size : t.constantSizes o.index0 = s.constantSizes o.index0 := ext.sizes _ declared.ne'
  refine Advances.get_bind (Advances.ite (fun _ => ?_) fun _ => ?_)
  · refine Builds.bind (value_has index) fun v t' ext' hv => ?_
    have known (inputs : Inputs) {u : State} (ext'' : Later q t' u) (agrees : Agrees word inputs u) : x inputs = v := by
      rw [← hx.word inputs (agrees.mono (ext'.trans ext'')), ← ext'.word_eq hx.lt, hv.word inputs (agrees.mono ext'')]
    refine Advances.ite (fun inside => ?_) fun outside => ?_
    · refine (uniformNode_has _ _ _).weaken fun r u _ ext'' has => .inl (has.congr fun inputs agrees => ?_)
      rw [constantElement, known inputs ext'' agrees, if_pos (size ▸ inside)]
      rfl
    · refine (literal_has 0#32).weaken fun r u _ ext'' has => .inl (has.congr fun inputs agrees => ?_)
      rw [constantElement, known inputs ext'' agrees, if_neg (size ▸ outside)]
      rfl
  · refine (lookUpConstant_inTable hx slot (size ▸ declared)).weaken fun r u _ _ table => .inr ?_
    rwa [size] at table

/-- A node of a constant buffer is the element or zero, or it is looked up. -/
def ConstantAt (word : ℕ × UWord → UWord) (t : State) (node slot size : ℕ) (c : Fin 4) (x : Inputs → UWord) : Prop :=
  Has word t node (fun inputs => constantElement inputs slot size c (x inputs)) ∨ InTable word t node slot size c x

/-- **Indexed constants.** A constant whose index is known is the element or zero; the others are looked up. -/
theorem readConstant_has {o : Operand} {relative : Option (Compile ℕ)} {c : Fin 4} (h : RelativeGives word relative) :
    Builds True word s (readConstant settings o relative c) fun r t => ∃ g, Indexed word s t g relative ∧
      ConstantAt word t r o.index0 (s.constantSizes o.index0) c fun inputs => g inputs + BitVec.ofNat 32 o.index1 := by
  refine Advances.given fun sound => Advances.get_bind (Builds.need_bind fun fits => ?_)
  have inside := fits.2.2
  have size := sound.sizes o.index0
  have exact_ : (BitVec.ofNat 32 o.index1).toNat = o.index1 := by
    rw [BitVec.toNat_ofNat, Nat.mod_eq_of_lt (by omega)]
  cases relative with
  | none =>
    refine (uniformNode_has _ _ _).weaken fun r t _ _ has => ⟨_, rfl, .inl (has.congr fun inputs _ => ?_)⟩
    rw [constantElement, show (0 : UWord) + BitVec.ofNat 32 o.index1 = BitVec.ofNat 32 o.index1 from BitVec.zero_add _, exact_,
      if_pos inside]
    rfl
  | some relative =>
    refine Builds.bind ((h relative rfl).gave (Later.refl s)) fun r t ext given => ?_
    have later {index : ℕ} {v : State} (ext' : Later True t v) (has : Has word v index fun inputs =>
        t.word inputs r + BitVec.ofNat 32 o.index1) : Builds True word v _ fun r' u => ∃ g, Indexed word s u g (some relative) ∧
          ConstantAt word u r' o.index0 (s.constantSizes o.index0) c fun inputs => g inputs + BitVec.ofNat 32 o.index1 :=
      (constantAt_has settings o (o.relative1.elim 0 Operand.modifier) c (ext.trans ext') has fits.2.1 (Nat.zero_lt_of_lt inside)).weaken
        fun r' u _ ext'' has => ⟨_, given.2.indexed (ext'.trans ext'') given.1, has⟩
    refine Advances.ite (fun _ => ?_) fun zero => ?_
    · refine Builds.bind (literal_has _) fun l u ext' hl => ?_
      refine Builds.bind (binary_kept (by decide) ((has_self given.1).mono ext') hl true) fun index v ext'' hi => ?_
      exact later (ext'.trans ext'') hi
    · refine Builds.bind (Builds.pure ((has_self given.1).congr fun inputs _ => ?_)) fun index v ext' hi => later ext' hi
      rw [not_not.mp zero]
      exact (BitVec.add_zero _).symm

/-! ### Buffers and textures -/

/-- The word of a clamped index. -/
def clamped (x limit : UWord) : UWord := if x.toNat ≤ limit.toNat then x else limit

/-- **Typed buffers.** An index is clamped to the number of elements. -/
theorem fetchBuffer_has {b : ℕ} {address : Operand} (h : Gives word (read settings address 0 true)) :
    Builds True word s (fetchBuffer settings b address) fun values t => ∃ index group,
      Gave word s (read settings address 0 true) t index ∧ LooksUp word t .fetch1D b values
        (fun inputs => clamped (t.word inputs index) (inputs.word ⟨.bindingElements, 0, b⟩))
        (fun inputs => clamped (t.word inputs index) (inputs.word ⟨.bindingElements, 0, b⟩)) group := by
  refine Builds.bind (uniformNode_has _ _ _) fun count t ext hc => Builds.bind (h.gave ext) fun r t' ext' given => ?_
  refine Builds.bind (binary_kept (by decide) (has_self given.1) (hc.mono ext') true) fun index v ext'' hi => ?_
  refine (fetch_looksUp .fetch1D b hi hi).weaken fun values u _ ext₃ fetched => ?_
  obtain ⟨group, looksUp⟩ := fetched
  have later := ext''.trans ext₃
  refine ⟨r, group, given.2.mono later, looksUp.lookup, fun c => (looksUp.delivers c).congr fun inputs _ => ?_⟩
  rw [later.word_eq given.1]
  rfl

/-- The values of components, each computed after the ones before. -/
theorem components_builds {mask : BitVec 4} {f : Fin 4 → Compile ℕ} {P : Fin 4 → ℕ → State → Prop}
    (mono : ∀ c n t u, Later q t u → P c n t → P c n u)
    (h : ∀ c : Fin 4, mask.getLsbD c = true → ∀ t, Later q s t → Builds q word t (f c) (P c)) :
    Builds q word s (components mask f) fun values t => ∀ c : Fin 4, mask.getLsbD c = true → P c (values c) t := by
  have value (c : Fin 4) (t : State) (ext : Later q s t) :
      Builds q word t (if mask.getLsbD c then f c else pure 0) fun n u => mask.getLsbD c = true → P c n u :=
    Advances.ite (fun on => (h c on t ext).weaken fun n u _ _ holds _ => holds) fun off => Builds.pure fun on => absurd on off
  refine Builds.bind (value 0 s (Later.refl s)) fun n₀ t₀ e₀ h₀ => ?_
  refine Builds.bind (value 1 t₀ e₀) fun n₁ t₁ e₁ h₁ => ?_
  refine Builds.bind (value 2 t₁ (e₀.trans e₁)) fun n₂ t₂ e₂ h₂ => ?_
  refine Builds.bind (value 3 t₂ (e₀.trans (e₁.trans e₂))) fun n₃ t₃ e₃ h₃ => Builds.pure fun c on => ?_
  fin_cases c
  · exact mono 0 n₀ _ _ (e₁.trans (e₂.trans e₃)) (h₀ on)
  · exact mono 1 n₁ _ _ (e₂.trans e₃) (h₁ on)
  · exact mono 2 n₂ _ _ e₃ (h₂ on)
  · exact h₃ on

/-- The borrow of a subtraction is its sign. -/
def borrow (x limit : UWord) : UWord := (clamped x limit - limit) >>> 31

theorem borrow_eq (x limit : UWord) (small : limit.toNat ≤ 2 ^ 31) : borrow x limit = if x.toNat < limit.toNat then 1 else 0 := by
  rw [← BitVec.toNat_inj, borrow, clamped, BitVec.toNat_ushiftRight, BitVec.toNat_sub, Nat.shiftRight_eq_div_pow]
  have := limit.isLt
  split
  · split
    · change _ = 1
      omega
    · change _ = 0
      omega
  · rw [if_neg (by omega)]
    change _ = 0
    omega

/-- Two borrows make the mask of a texel. -/
theorem borrow_mask (x y width height : UWord) (hw : width.toNat ≤ 2 ^ 31) (hh : height.toNat ≤ 2 ^ 31) :
    0#32 - (borrow x width &&& borrow y height) =
      if x.toNat < width.toNat ∧ y.toNat < height.toNat then 0xffffffff#32 else 0#32 := by
  rw [borrow_eq x width hw, borrow_eq y height hh]
  by_cases inX : x.toNat < width.toNat <;> by_cases inY : y.toNat < height.toNat <;> simp [inX, inY]

/-- The word of a masked texel. -/
def texelWord (inputs : Inputs) (group c : ℕ) (x y width height : UWord) : UWord :=
  inputs.texel group c (clamped x width) (clamped y height) &&& (0#32 - (borrow x width &&& borrow y height))

theorem texelWord_eq (inputs : Inputs) (group c : ℕ) (x y width height : UWord) (hw : width.toNat ≤ 2 ^ 31)
    (hh : height.toNat ≤ 2 ^ 31) : texelWord inputs group c x y width height =
      if x.toNat < width.toNat ∧ y.toNat < height.toNat then inputs.texel group c x y else 0 := by
  rw [texelWord, borrow_mask x y width height hw hh]
  split
  · rename_i inside
    rw [clamped, clamped, if_pos inside.1.le, if_pos inside.2.le]
    exact BitVec.and_allOnes
  · exact BitVec.and_zero

theorem inRange_has {a b : ℕ} (ha : Has word s a x) (hb : Has word s b y) :
    Builds q word s (inRange settings a b) fun r t => Has word t r fun inputs => (x inputs - y inputs) >>> 31 := by
  refine Builds.bind (binary_kept (by decide) ha hb true) fun r t ext hr => ?_
  refine Builds.bind (literal_has 31#32) fun l t' ext' hl => ?_
  exact binary_kept (by decide) (hr.mono ext') hl true

/-- **Texels.** The words of a texel are masked unless both indices are inside. -/
theorem fetchTexel_has {b : ℕ} {address : Operand} (h : ∀ lane, Gives word (read settings address lane true)) :
    Builds True word s (fetchTexel settings b address) fun values t => ∃ i j texels group,
      Gave word s (read settings address 0 true) t i ∧ Gave word s (read settings address 1 true) t j ∧
      LooksUp word t .fetch2D b texels (fun inputs => clamped (t.word inputs i) (inputs.word ⟨.bindingWidth, 0, b⟩))
        (fun inputs => clamped (t.word inputs j) (inputs.word ⟨.bindingHeight, 0, b⟩)) group ∧
      ∀ c : Fin 4, Has word t (values c) fun inputs => texelWord inputs group c (t.word inputs i) (t.word inputs j)
        (inputs.word ⟨.bindingWidth, 0, b⟩) (inputs.word ⟨.bindingHeight, 0, b⟩) := by
  refine Builds.bind (h 3 s) fun l t₀ e₀ _ => Advances.get_bind (Builds.need_bind fun _ => ?_)
  refine Builds.bind (uniformNode_has _ _ _) fun w t₁ e₁ hw => Builds.bind (uniformNode_has _ _ _) fun h' t₂ e₂ hh => ?_
  have hw := hw.mono e₂
  refine Builds.bind ((h 0).gave (e₀.trans (e₁.trans e₂))) fun r t₃ e₃ hr => ?_
  refine Builds.bind (binary_kept (by decide) (has_self hr.1) (hw.mono e₃) true) fun u t₄ e₄ hu => ?_
  refine Builds.bind ((h 1).gave (e₀.trans (e₁.trans (e₂.trans (e₃.trans e₄))))) fun r' t₅ e₅ hr' => ?_
  have e₃₅ := e₃.trans (e₄.trans e₅)
  refine Builds.bind (binary_kept (by decide) (has_self hr'.1) (hh.mono e₃₅) true) fun v t₆ e₆ hv => ?_
  refine Builds.bind (literal_has 0#32) fun none t₇ e₇ hn => ?_
  have e₃₇ := e₃₅.trans (e₆.trans e₇)
  have hu := hu.mono (e₅.trans (e₆.trans e₇))
  have hv := hv.mono e₇
  refine Builds.bind (inRange_has hu (hw.mono e₃₇)) fun m t₈ e₈ hm => ?_
  refine Builds.bind (inRange_has (hv.mono e₈) (hh.mono (e₃₇.trans e₈))) fun m' t₉ e₉ hm' => ?_
  refine Builds.bind (binary_kept (by decide) (hm.mono e₉) hm' true) fun inside t₁₀ e₁₀ hi => ?_
  refine Builds.bind (binary_kept (by decide) ((hn.mono (e₈.trans e₉)).mono e₁₀) hi true) fun mask t₁₁ e₁₁ hk => ?_
  have e₇₁₁ := e₈.trans (e₉.trans (e₁₀.trans e₁₁))
  refine Builds.bind (fetch_looksUp .fetch2D b (hu.mono e₇₁₁) (hv.mono e₇₁₁)) fun texels t₁₂ e₁₂ fetched => ?_
  obtain ⟨group, looksUp⟩ := fetched
  have masked (c : Fin 4) (t : State) (ext : Later True t₁₂ t) : Builds True word t (binary settings .and (texels c) mask) fun n u =>
      Has word u n fun inputs => texelWord inputs group c (t₃.word inputs r) (t₅.word inputs r')
        (inputs.word ⟨.bindingWidth, 0, b⟩) (inputs.word ⟨.bindingHeight, 0, b⟩) :=
    binary_kept (by decide) ((looksUp.delivers c).mono ext) ((hk.mono e₁₂).mono ext) true
  refine (components_builds (fun _ _ _ _ ext has => has.mono ext) fun c _ t ext => masked c t ext).weaken fun values t _ ext has => ?_
  have e₅' := e₆.trans (e₇.trans (e₇₁₁.trans (e₁₂.trans ext)))
  have e₃' := e₄.trans (e₅.trans e₅')
  refine ⟨r, r', texels, group, hr.2.mono e₃', hr'.2.mono e₅', ⟨(looksUp.mono ext).lookup, fun c => ?_⟩, fun c => ?_⟩
  · refine (looksUp.mono ext).delivers c |>.congr fun inputs _ => ?_
    rw [e₃'.word_eq hr.1, e₅'.word_eq hr'.1]
    rfl
  · refine (has c ?_).congr fun inputs _ => ?_
    · fin_cases c <;> rfl
    · rw [e₃'.word_eq hr.1, e₅'.word_eq hr'.1]

end Pi5Drivers.Compiler
