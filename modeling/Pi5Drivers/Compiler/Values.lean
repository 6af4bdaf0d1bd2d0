import Pi5Drivers.Compiler.Instruction
import Pi5Drivers.Lib.Advances
import Pi5Drivers.Lib.Single
import Pi5Drivers.Lib.Straightline

/-! What the nodes of a graph are worth (`native/shader.cpp`). Integers are computed, floats are compared by their
bits, and float arithmetic is left to the QPU. A compilation only adds nodes, marks and words it relies on; the
words of its snapshot are the ones of the inputs as far as it relies on them. -/

namespace Pi5Drivers.Compiler

open Abi Compile Straightline Tracked

/-! ### Values -/

/-- What a program is run with: its constants, the other uniforms and inputs, the words its lookups deliver, and
float arithmetic. -/
structure Inputs where
  constant : ℕ × UWord → UWord
  word : Uniform → UWord
  texel : (group component : ℕ) → UWord → UWord → UWord
  float : Op → UWord → UWord → UWord

/-- The word of a uniform. -/
def Inputs.uniform (inputs : Inputs) (u : Uniform) : UWord :=
  match u.kind with
  | .literal => u.value
  | .constantBuffer => inputs.constant (u.slot, u.value)
  | .floatConstantBuffer => Single.flushed (inputs.constant (u.slot, u.value))
  | _ => inputs.word u

/-- An operation on words. The QPU compares floats without flushing them. -/
def Op.apply (float : Op → UWord → UWord → UWord) : Op → UWord → UWord → UWord
  | .iadd, x, y => x + y
  | .isub, x, y => x - y
  | .imul, x, y => x * y
  | .and, x, y => x &&& y
  | .or, x, y => x ||| y
  | .xor, x, y => x ^^^ y
  | .shl, x, y => x <<< (y.toNat % 32)
  | .shr, x, y => x >>> (y.toNat % 32)
  | .asr, x, y => x.sshiftRight (y.toNat % 32)
  | .imin, x, y => if x.toInt ≤ y.toInt then x else y
  | .imax, x, y => if x.toInt ≤ y.toInt then y else x
  | .umin, x, y => if x.toNat ≤ y.toNat then x else y
  | .umax, x, y => if x.toNat ≤ y.toNat then y else x
  | .ieq, x, y => boolean (x = y)
  | .ine, x, y => boolean (x ≠ y)
  | .ilt, x, y => boolean (x.toInt < y.toInt)
  | .ult, x, y => boolean (x.toNat < y.toNat)
  | .feq, x, y => boolean (Single.Equal x y)
  | .fne, x, y => boolean (¬Single.Equal x y)
  | .flt, x, y => boolean (Single.Less x y)
  | .fge, x, y => boolean (Single.AtMost y x)
  | .ftz, x, y => if x &&& y = 0 then 0 else x
  | .fzeq, x, y => boolean (x &&& y = 0)
  | .fzne, x, y => boolean (x &&& y ≠ 0)
  | op, x, y => float op x y

/-- The word of a node, given those of the nodes before it. -/
def Node.word (inputs : Inputs) (words : ℕ → UWord) : Node → UWord
  | .uniform u => inputs.uniform u
  | .binary op a b => op.apply inputs.float (words a) (words b)
  | .texture s t component group => inputs.texel group component (words s) (words t)
  | .select mask a b => if words mask ≠ 0 then words a else words b

/-- The word of a node in the graph. -/
def State.word (inputs : Inputs) (s : State) (node : ℕ) : UWord := result (Node.word inputs) 0 s.nodes node

/-- The snapshot and the constants of the inputs are the same as far as the compilation relies on them. -/
def Agrees (word : ℕ × UWord → UWord) (inputs : Inputs) (s : State) : Prop := ∀ k ∈ s.reliedOn, inputs.constant k = word k

/-- All zero or all one bits. -/
def Mask (x : UWord) : Prop := x = 0 ∨ x = 0xffffffff

/-! ### States -/

/-- A node of the graph that is a mask for all inputs. -/
def MaskNode (word : ℕ × UWord → UWord) (s : State) (node : ℕ) : Prop :=
  node < s.nodes.length ∧ ∀ inputs, Agrees word inputs s → Mask (s.word inputs node)

namespace State

variable (s : State)

/-- A register names the node. -/
def Names (node : ℕ) : Prop :=
  (∃ register ∈ s.temps, ∃ c, register c = some node) ∨
    (∃ k, ∃ register ∈ (s.indexable k).values, ∃ c, register c = some node) ∨ ∃ k c, s.outputs k c = some node

/-- The node tells which lanes are active or have returned, or it is kept for an open block. -/
def Lanes (m : ℕ) : Prop :=
  s.activeMask = some m ∨ s.returnedMask = some m ∨ ∃ branch ∈ s.branches, branch.condition = m ∨ branch.parent = some m

end State

/-- What a compilation keeps: nodes stand behind their operands, known expressions are there, marked nodes are masks,
registers name nodes, lanes are told by masks, declarations are bounded, and the table is as large as the constant
buffer it holds. -/
structure Sound (word : ℕ × UWord → UWord) (s : State) : Prop where
  ordered : ∀ i (n : Node), s.nodes[i]? = some n → ∀ j ∈ n.operands, j < i
  shared : ∀ op a b i, s.expressions (op, a, b) = some i → s.nodes[i]? = some (.binary op a b)
  small : s.nodes.length ≤ 65536
  marked : ∀ i, s.maskNodes i = true → MaskNode word s i
  registers : ∀ i, s.Names i → i < s.nodes.length
  lanes : ∀ m, s.Lanes m → MaskNode word s m
  arrays : ∀ k, (s.indexable k).values.length ≤ 4096
  sizes : ∀ k, s.constantSizes k ≤ 4096
  table : ∀ k, s.constantSlot = some k →
    k < 14 ∧ 0 < s.constantSizes k ∧ s.constantSizes k ≤ 1024 ∧ s.constantWords = tableWords (s.constantSizes k)

/-- What building the graph leaves alone: registers, declarations and lanes. -/
def State.frame (s : State) : State :=
  { s with
    reader := [], nodes := [], maskNodes := fun _ => false, expressions := fun _ => none, specialized := []
    bindings := [], lookups := [], constantSlot := none, constantWords := 0 }

/-- A later state of a compilation; a quiet one has only built. -/
structure Later (quiet : Prop) (s t : State) : Prop where
  nodes : s.nodes <+: t.nodes
  masks : ∀ i, s.maskNodes i = true → t.maskNodes i = true
  relied : s.reliedOn ⊆ t.reliedOn
  lookups : s.lookups <+: t.lookups
  sizes : ∀ k, s.constantSizes k ≠ 0 → t.constantSizes k = s.constantSizes k
  slot : ∀ k, s.constantSlot = some k → t.constantSlot = some k
  frame : quiet → t.frame = s.frame

/-- The node is in the graph and its word is known. -/
structure Has (word : ℕ × UWord → UWord) (s : State) (node : ℕ) (f : Inputs → UWord) : Prop where
  lt : node < s.nodes.length
  word : ∀ inputs, Agrees word inputs s → s.word inputs node = f inputs

/-- A step of the compilation. -/
abbrev Builds {α : Type} (quiet : Prop) (word : ℕ × UWord → UWord) (s : State) (x : Compile α) (Q : α → State → Prop) : Prop :=
  Advances word (Sound word) (Later quiet) s x Q

section States

variable {q : Prop} {word : ℕ × UWord → UWord} {inputs : Inputs} {s t v : State} {f g : Inputs → UWord} {i : ℕ}

theorem Later.refl (s : State) : Later q s s where
  nodes := List.prefix_rfl
  masks _ := id
  relied := subset_rfl
  lookups := List.prefix_rfl
  sizes _ _ := rfl
  slot _ := id
  frame _ := rfl

theorem Later.trans (h : Later q s t) (h' : Later q t v) : Later q s v where
  nodes := h.nodes.trans h'.nodes
  masks i m := h'.masks i (h.masks i m)
  relied := h.relied.trans h'.relied
  lookups := h.lookups.trans h'.lookups
  sizes k declared := by
    have same := h.sizes k declared
    rw [h'.sizes k (same ▸ declared), same]
  slot k at_ := h'.slot k (h.slot k at_)
  frame quiet := (h'.frame quiet).trans (h.frame quiet)

theorem Later.loud (h : Later True s t) : Later q s t := { h with frame := fun _ => h.frame trivial }

theorem Agrees.mono (h : Agrees word inputs t) (ext : Later q s t) : Agrees word inputs s := fun k mem => h k (ext.relied mem)

theorem Later.length_le (h : Later q s t) : s.nodes.length ≤ t.nodes.length := h.nodes.length_le

theorem Later.word_eq (h : Later q s t) (lt : i < s.nodes.length) : t.word inputs i = s.word inputs i :=
  result_extended h.nodes lt

/-- Nodes stay in the graph as they are. -/
theorem Has.mono (h : Has word s i f) (ext : Later q s t) : Has word t i f :=
  ⟨h.lt.trans_le ext.length_le, fun inputs agrees => (ext.word_eq h.lt).trans (h.word inputs (agrees.mono ext))⟩

theorem MaskNode.mono (h : MaskNode word s i) (ext : Later q s t) : MaskNode word t i :=
  ⟨h.1.trans_le ext.length_le, fun inputs agrees => (ext.word_eq h.1).symm ▸ h.2 inputs (agrees.mono ext)⟩

theorem Has.congr (h : Has word s i f) (same : ∀ inputs, Agrees word inputs s → f inputs = g inputs) : Has word s i g :=
  ⟨h.lt, fun inputs agrees => (h.word inputs agrees).trans (same inputs agrees)⟩

theorem has_self (lt : i < s.nodes.length) : Has word s i fun inputs => s.word inputs i := ⟨lt, fun _ _ => rfl⟩

/-- The word of a node is made of the words of its operands. -/
theorem Sound.word_eq (h : Sound word s) {n : Node} (at_ : s.nodes[i]? = some n) :
    s.word inputs i = n.word inputs (s.word inputs) := by
  refine result_eq at_ fun f g same => ?_
  have before := h.ordered i n at_
  cases n with
  | uniform u => rfl
  | binary op a b => simp only [Node.word, same a (before a (by simp [Node.operands])), same b (before b (by simp [Node.operands]))]
  | texture u v component group =>
    simp only [Node.word, same u (before u (by simp [Node.operands])), same v (before v (by simp [Node.operands]))]
  | select mask a b =>
    simp only [Node.word, same mask (before mask (by simp [Node.operands])), same a (before a (by simp [Node.operands])),
      same b (before b (by simp [Node.operands]))]

theorem sound_initial : Sound word .initial where
  ordered := by simp [State.initial]
  shared := by simp [State.initial]
  small := by simp [State.initial]
  marked := by simp [State.initial]
  registers := by simp [State.initial, State.Names, Register.missing]
  lanes := by simp [State.initial, State.Lanes]
  arrays := by simp [State.initial]
  sizes := by simp [State.initial]
  table := by simp [State.initial]

end States

/-! ### Steps -/

/-- From any state a node of the graph is given, and nothing else is changed. -/
def Gives (word : ℕ × UWord → UWord) (x : Compile ℕ) : Prop := ∀ s, Builds True word s x fun r t => r < t.nodes.length

namespace Builds

variable {α β : Type} {q : Prop} {word : ℕ × UWord → UWord} {s : State} {x : Compile α} {Q : α → State → Prop} {f : α → Compile β}
  {S : β → State → Prop}

theorem quiet (h : Builds True word s x Q) : Builds q word s x Q := Advances.relax Later.loud h

theorem pure {a : α} (h : Q a s) : Builds q word s (Pure.pure a : Compile α) Q := Advances.pure Later.refl h

theorem fail {message : String} : Builds q word s (Tracked.fail message : Compile α) Q := Advances.fail Later.refl

theorem bind (hx : Builds q word s x Q) (hf : ∀ a t, Later q s t → Q a t → Builds q word t (f a) S) :
    Builds q word s (x >>= f) S := Advances.bind Later.trans hx hf

/-- Two ways to a value, and what follows both. -/
theorem join {c : Prop} [Decidable c] {y : Compile α} (hx : c → Builds q word s x Q) (hy : ¬c → Builds q word s y Q)
    (hf : ∀ a t, Later q s t → Q a t → Builds q word t (f a) S) : Builds q word s (if c then x >>= f else y >>= f) S :=
  Advances.ite (fun h => bind (hx h) hf) fun h => bind (hy h) hf

theorem need {condition : Prop} [Decidable condition] {message : String} {Q : Unit → State → Prop} (h : condition → Q () s) :
    Builds q word s (Compile.need condition message) Q := Advances.reject Later.refl fun holds => h (not_not.mp holds)

theorem need_bind {condition : Prop} [Decidable condition] {message : String} {f : Unit → Compile β}
    (h : condition → Builds q word s (f ()) S) : Builds q word s (Compile.need condition message >>= f) S := by
  by_cases holds : condition
  · have passed : (Compile.need condition message >>= f) = f () := by
      rw [Compile.need, Tracked.reject, if_neg (not_not.mpr holds)]
      rfl
    rw [passed]
    exact h holds
  · exact Advances.bind Later.trans (need (Q := fun _ _ => False) holds) fun _ _ _ no => no.elim

theorem change {g : State → State} {h : ∀ s, (g s).specialized = s.specialized} {Q : Unit → State → Prop}
    (sound : Sound word s → Sound word (g s)) (ext : Later q s (g s)) (post : Q () (g s)) :
    Builds q word s (Compile.change g h) Q := Advances.modify Later.refl sound ext post

end Builds

theorem Gives.node {q : Prop} {word : ℕ × UWord → UWord} {x : Compile ℕ} (h : Gives word x) (s : State) :
    Builds q word s x fun r t => r < t.nodes.length := Builds.quiet (h s)

theorem Gives.bind {word : ℕ × UWord → UWord} {x : Compile ℕ} {f : ℕ → Compile ℕ} (hx : Gives word x)
    (hf : ∀ a, Gives word (f a)) : Gives word (x >>= f) := fun s => Builds.bind (hx s) fun a t _ _ => hf a t

end Pi5Drivers.Compiler
