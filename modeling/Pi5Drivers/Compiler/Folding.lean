import Pi5Drivers.Compiler.Values
import Pi5Drivers.Lib.Packing

/-! Folding of integer operations, simplification and reuse of nodes (`native/shader.cpp`, `Value`, `Binary`,
`NonZero`, `Not`, `AndMask`, `Ilt`, `Ult`, `Ieq` and `Select`). The node that is given for an operation has the word
of that operation, whatever the inputs are: where words of the snapshot were folded, they are relied on. -/

namespace Pi5Drivers.Compiler

open Abi Compile Tracked

variable {settings : Settings} {q : Prop} {word : ℕ × UWord → UWord} {s t : State} {a b i : ℕ} {x y : Inputs → UWord}

/-! ### Nodes -/

/-- The graph with one node more. -/
def State.snoc (s : State) (n : Node) : State := { s with nodes := s.nodes ++ [n] }

theorem later_snoc (s : State) (n : Node) : Later q s (s.snoc n) :=
  { Later.refl s with nodes := List.prefix_append _ _ }

theorem Sound.snoc (h : Sound word s) {n : Node} (before : ∀ j ∈ n.operands, j < s.nodes.length)
    (room : s.nodes.length < 65536) : Sound word (s.snoc n) := by
  have later : Later True s (s.snoc n) := later_snoc s n
  refine { h with
    ordered := fun i m at_ j mem => ?_
    shared := fun op a b i known => ?_
    small := ?_
    marked := fun i marked => (h.marked i marked).mono later
    registers := fun i named => (h.registers i named).trans_le later.length_le
    lanes := fun m mem => (h.lanes m mem).mono later }
  · rcases lt_or_ge i s.nodes.length with lt | ge
    · exact h.ordered i m ((List.getElem?_append_left lt).symm.trans at_) j mem
    · have last : (s.nodes ++ [n])[i]? = some m := at_
      rw [List.getElem?_append_right ge, List.getElem?_singleton] at last
      split at last
      · obtain rfl := Option.some.inj last
        exact (before j mem).trans_le ge
      · exact nomatch last
  · have old := h.shared op a b i known
    obtain ⟨lt, -⟩ := List.getElem?_eq_some_iff.mp old
    exact (List.getElem?_append_left lt).trans old
  · rw [State.snoc, List.length_append]
    exact room

theorem put_builds {n : Node} (before : ∀ j ∈ n.operands, j < s.nodes.length) :
    Builds q word s (put n) fun i t => i = s.nodes.length ∧ t = s.snoc n := by
  refine Advances.get_bind (Builds.need_bind fun room => ?_)
  refine Builds.bind (Q := fun _ t => t = s.snoc n) ?_ fun _ t _ eq => Builds.pure ⟨rfl, eq⟩
  exact Advances.modify Later.refl (fun sound => sound.snoc before room) (later_snoc s n) rfl

/-- A new node has its own word. -/
theorem put_has {n : Node} (before : ∀ j ∈ n.operands, j < s.nodes.length) :
    Builds q word s (put n) fun i t => Has word t i fun inputs => n.word inputs (s.word inputs) := by
  refine (put_builds before).weaken fun i t _ _ new => ?_
  obtain ⟨rfl, rfl⟩ := new
  refine ⟨by rw [State.snoc, List.length_append]; exact Nat.lt_succ_self _, fun inputs _ => ?_⟩
  exact Straightline.result_snoc

/-- A uniform in the graph. -/
theorem Sound.has_uniform (h : Sound word s) {u : Uniform} (at_ : s.nodes[i]? = some (.uniform u)) :
    Has word s i fun inputs => inputs.uniform u := ⟨(List.getElem?_eq_some_iff.mp at_).1, fun _ _ => h.word_eq at_⟩

theorem uniformAt_iff {u : Uniform} : s.uniformAt i = some u ↔ s.nodes[i]? = some (.uniform u) := by
  unfold State.uniformAt
  split
  · rename_i v same
    rw [same, Option.some.injEq, Option.some.injEq, Node.uniform.injEq]
  · rename_i other
    exact ⟨fun no => (nomatch no), fun at_ => absurd at_ (other u)⟩

theorem uniformNode_node (kind : UniformKind) (value : UWord) (slot : ℕ) :
    Builds q word s (uniformNode kind value slot) fun i t => t.nodes[i]? = some (.uniform ⟨kind, value, slot⟩) := by
  refine Advances.get_bind ?_
  split
  · rename_i i found
    refine Builds.pure ?_
    obtain ⟨lt, same, -⟩ := List.findIdx?_eq_some_iff_getElem.mp found
    rw [List.getElem?_eq_getElem lt, eq_of_beq same]
  · refine (put_builds (by simp [Node.operands])).weaken fun i t _ _ new => ?_
    obtain ⟨rfl, rfl⟩ := new
    exact List.getElem?_concat_length

theorem uniformNode_has (kind : UniformKind) (value : UWord) (slot : ℕ) :
    Builds q word s (uniformNode kind value slot) fun i t => Has word t i fun inputs => inputs.uniform ⟨kind, value, slot⟩ :=
  (uniformNode_node kind value slot).weaken fun _ _ sound _ at_ => sound.has_uniform at_

theorem literal_has (x : UWord) : Builds q word s (literal x) fun i t => Has word t i fun _ => x :=
  uniformNode_has .literal x 0

theorem Sound.has_bits (h : Sound word s) {value : UWord} (bits : s.bits i value = true) : Has word s i fun _ => value := by
  unfold State.bits at bits
  split at bits
  · rename_i u at_
    rw [Bool.and_eq_true, beq_iff_eq, beq_iff_eq] at bits
    refine (h.has_uniform (uniformAt_iff.mp at_)).congr fun inputs _ => ?_
    rw [Inputs.uniform, bits.1]
    exact bits.2
  · exact nomatch bits

/-- A negated node flips the sign bit of its operand. -/
theorem Sound.has_negated (h : Sound word s) {j : ℕ} (negated : s.negated i = some j) :
    j < i ∧ Has word s i fun inputs => s.word inputs j ^^^ 0x80000000#32 := by
  unfold State.negated at negated
  split at negated
  · rename_i a b at_
    have lt := (List.getElem?_eq_some_iff.mp at_).1
    have before := h.ordered i _ at_
    split at negated
    · rename_i sign
      obtain rfl := Option.some.inj negated
      refine ⟨before _ (by simp [Node.operands]), lt, fun inputs agrees => ?_⟩
      rw [h.word_eq at_, Node.word, Op.apply, (h.has_bits sign).word inputs agrees]
    · split at negated
      · rename_i sign
        obtain rfl := Option.some.inj negated
        refine ⟨before _ (by simp [Node.operands]), lt, fun inputs agrees => ?_⟩
        rw [h.word_eq at_, Node.word, Op.apply, (h.has_bits sign).word inputs agrees, BitVec.xor_comm]
      · cases negated
  · cases negated

/-! ### Known words -/

/-- The state with other words that are relied on. -/
def State.relyOn (s : State) (us : List Uniform) : State := { s with specialized := us }

theorem specialize_eq (s : State) (u : Uniform) : ∃ us, s.specialize u = s.relyOn us := by
  unfold State.specialize
  split
  · exact ⟨s.specialized, rfl⟩
  · exact ⟨_, rfl⟩

theorem later_specialize (s : State) (u : Uniform) : Later q s (s.specialize u) := by
  have relied := s.subset_specialize u
  obtain ⟨us, eq⟩ := specialize_eq s u
  rw [eq] at relied ⊢
  exact { Later.refl s with relied := relied }

theorem Sound.specialize (h : Sound word s) (u : Uniform) : Sound word (s.specialize u) := by
  have ext : Later True s (s.specialize u) := later_specialize s u
  obtain ⟨us, eq⟩ := specialize_eq s u
  rw [eq] at ext ⊢
  exact { h with marked := fun i marked => (h.marked i marked).mono ext, lanes := fun m mem => (h.lanes m mem).mono ext }

/-- The word of a literal is what it is for all inputs that the compilation may rely on. -/
theorem value_has (node : ℕ) : Builds q word s (value settings node) fun x t => Has word t node fun _ => x := by
  refine Advances.given fun sound => Advances.get_bind (Builds.need_bind fun known => ?_)
  split
  · rename_i u at_
    have has := sound.has_uniform (uniformAt_iff.mp at_)
    refine Advances.ite (fun literal => ?_) fun other => ?_
    · refine Builds.pure (has.congr fun inputs _ => ?_)
      rw [Inputs.uniform, literal]
    · have constant : u.kind = .constantBuffer := by
        simp only [State.isLiteral, at_, Bool.or_eq_true, Bool.and_eq_true, beq_iff_eq, other, false_or] at known
        exact known.2
      refine Advances.look Later.refl (fun sound => sound.specialize u) (later_specialize s u) ?_
      refine (has.mono (later_specialize (q := q) s u)).congr fun inputs agrees => ?_
      rw [Inputs.uniform, constant]
      exact agrees _ (s.mem_specialize u)
  · exact Builds.fail

theorem shiftAmount_eq (y : UWord) : shiftAmount y = y.toNat % 32 := by
  rw [shiftAmount, BitVec.toNat_and]
  exact Nat.and_two_pow_sub_one_eq_mod _ 5

/-- With the sign bit flipped, words are in the order of their signed numbers. -/
theorem flip_lt (x y : UWord) : x ^^^ 0x80000000#32 < y ^^^ 0x80000000#32 ↔ x.toInt < y.toInt := by
  have flip (x : UWord) := Single.toNat_negated x
  simp only [Single.negated] at flip
  rw [BitVec.lt_def, flip, flip, BitVec.toInt_eq_toNat_cond, BitVec.toInt_eq_toNat_cond]
  have := x.isLt
  have := y.isLt
  split <;> split <;> split <;> split <;> omega

/-- Where two words are equal it does not matter which one is chosen. -/
theorem ite_lt_eq {α β : Type*} [LinearOrder α] {m n : α} {p q : β} (same : m = n → p = q) :
    (if m < n then p else q) = if m ≤ n then p else q := by
  rcases lt_trichotomy m n with lt | eq | gt
  · rw [if_pos lt, if_pos lt.le]
  · rw [if_neg (not_lt.mpr eq.ge), if_pos eq.le, same eq]
  · rw [if_neg gt.not_gt, if_neg gt.not_ge]

/-- Folded operations are computed as the QPU computes them. -/
theorem foldInteger_eq {float : Op → UWord → UWord → UWord} {op : Op} {x y z : UWord} (h : foldInteger op x y = some z) :
    z = op.apply float x y := by
  unfold foldInteger at h
  split at h <;> cases h
  all_goals simp only [Op.apply, shiftAmount_eq, flip_lt, gt_iff_lt]
  -- The operations that are left choose one of the words; the source compares them the other way round.
  · exact ite_lt_eq BitVec.eq_of_toInt_eq
  · rw [← ite_not]
    simp only [not_lt]
  · rw [← ite_not]
    simp only [BitVec.lt_def, not_lt]
  · simp only [BitVec.lt_def]
    exact ite_lt_eq fun same => (BitVec.eq_of_toNat_eq same).symm

/-! ### Operations -/

/-- The word of an operation on two nodes. -/
def State.operation (s : State) (op : Op) (a b : ℕ) (inputs : Inputs) : UWord :=
  op.apply inputs.float (s.word inputs a) (s.word inputs b)

/-- A node, if there is one, has the word of the operation. What the QPU's minimum and maximum give for a number and
itself is left open. -/
def Offers (word : ℕ × UWord → UWord) (s : State) (op : Op) (a b : ℕ) (r : Option ℕ) (t : State) : Prop :=
  ∀ i, r = some i → i < t.nodes.length ∧ (op ≠ .min → op ≠ .max → Has word t i (s.operation op a b))

theorem offers_none {op : Op} : Offers word s op a b none t := fun _ no => nomatch no

theorem Has.offers {op : Op} (h : Has word t i (s.operation op a b)) : Offers word s op a b (some i) t := by
  rintro _ rfl'
  obtain rfl := Option.some.inj rfl'
  exact ⟨h.lt, fun _ _ => h⟩

theorem folded_offers (op : Op) (inside : a < s.nodes.length ∧ b < s.nodes.length) :
    Builds q word s (folded settings op a b) (Offers word s op a b) := by
  refine Advances.get_bind (Advances.ite (fun _ => ?_) fun _ => Builds.pure offers_none)
  refine Builds.bind (value_has a) fun x t ext hx => Builds.bind (value_has b) fun y t' ext' hy => ?_
  split
  · rename_i z fold
    refine Builds.bind (literal_has z) fun i t'' ext'' hi => Builds.pure (Has.offers ?_)
    refine hi.congr fun inputs agrees => ?_
    have wordA := (hx.mono (ext'.trans ext'')).word inputs agrees
    have wordB := (hy.mono ext'').word inputs agrees
    rw [(ext.trans (ext'.trans ext'')).word_eq inside.1] at wordA
    rw [(ext.trans (ext'.trans ext'')).word_eq inside.2] at wordB
    rw [State.operation, wordA, wordB]
    exact foldInteger_eq fold
  · exact Builds.pure offers_none

/-- A node that is in the graph may be offered. -/
theorem Sound.offer_builds {op : Op} {c : ℕ} (lt : c < s.nodes.length)
    (same : ∀ inputs, Agrees word inputs s → s.word inputs c = s.operation op a b inputs) :
    Builds q word s (pure (some c)) (Offers word s op a b) := Builds.pure (Has.offers ⟨lt, same⟩)

theorem simplified_offers {op : Op} (inside : a < s.nodes.length ∧ b < s.nodes.length) :
    Builds q word s (simplified op a b) (Offers word s op a b) := by
  refine Advances.given fun sound => Advances.get_bind ?_
  by_cases bitwise : op = .and ∨ op = .or ∨ op = .xor
  swap
  · simp only [if_neg bitwise]
    refine Advances.ite (fun both => ?_) fun _ => Builds.pure offers_none
    obtain ⟨rfl | rfl | rfl | rfl | rfl | rfl, rfl⟩ := both
    · exact Builds.pure fun i same => ⟨Option.some.inj same ▸ inside.1, fun no => absurd rfl no⟩
    · exact Builds.pure fun i same => ⟨Option.some.inj same ▸ inside.1, fun _ no => absurd rfl no⟩
    all_goals exact Sound.offer_builds inside.1 fun inputs _ => (ite_self _).symm
  have known {c : ℕ} {value : UWord} (bits : s.bits c value = true) {inputs : Inputs} (agrees : Agrees word inputs s) :
      s.word inputs c = value := (sound.has_bits bits).word inputs agrees
  obtain rfl | rfl | rfl := bitwise <;> simp only [reduceCtorEq, ↓reduceIte, or_self, or_true, true_or, false_and]
  · refine Advances.ite (fun same => ?_) fun _ => ?_
    · subst same
      exact Sound.offer_builds inside.1 fun inputs _ => (BitVec.and_self).symm
    refine Advances.ite (fun zero => ?_) fun _ => Advances.ite (fun zero => ?_) fun _ => ?_
    · refine Sound.offer_builds inside.1 fun inputs agrees => ?_
      rw [State.operation, known zero agrees]
      exact (BitVec.zero_and).symm
    · refine Sound.offer_builds inside.2 fun inputs agrees => ?_
      rw [State.operation, known zero agrees]
      exact (BitVec.and_zero).symm
    refine Advances.ite (fun ones => ?_) fun _ => Advances.ite (fun ones => ?_) fun _ => Builds.pure offers_none
    · refine Sound.offer_builds inside.2 fun inputs agrees => ?_
      rw [State.operation, known ones agrees]
      exact (BitVec.allOnes_and).symm
    · refine Sound.offer_builds inside.1 fun inputs agrees => ?_
      rw [State.operation, known ones agrees]
      exact (BitVec.and_allOnes).symm
  · refine Advances.ite (fun same => ?_) fun _ => ?_
    · subst same
      exact Sound.offer_builds inside.1 fun inputs _ => (BitVec.or_self).symm
    refine Advances.ite (fun zero => ?_) fun _ => Advances.ite (fun zero => ?_) fun _ => ?_
    · refine Sound.offer_builds inside.2 fun inputs agrees => ?_
      rw [State.operation, known zero agrees]
      exact (BitVec.zero_or).symm
    · refine Sound.offer_builds inside.1 fun inputs agrees => ?_
      rw [State.operation, known zero agrees]
      exact (BitVec.or_zero).symm
    refine Advances.ite (fun ones => ?_) fun _ => Advances.ite (fun ones => ?_) fun _ => Builds.pure offers_none
    · refine Sound.offer_builds inside.1 fun inputs agrees => ?_
      rw [State.operation, known ones agrees]
      exact (BitVec.allOnes_or).symm
    · refine Sound.offer_builds inside.2 fun inputs agrees => ?_
      rw [State.operation, known ones agrees]
      exact (BitVec.or_allOnes).symm
  · refine Advances.ite (fun same => ?_) fun _ => ?_
    · subst same
      refine Builds.bind (literal_has 0#32) fun i t _ has => Builds.pure (Has.offers (has.congr fun inputs _ => ?_))
      exact (BitVec.xor_self).symm
    refine Advances.ite (fun zero => ?_) fun _ => Advances.ite (fun zero => ?_) fun _ => Builds.pure offers_none
    · refine Sound.offer_builds inside.2 fun inputs agrees => ?_
      rw [State.operation, known zero agrees]
      exact (BitVec.zero_xor).symm
    · refine Sound.offer_builds inside.1 fun inputs agrees => ?_
      rw [State.operation, known zero agrees]
      exact (BitVec.xor_zero).symm

/-- A known expression is noted under its own key. -/
theorem Sound.note (h : Sound word s) {op : Op} (at_ : s.nodes[i]? = some (.binary op a b)) :
    Sound word { s with expressions := Function.update s.expressions (op, a, b) (some i) } := by
  refine { h with shared := fun op' a' b' j known => ?_ }
  replace known : Function.update s.expressions (op, a, b) (some i) (op', a', b') = some j := known
  rw [Function.update_apply] at known
  split at known
  · rename_i same
    obtain ⟨rfl, rfl, rfl⟩ : op' = op ∧ a' = a ∧ b' = b := by simpa using same
    obtain rfl := Option.some.inj known
    exact at_
  · exact h.shared op' a' b' j known

/-- A node that is reused is the one that would be put. -/
theorem shared_node (op : Op) (inside : a < s.nodes.length ∧ b < s.nodes.length) :
    Builds q word s (shared settings op a b) fun r t => t.nodes[r]? = some (.binary op a b) := by
  have before : ∀ j ∈ (Node.binary op a b).operands, j < s.nodes.length := by
    simpa [Node.operands] using inside
  have new : (s.snoc (.binary op a b)).nodes[s.nodes.length]? = some (.binary op a b) := List.getElem?_concat_length
  have insert : Builds q word s (do
      let result ← put (.binary op a b)
      change fun s => { s with expressions := Function.update s.expressions (op, a, b) (some result) }
      return result) fun r t => t.nodes[r]? = some (.binary op a b) := by
    refine Builds.bind (put_builds before) fun r t _ put => ?_
    obtain ⟨rfl, rfl⟩ := put
    refine Builds.bind (Q := fun _ t => t.nodes = (s.snoc (.binary op a b)).nodes) ?_ fun _ t _ nodes => Builds.pure (nodes ▸ new)
    exact Advances.modify Later.refl (fun sound => sound.note new) { Later.refl _ with } rfl
  refine Advances.given fun sound => Advances.get_bind (Advances.ite (fun _ => ?_) fun _ => ?_)
  · refine (put_builds before).weaken fun r t _ _ put => ?_
    obtain ⟨rfl, rfl⟩ := put
    exact new
  · split
    · rename_i found known
      exact Advances.ite (fun _ => Builds.pure (sound.shared op a b found known)) fun _ => insert
    · exact insert

theorem shared_has (op : Op) (inside : a < s.nodes.length ∧ b < s.nodes.length) :
    Builds q word s (shared settings op a b) fun r t => Has word t r (s.operation op a b) := by
  refine (shared_node op inside).weaken fun r t sound ext at_ => ⟨(List.getElem?_eq_some_iff.mp at_).1, fun inputs _ => ?_⟩
  rw [sound.word_eq at_, Node.word, ext.word_eq inside.1, ext.word_eq inside.2]
  rfl

/-- A negated summand is subtracted; no other operation is exchanged for another one. -/
theorem subtraction_inside (sound : Sound word s) (op : Op) (inside : a < s.nodes.length ∧ b < s.nodes.length) :
    (subtraction s op a b).2.1 < s.nodes.length ∧ (subtraction s op a b).2.2 < s.nodes.length := by
  unfold subtraction
  split
  · split
    · rename_i y _ negated
      exact ⟨inside.1, (sound.has_negated negated).1.trans inside.2⟩
    · rename_i x _ negated
      exact ⟨inside.2, (sound.has_negated negated).1.trans inside.1⟩
    · exact inside
  · exact inside

theorem subtraction_eq {op : Op} (h : op ≠ .add) : subtraction s op a b = (op, a, b) := if_neg h

/-- What is done with an operation that folding may have settled. -/
theorem settled_builds {op : Op} {result : Option ℕ} {R : ℕ → State → Prop} (inside : a < s.nodes.length ∧ b < s.nodes.length)
    (settled : ∀ r, result = some r → R r s) (made : ∀ {r : ℕ} {t v : State}, Later q s t →
      (r < v.nodes.length ∧ (op ≠ .min → op ≠ .max → Has word v r (t.operation op a b))) → R r v) :
    Builds q word s (match result with
      | some result => return result
      | none => do
        match ← simplified op a b with
        | some result => return result
        | none => shared settings op a b) R := by
  cases result with
  | some r => exact Builds.pure (settled r rfl)
  | none =>
    refine Builds.bind (simplified_offers inside) fun result t ext offers => ?_
    cases result with
    | some r => exact Builds.pure (made (Later.refl s) (offers r rfl))
    | none =>
      refine (shared_has op ⟨inside.1.trans_le ext.length_le, inside.2.trans_le ext.length_le⟩).weaken fun r u _ _ has => ?_
      exact made ext ⟨has.lt, fun _ _ => has⟩

/-- **Folding, simplification and reuse keep the words.** -/
theorem binary_has (op : Op) (a b : ℕ) (fold : Bool) : Builds q word s (binary settings op a b fold) fun r t =>
    a < s.nodes.length ∧ b < s.nodes.length ∧ r < t.nodes.length ∧
      (subtraction s op a b = (op, a, b) → op ≠ .min → op ≠ .max → Has word t r (s.operation op a b)) := by
  refine Advances.given fun sound => Advances.get_bind (Builds.need_bind fun inside => ?_)
  have inside' := subtraction_inside sound op inside
  rcases changed : subtraction s op a b with ⟨op', a', b'⟩
  rw [changed] at inside'
  have finish {r : ℕ} {t v : State} (ext : Later q s t) (offers : r < v.nodes.length ∧
      (op' ≠ .min → op' ≠ .max → Has word v r (t.operation op' a' b'))) : a < s.nodes.length ∧ b < s.nodes.length ∧
      r < v.nodes.length ∧ ((op', a', b') = (op, a, b) → op ≠ .min → op ≠ .max → Has word v r (s.operation op a b)) := by
    refine ⟨inside.1, inside.2, offers.1, ?_⟩
    rintro ⟨⟩ min max
    refine (offers.2 min max).congr fun inputs _ => ?_
    rw [State.operation, State.operation, ext.word_eq inside.1, ext.word_eq inside.2]
  cases fold with
  | true =>
    refine Builds.bind (folded_offers op' inside') fun result t ext offers => ?_
    exact settled_builds ⟨inside'.1.trans_le ext.length_le, inside'.2.trans_le ext.length_le⟩
      (fun r same => finish (Later.refl s) (offers r same)) fun later made => finish (ext.trans later) made
  | false => exact settled_builds inside' (fun r same => finish (Later.refl s) (offers_none r same)) finish

/-- An operation that neither adds nor takes the minimum or maximum of floats. -/
def Op.Kept (op : Op) : Prop := op ≠ .add ∧ op ≠ .min ∧ op ≠ .max

instance (op : Op) : Decidable op.Kept := inferInstanceAs (Decidable (_ ∧ _ ∧ _))

theorem binary_kept {op : Op} (kept : op.Kept) (ha : Has word s a x) (hb : Has word s b y) (fold : Bool) :
    Builds q word s (binary settings op a b fold) fun r t =>
      Has word t r fun inputs => op.apply inputs.float (x inputs) (y inputs) := by
  refine (binary_has op a b fold).weaken fun r t _ ext result => ?_
  refine (result.2.2.2 (subtraction_eq kept.1) kept.2.1 kept.2.2).congr fun inputs agrees => ?_
  rw [State.operation, ha.word inputs (agrees.mono ext), hb.word inputs (agrees.mono ext)]

/-- An operation that is neither folded nor simplified. -/
def Op.Plain (op : Op) : Prop :=
  foldInteger op 0#32 0#32 = none ∧ ¬(op = .and ∨ op = .or ∨ op = .xor) ∧
    ¬(op = .min ∨ op = .max ∨ op = .imin ∨ op = .imax ∨ op = .umin ∨ op = .umax)

instance (op : Op) : Decidable op.Plain := inferInstanceAs (Decidable (_ ∧ _ ∧ _))

theorem binary_node {op : Op} (plain : op.Plain) (same : subtraction s op a b = (op, a, b)) :
    Builds q word s (binary settings op a b) fun r t => t.nodes[r]? = some (.binary op a b) := by
  refine Advances.get_bind (Builds.need_bind fun inside => ?_)
  rw [same]
  have unfolded : Builds q word s (folded settings op a b) fun r t => r = none := by
    refine Advances.get_bind (Advances.ite (fun fold => ?_) fun _ => Builds.pure rfl)
    rw [plain.1] at fold
    exact nomatch fold.2.2
  refine Builds.bind unfolded fun r t ext none => ?_
  subst none
  have kept : Builds q word t (simplified op a b) fun r t => r = none := by
    refine Advances.get_bind ?_
    simp only [if_neg plain.2.1]
    refine Advances.ite (fun both => absurd both.1 plain.2.2) fun _ => Builds.pure rfl
  refine Builds.bind kept fun r t' ext' none => ?_
  subst none
  exact shared_node op ⟨inside.1.trans_le (ext.trans ext').length_le, inside.2.trans_le (ext.trans ext').length_le⟩

theorem binary_plain {op : Op} (plain : op.Plain) (same : subtraction s op a b = (op, a, b)) (ha : Has word s a x)
    (hb : Has word s b y) : Builds q word s (binary settings op a b) fun r t =>
      t.nodes[r]? = some (.binary op a b) ∧ Has word t r fun inputs => op.apply inputs.float (x inputs) (y inputs) := by
  refine (binary_node plain same).weaken fun r t sound ext at_ => ⟨at_, (List.getElem?_eq_some_iff.mp at_).1, fun inputs agrees => ?_⟩
  rw [sound.word_eq at_, Node.word, (ha.mono ext).word inputs agrees, (hb.mono ext).word inputs agrees]

/-! ### Masks -/

theorem mask_boolean (p : Prop) [Decidable p] : Mask (boolean p) := by
  unfold boolean
  split
  · exact .inr rfl
  · exact .inl rfl

theorem boolean_ne_zero {p : Prop} [Decidable p] : boolean p ≠ 0 ↔ p := by
  unfold boolean
  split
  · rename_i holds
    exact ⟨fun _ => holds, fun _ => by decide⟩
  · rename_i fails
    exact ⟨fun no => absurd rfl no, fun holds => absurd holds fails⟩

theorem Mask.not {x : UWord} (h : Mask x) : Mask (x ^^^ 0xffffffff) := by
  obtain rfl | rfl := h
  · exact .inr rfl
  · exact .inl rfl

theorem Mask.and {x y : UWord} (h : Mask x) (h' : Mask y) : Mask (x &&& y) := by
  obtain rfl | rfl := h <;> obtain rfl | rfl := h' <;> first | exact .inl rfl | exact .inr rfl

theorem Mask.or {x y : UWord} (h : Mask x) (h' : Mask y) : Mask (x ||| y) := by
  obtain rfl | rfl := h <;> obtain rfl | rfl := h' <;> first | exact .inl rfl | exact .inr rfl

/-- A mask is its own test. -/
theorem Mask.boolean {x : UWord} (h : Mask x) : Compiler.boolean (x ≠ 0) = x := by
  obtain rfl | rfl := h <;> rfl

/-- The state with one mark more. -/
theorem Sound.mark (h : Sound word s) (has : Has word s i x) (masks : ∀ inputs, Agrees word inputs s → Mask (x inputs)) :
    Sound word { s with maskNodes := Function.update s.maskNodes i true } := by
  refine { h with marked := fun j marked => ?_ }
  replace marked : Function.update s.maskNodes i true j = true := marked
  rw [Function.update_apply] at marked
  split at marked
  · rename_i same
    subst same
    exact ⟨has.lt, fun inputs agrees => (has.word inputs agrees).symm ▸ masks inputs agrees⟩
  · exact h.marked j marked

theorem later_mark (s : State) (i : ℕ) : Later q s { s with maskNodes := Function.update s.maskNodes i true } := by
  refine { Later.refl s with masks := fun j marked => ?_ }
  change Function.update s.maskNodes i true j = true
  rw [Function.update_apply]
  split
  · rfl
  · exact marked

theorem mask_has (has : Has word s i x) (masks : ∀ inputs, Agrees word inputs s → Mask (x inputs)) :
    Builds q word s (mask i) fun r t => Has word t r x := by
  refine Builds.bind (Q := fun _ t => Has word t i x) ?_ fun _ t _ has => Builds.pure has
  exact Advances.modify Later.refl (fun sound => sound.mark has masks) (later_mark s i) (has.mono (later_mark (q := q) s i))

/-- A comparison gives a mask, whether it is decided now or later. -/
theorem compare_has (op : Op) (holds : UWord → UWord → Bool) (kept : op.Kept)
    (same : ∀ float x y, op.apply float x y = boolean (holds x y)) (ha : Has word s a x) (hb : Has word s b y) :
    Builds q word s (compare settings op holds a b) fun r t => Has word t r fun inputs => boolean (holds (x inputs) (y inputs)) := by
  refine Advances.get_bind (Advances.ite (fun _ => ?_) fun _ => ?_)
  · refine Builds.bind (value_has a) fun x' t ext hx => Builds.bind (value_has b) fun y' t' ext' hy => ?_
    refine (literal_has _).weaken fun r t'' _ ext'' has => has.congr fun inputs agrees => ?_
    have wordA := ((ha.mono (ext.trans (ext'.trans ext''))).word inputs agrees).symm.trans
      ((hx.mono (ext'.trans ext'')).word inputs agrees)
    have wordB := ((hb.mono (ext.trans (ext'.trans ext''))).word inputs agrees).symm.trans ((hy.mono ext'').word inputs agrees)
    rw [wordA, wordB]
  · refine Builds.bind (binary_kept kept ha hb true) fun r t _ has => ?_
    exact mask_has (has.congr fun inputs _ => same _ _ _) fun inputs _ => mask_boolean _

theorem ilt_has (ha : Has word s a x) (hb : Has word s b y) : Builds q word s (ilt settings a b) fun r t =>
    Has word t r fun inputs => boolean ((x inputs).toInt < (y inputs).toInt) := by
  have exact_ (x y : UWord) : boolean (x.toInt < y.toInt) = boolean (decide (x ^^^ 0x80000000#32 < y ^^^ 0x80000000#32) = true) := by
    simp only [boolean, decide_eq_true_eq, flip_lt]
  refine (compare_has .ilt (fun x y => x ^^^ 0x80000000#32 < y ^^^ 0x80000000#32) (by decide) (fun _ => exact_) ha hb).weaken fun r t _ _ has => ?_
  refine has.congr fun inputs _ => ?_
  exact (exact_ _ _).symm

theorem ult_has (ha : Has word s a x) (hb : Has word s b y) : Builds q word s (ult settings a b) fun r t =>
    Has word t r fun inputs => boolean ((x inputs).toNat < (y inputs).toNat) := by
  have exact_ (x y : UWord) : boolean (x.toNat < y.toNat) = boolean (decide (x < y) = true) := by
    simp only [boolean, decide_eq_true_eq, BitVec.lt_def]
  refine (compare_has .ult (fun x y => x < y) (by decide) (fun _ => exact_) ha hb).weaken fun r t _ _ has => ?_
  refine has.congr fun inputs _ => ?_
  exact (exact_ _ _).symm

theorem ieq_has (ha : Has word s a x) (hb : Has word s b y) : Builds q word s (ieq settings a b) fun r t =>
    Has word t r fun inputs => boolean (x inputs = y inputs) := by
  have exact_ (x y : UWord) : boolean (x = y) = boolean ((x == y) = true) := by
    simp only [boolean, beq_iff_eq]
  refine (compare_has .ieq (fun x y => x == y) (by decide) (fun _ => exact_) ha hb).weaken fun r t _ _ has => ?_
  refine has.congr fun inputs _ => ?_
  exact (exact_ _ _).symm

/-- The test of a word for not being zero. -/
theorem nonZero_has (ha : Has word s a x) : Builds q word s (nonZero settings a) fun r t =>
    Has word t r fun inputs => boolean (x inputs ≠ 0) := by
  refine Advances.given fun sound => Advances.get_bind (Advances.ite (fun marked => Builds.pure ?_) fun _ => ?_)
  · refine ha.congr fun inputs agrees => ?_
    rw [← ha.word inputs agrees]
    exact (((sound.marked a marked).2 inputs agrees).boolean).symm
  refine Advances.ite (fun _ => ?_) fun _ => ?_
  · refine Builds.bind (value_has a) fun x' t ext hx => ?_
    refine (literal_has _).weaken fun r t' _ ext' has => has.congr fun inputs agrees => ?_
    rw [((ha.mono (ext.trans ext')).word inputs agrees).symm.trans ((hx.mono ext').word inputs agrees)]
    rfl
  · refine Builds.bind (literal_has 0#32) fun z t ext hz => ?_
    refine Builds.bind (binary_kept (by decide) (ha.mono ext) hz true) fun r t' _ has => ?_
    exact mask_has has fun inputs _ => mask_boolean _

theorem not_has (ha : Has word s a x) (masks : ∀ inputs, Agrees word inputs s → Mask (x inputs)) :
    Builds q word s (Compiler.not settings a) fun r t => Has word t r fun inputs => x inputs ^^^ 0xffffffff := by
  refine Builds.bind (literal_has 0xffffffff#32) fun ones t ext ho => ?_
  refine Builds.bind (binary_kept (by decide) (ha.mono ext) ho true) fun r t' ext' has => ?_
  exact mask_has has fun inputs agrees => (masks inputs (agrees.mono (ext.trans ext'))).not

theorem andMask_has (ha : Has word s a x) (hb : Has word s b y) (masks : ∀ inputs, Agrees word inputs s → Mask (x inputs))
    (masks' : ∀ inputs, Agrees word inputs s → Mask (y inputs)) :
    Builds q word s (andMask settings a b) fun r t => Has word t r fun inputs => x inputs &&& y inputs := by
  refine Builds.bind (binary_kept (by decide) ha hb true) fun r t ext has => ?_
  exact mask_has has fun inputs agrees => (masks inputs (agrees.mono ext)).and (masks' inputs (agrees.mono ext))

/-! ### Selection -/

/-- The choice that a mask makes. -/
def choose (mask x y : UWord) : UWord := if mask ≠ 0 then x else y

theorem selectUnknown_has {c : ℕ} {m : Inputs → UWord} (hc : Has word s c m) (ha : Has word s a x) (hb : Has word s b y)
    (masks : ∀ inputs, Agrees word inputs s → Mask (m inputs)) :
    Builds q word s (selectUnknown settings c a b) fun r t =>
      Has word t r fun inputs => choose (m inputs) (x inputs) (y inputs) := by
  refine Advances.given fun sound => Advances.get_bind (Advances.ite (fun same => Builds.pure ?_) fun _ => ?_)
  · subst same
    refine ha.congr fun inputs agrees => ?_
    rw [choose, ← ha.word inputs agrees, hb.word inputs agrees, ite_self]
  refine Advances.ite (fun zero => ?_) fun _ => Advances.ite (fun zero => ?_) fun _ => ?_
  · refine Builds.bind (not_has hc masks) fun n t ext hn => ?_
    refine (binary_kept (by decide) (hb.mono ext) hn true).weaken fun r t' _ ext' has => has.congr fun inputs agrees => ?_
    have agrees' := agrees.mono (ext.trans ext')
    rw [← ha.word inputs agrees', (sound.has_bits zero).word inputs agrees']
    obtain m0 | m1 := masks inputs agrees'
    · simp only [Op.apply, choose, m0, ne_eq, not_true_eq_false, if_false]
      exact BitVec.and_allOnes
    · simp [Op.apply, choose, m1]
  · refine (binary_kept (by decide) ha hc true).weaken fun r t' _ ext has => has.congr fun inputs agrees => ?_
    have agrees' := agrees.mono ext
    rw [← hb.word inputs agrees', (sound.has_bits zero).word inputs agrees']
    obtain m0 | m1 := masks inputs agrees'
    · simp [Op.apply, choose, m0]
    · simp only [Op.apply, choose, m1]
      exact BitVec.and_allOnes
  · have select : Builds q word s (put (.select c a b)) fun r t =>
        Has word t r fun inputs => choose (m inputs) (x inputs) (y inputs) := by
      refine (put_has (by simp [Node.operands, hc.lt, ha.lt, hb.lt])).weaken fun r t _ ext has => has.congr fun inputs agrees => ?_
      have agrees' := agrees.mono ext
      rw [Node.word, hc.word inputs agrees', ha.word inputs agrees', hb.word inputs agrees']
      rfl
    split
    · rename_i u v test
      refine Advances.ite (fun zero => ?_) fun _ => select
      have before := sound.ordered _ _ test
      have lt : u < s.nodes.length := (before u (by simp [Node.operands])).trans hc.lt
      refine (put_has (by simp [Node.operands, lt, ha.lt, hb.lt])).weaken fun r t _ ext has => has.congr fun inputs agrees => ?_
      have agrees' := agrees.mono ext
      have tested : m inputs = boolean (s.word inputs u ≠ 0) := by
        rw [← hc.word inputs agrees', sound.word_eq test, Node.word, Op.apply, (sound.has_bits zero).word inputs agrees']
        rfl
      rw [Node.word, ha.word inputs agrees', hb.word inputs agrees', choose, tested]
      simp only [boolean_ne_zero]
    · exact select

/-- **Selection.** A mask that is known chooses at once, a zero turns the choice into a bit operation, and the test
of a word for not being zero is left to the copy. -/
theorem select_has {c : ℕ} {m : Inputs → UWord} (hc : Has word s c m) (ha : Has word s a x) (hb : Has word s b y)
    (masks : ∀ inputs, Agrees word inputs s → Mask (m inputs)) :
    Builds q word s (select settings c a b) fun r t => Has word t r fun inputs => choose (m inputs) (x inputs) (y inputs) := by
  refine Advances.get_bind (Advances.ite (fun _ => ?_) fun _ => selectUnknown_has hc ha hb masks)
  refine Builds.bind (value_has c) fun w t ext hw => ?_
  have known (inputs : Inputs) (agrees : Agrees word inputs t) : m inputs = w :=
    ((hc.mono ext).word inputs agrees).symm.trans (hw.word inputs agrees)
  refine Advances.ite (fun zero => Builds.pure ?_) fun _ => Advances.ite (fun ones => Builds.pure ?_) fun _ => ?_
  · refine (hb.mono ext).congr fun inputs agrees => ?_
    rw [choose, known inputs agrees, zero]
    rfl
  · refine (ha.mono ext).congr fun inputs agrees => ?_
    rw [choose, known inputs agrees, ones]
    rfl
  · exact selectUnknown_has (hc.mono ext) (ha.mono ext) (hb.mono ext) fun inputs agrees => masks inputs (agrees.mono ext)

/-! ### All operations -/

/-- Where the step succeeds its node has this word, for all inputs that agree with the snapshot as far as it was
relied on. -/
def Computes (word : ℕ × UWord → UWord) (s : State) (x : Compile ℕ) (f : Inputs → UWord) : Prop :=
  ∀ r t, x.run word s = (.ok r, t) → Sound word t ∧ Has word t r f

theorem Builds.computes {z : Compile ℕ} {f : Inputs → UWord} (sound : Sound word s) (h : Builds True word s z fun r t => Has word t r f) :
    Computes word s z f := by
  intro r t ran
  obtain ⟨-, kept, -, result⟩ := h sound
  rw [ran] at kept result
  exact ⟨kept, result r rfl⟩

/-- The number of an operation in the source. -/
def Op.number : Op → ℕ
  | .add => 1 | .sub => 2 | .iadd => 3 | .isub => 4 | .mul => 5 | .min => 6 | .max => 7 | .and => 8 | .or => 9 | .xor => 10
  | .itof => 11 | .utof => 12 | .ftoi => 13 | .ftou => 14 | .ftoin => 15 | .reciprocal => 16 | .shl => 18 | .shr => 19
  | .asr => 20 | .imin => 21 | .imax => 22 | .umin => 23 | .umax => 24 | .imul => 25 | .rsqrt => 26 | .round => 27
  | .trunc => 28 | .floor => 29 | .ceil => 30 | .fdx => 31 | .fdy => 32 | .feq => 33 | .fne => 34 | .flt => 35 | .fge => 36
  | .ieq => 37 | .ine => 38 | .ilt => 39 | .ult => 40 | .ftz => 41 | .fzeq => 42 | .fzne => 43

/-- The key of an expression in the source's table. -/
def expressionKey (op : Op) (a b : ℕ) : BitVec 64 :=
  BitVec.ofNat 64 op.number <<< 32 ||| BitVec.ofNat 64 a <<< 16 ||| BitVec.ofNat 64 b

theorem toNat_expressionKey (op : Op) (ha : a < 65536) (hb : b < 65536) :
    (expressionKey op a b).toNat = op.number * 2 ^ 32 + a * 2 ^ 16 + b := by
  have small : op.number < 44 := by cases op <;> decide
  have same {n : ℕ} (lt : n < 2 ^ 64) : (BitVec.ofNat 64 n).toNat = n := (BitVec.toNat_ofNat ..).trans (Nat.mod_eq_of_lt lt)
  have number : (BitVec.ofNat 64 op.number).toNat = op.number := same (by omega)
  have left : (BitVec.ofNat 64 a).toNat = a := same (by omega)
  have right : (BitVec.ofNat 64 b).toNat = b := same (by omega)
  have operands : (BitVec.ofNat 64 b ||| BitVec.ofNat 64 a <<< 16).toNat = b + 2 ^ 16 * a := by
    rw [toNat_or_shiftLeft (by omega) (by omega), left, right]
  rw [expressionKey, BitVec.or_assoc, BitVec.or_comm, BitVec.or_comm (BitVec.ofNat 64 a <<< 16),
    toNat_or_shiftLeft (by omega) (by omega), operands, number]
  omega

/-- Expressions of a graph have different keys. -/
theorem expressionKey_injective {op op' : Op} {a' b' : ℕ} (ha : a < 65536) (hb : b < 65536) (ha' : a' < 65536) (hb' : b' < 65536)
    (h : expressionKey op a b = expressionKey op' a' b') : op = op' ∧ a = a' ∧ b = b' := by
  have same := congrArg BitVec.toNat h
  rw [toNat_expressionKey op ha hb, toNat_expressionKey op' ha' hb'] at same
  have number : ∀ op op' : Op, op.number = op'.number → op = op' := by
    intro op op'
    cases op <;> cases op' <;> simp [Op.number]
  exact ⟨number _ _ (by omega), by omega, by omega⟩

/-- **Operations keep their values.** In a compilation, folding, simplification and reuse give a node with the word
of the operation on the words of its operands; a choice needs a mask. The table of known expressions tells all
expressions of the graph apart. -/
theorem operations_exact (settings : Settings) (sound : Sound word s) :
    (∀ op a b fold, op.Kept → Computes word s (binary settings op a b fold) (s.operation op a b)) ∧
    (∀ a < s.nodes.length, ∀ b < s.nodes.length,
      Computes word s (ilt settings a b) (s.operation .ilt a b) ∧ Computes word s (ult settings a b) (s.operation .ult a b) ∧
      Computes word s (ieq settings a b) (s.operation .ieq a b)) ∧
    (∀ a < s.nodes.length, Computes word s (nonZero settings a) fun inputs => boolean (s.word inputs a ≠ 0)) ∧
    (∀ m < s.nodes.length, (∀ inputs, Agrees word inputs s → Mask (s.word inputs m)) →
      Computes word s (Compiler.not settings m) (fun inputs => ~~~s.word inputs m) ∧
      (∀ m' < s.nodes.length, (∀ inputs, Agrees word inputs s → Mask (s.word inputs m')) →
        Computes word s (andMask settings m m') (s.operation .and m m')) ∧
      ∀ a < s.nodes.length, ∀ b < s.nodes.length,
        Computes word s (select settings m a b) fun inputs => if s.word inputs m ≠ 0 then s.word inputs a else s.word inputs b) ∧
    ∀ op op' a b a' b', a < s.nodes.length → b < s.nodes.length → a' < s.nodes.length → b' < s.nodes.length →
      expressionKey op a b = expressionKey op' a' b' → op = op' ∧ a = a' ∧ b = b' := by
  refine ⟨fun op a b fold kept => ?_, fun a ha b hb => ⟨?_, ?_, ?_⟩, fun a ha => ?_, fun m hm masks => ⟨?_, fun m' hm' masks' => ?_, fun a ha b hb => ?_⟩, ?_⟩
  · refine Builds.computes sound ((binary_has op a b fold).weaken fun r t _ _ result => ?_)
    exact result.2.2.2 (subtraction_eq kept.1) kept.2.1 kept.2.2
  · exact Builds.computes sound (ilt_has (has_self ha) (has_self hb))
  · exact Builds.computes sound (ult_has (has_self ha) (has_self hb))
  · exact Builds.computes sound (ieq_has (has_self ha) (has_self hb))
  · exact Builds.computes sound (nonZero_has (has_self ha))
  · refine Builds.computes sound ((not_has (has_self hm) masks).weaken fun r t _ _ has => has.congr fun inputs _ => ?_)
    exact BitVec.xor_allOnes
  · exact Builds.computes sound (andMask_has (has_self hm) (has_self hm') masks masks')
  · exact Builds.computes sound (select_has (has_self hm) (has_self ha) (has_self hb) masks)
  · intro op op' a b a' b' ha hb ha' hb'
    have small := sound.small
    exact expressionKey_injective (by omega) (by omega) (by omega) (by omega)

/-- The literals 3 and 4. -/
def twoLiterals : State := (State.initial.snoc (.uniform ⟨.literal, 3, 0⟩)).snoc (.uniform ⟨.literal, 4, 0⟩)

theorem twoLiterals_sound : Sound word twoLiterals :=
  (sound_initial.snoc (by simp [Node.operands]) (by decide)).snoc (by simp [Node.operands]) (by decide)

/-- Their sum is the literal 7. -/
theorem twoLiterals_sum : Computes (fun _ => 0) twoLiterals (binary ⟨.pixel, none, true, none, 64⟩ .iadd 0 1) fun _ => 7 := by
  intro r t ran
  obtain ⟨sound, has⟩ := (operations_exact ⟨.pixel, none, true, none, 64⟩ twoLiterals_sound).1 .iadd 0 1 true (by decide) r t ran
  exact ⟨sound, has.congr fun _ _ => rfl⟩

end Pi5Drivers.Compiler
