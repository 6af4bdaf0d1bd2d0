import Pi5Drivers.Compiler.Emit
import Pi5Drivers.Compiler.Folding
import Pi5Drivers.Qpu.Machine

/-! Float comparisons (`native/shader.cpp`, `FloatCompare`). Direct3D compares numbers after subnormals were flushed
to zero, the QPU compares them as they are. The compiler exchanges operands, moves the threshold to the smallest
numbers that have an exponent, or flushes the operands before they are compared. -/

namespace Pi5Drivers.Compiler

open Abi Compile Tracked Single

/-- The float comparisons of Direct3D, on flushed numbers. -/
def direct3D : Op → UWord → UWord → Prop
  | .feq, x, y => Equal (flushed x) (flushed y)
  | .fne, x, y => ¬Equal (flushed x) (flushed y)
  | .flt, x, y => Less (flushed x) (flushed y)
  | .fge, x, y => AtMost (flushed y) (flushed x)
  | _, _, _ => False

instance (op : Op) (x y : UWord) : Decidable (direct3D op x y) := by
  unfold direct3D
  split <;> infer_instance

def Op.comparesFloats (op : Op) : Prop := op = .feq ∨ op = .fne ∨ op = .flt ∨ op = .fge

variable {settings : Settings} {q : Prop} {word : ℕ × UWord → UWord} {s t : State} {op : Op} {a b i : ℕ} {x y : Inputs → UWord}
  {float : Op → UWord → UWord → UWord}

/-! ### Numbers -/

section Numbers

variable {v w : UWord}

theorem subnormal_iff (v : UWord) : subnormal v = true ↔ exponent v = 0 := by
  rw [subnormal, beq_iff_eq, exponent_mask]

theorem boolean_congr {p q : Prop} [Decidable p] [Decidable q] (h : p ↔ q) : boolean p = boolean q := by
  unfold boolean
  simp only [h]

/-- The flushed copy that the comparison uses. -/
theorem apply_ftz (v : UWord) : Op.apply float .ftz v 0x7f800000#32 = flushed v :=
  if_congr (exponent_mask v) rfl rfl

/-- Of flushed numbers the QPU's comparison is the one of Direct3D. -/
theorem apply_flushed (h : op.comparesFloats) : op.apply float (flushed v) (flushed w) = boolean (direct3D op v w) := by
  obtain rfl | rfl | rfl | rfl := h <;> rfl

/-- A number with an exponent on one side is enough. -/
theorem apply_normal (h : op.comparesFloats) (large : exponent v ≠ 0 ∨ exponent w ≠ 0) :
    op.apply float v w = boolean (direct3D op v w) := by
  obtain rfl | rfl | rfl | rfl := h
  · exact boolean_congr (equal_flushed large).symm
  · exact boolean_congr (equal_flushed large).symm.not
  · exact boolean_congr (less_flushed large).symm
  · exact boolean_congr (atMost_flushed large.symm).symm

/-- Comparisons in order with zero on the left. -/
theorem apply_zero_left (h : op = .flt ∨ op = .fge) (zero : exponent v = 0) :
    Op.apply float (if op = .flt then .fge else .flt) w 0x00800000#32 = boolean (direct3D op v w) := by
  have none : flushed v = 0 := if_pos zero
  obtain rfl | rfl := h
  · refine boolean_congr ?_
    rw [direct3D, none]
    exact (zero_less w).symm
  · refine boolean_congr ?_
    rw [direct3D, none]
    exact (atMost_zero w).symm

/-- Comparisons in order with zero on the right. -/
theorem apply_zero_right (h : op = .flt ∨ op = .fge) (zero : exponent w = 0) :
    Op.apply float (if op = .flt then .fge else .flt) 0x80800000#32 v = boolean (direct3D op v w) := by
  have none : flushed w = 0 := if_pos zero
  obtain rfl | rfl := h
  · refine boolean_congr ?_
    rw [direct3D, none]
    exact (less_zero v).symm
  · refine boolean_congr ?_
    rw [direct3D, none]
    exact (zero_atMost v).symm

theorem Equal.comm : Equal v w ↔ Equal w v :=
  ⟨fun h => ⟨h.2.1, h.1, h.2.2.symm⟩, fun h => ⟨h.2.1, h.1, h.2.2.symm⟩⟩

theorem direct3D_comm (h : op = .feq ∨ op = .fne) : direct3D op v w ↔ direct3D op w v := by
  obtain rfl | rfl := h
  · exact Equal.comm
  · exact Equal.comm.not

/-- Equality with zero is a test of the exponent. -/
theorem apply_zero_equal (h : op = .feq ∨ op = .fne) (zero : exponent w = 0) :
    Op.apply float (if op = .feq then .fzeq else .fzne) v 0x7f800000#32 = boolean (direct3D op v w) := by
  have none : flushed w = 0 := if_pos zero
  obtain rfl | rfl := h
  · refine boolean_congr ?_
    rw [direct3D, none]
    exact (exponent_mask v).trans (equal_zero v).symm
  · refine boolean_congr ?_
    rw [direct3D, none]
    exact ((exponent_mask v).trans (equal_zero v).symm).not

/-- A number compared with its negation is compared with zero. -/
theorem direct3D_negated (h : op.comparesFloats) (v : UWord) : direct3D op v (negated v) ↔ direct3D op v 0 := by
  obtain rfl | rfl | rfl | rfl := h
  · exact compared_negated v fun n => by omega
  · exact (compared_negated v fun n => by omega).not
  · exact compared_negated v fun n => by omega
  · exact negated_compared v fun n => by omega

theorem negated_direct3D (h : op.comparesFloats) (v : UWord) : direct3D op (negated v) v ↔ direct3D op 0 v := by
  obtain rfl | rfl | rfl | rfl := h
  · exact negated_compared v fun n => by omega
  · exact (negated_compared v fun n => by omega).not
  · exact negated_compared v fun n => by omega
  · exact compared_negated v fun n => by omega

end Numbers

/-! ### The rewrite -/

theorem Sound.has_fixed (sound : Sound word s) {v : UWord} (h : s.fixed i = some v) : Has word s i fun _ => v := by
  unfold State.fixed at h
  split at h
  · rename_i u at_
    split at h
    · rename_i literal
      refine (sound.has_uniform (uniformAt_iff.mp at_)).congr fun inputs _ => ?_
      rw [Inputs.uniform, literal]
      exact Option.some.inj h
    · cases h
  · cases h

theorem normal_has (ha : Has word s a x) : Builds q word s (normal settings a) fun r t =>
    Has word t r fun inputs => flushed (x inputs) := by
  have flush : Builds q word s (do binary settings .ftz a (← literal 0x7f800000#32)) fun r t =>
      Has word t r fun inputs => flushed (x inputs) := by
    refine Builds.bind (literal_has _) fun m t ext hm => ?_
    exact (binary_kept (by decide) (ha.mono ext) hm true).weaken fun r t' _ _ has => has.congr fun inputs _ => apply_ftz _
  refine Advances.given fun sound => Advances.get_bind ?_
  split
  · rename_i u at_
    have word_eq (inputs : Inputs) (agrees : Agrees word inputs s) : x inputs = inputs.uniform u :=
      (ha.word inputs agrees).symm.trans ((sound.has_uniform (uniformAt_iff.mp at_)).word inputs agrees)
    refine Advances.ite (fun literal => ?_) fun _ => Advances.ite (fun constant => ?_) fun _ => flush
    · refine Advances.ite (fun small => ?_) fun large => Builds.pure (ha.congr fun inputs agrees => ?_)
      · refine (literal_has _).weaken fun r t _ ext has => has.congr fun inputs agrees => ?_
        rw [word_eq inputs (agrees.mono ext), Inputs.uniform, literal]
        exact (if_pos ((subnormal_iff _).mp small)).symm
      · rw [word_eq inputs agrees, Inputs.uniform, literal]
        exact (if_neg fun small => large ((subnormal_iff _).mpr small)).symm
    · refine (uniformNode_has _ _ _).weaken fun r t _ ext has => has.congr fun inputs agrees => ?_
      rw [word_eq inputs (agrees.mono ext), Inputs.uniform, Inputs.uniform, constant]
  · exact flush

/-- A comparison that is emitted with the word it gives. -/
structure Tests (word : ℕ × UWord → UWord) (s : State) (node : ℕ) (f : Inputs → UWord) : Prop where
  has : Has word s node f
  node : ∃ op a b, op.test.isSome = true ∧ s.nodes[node]? = some (.binary op a b)

theorem Tests.congr {f g : Inputs → UWord} (h : Tests word s i f) (same : ∀ inputs, Agrees word inputs s → f inputs = g inputs) :
    Tests word s i g := ⟨h.has.congr same, h.node⟩

/-- Comparisons are neither folded nor simplified. -/
theorem binary_test (test : op.test.isSome = true) :
    Builds q word s (binary settings op a b) fun r t => t.nodes[r]? = some (.binary op a b) := by
  have plain : op ≠ .add ∧ op.Plain := by
    revert test
    cases op <;> decide
  exact binary_node plain.2 (subtraction_eq plain.1)

/-- A comparison is marked as a mask. -/
theorem compared_tests {c d : ℕ} {v w : Inputs → UWord} {p : Inputs → Prop} [∀ inputs, Decidable (p inputs)]
    (test : op.test.isSome = true) (hc : Has word s c v) (hd : Has word s d w)
    (same : ∀ inputs, Agrees word inputs s → op.apply inputs.float (v inputs) (w inputs) = boolean (p inputs)) :
    Builds q word s (do mask (← binary settings op c d)) fun r t => Tests word t r fun inputs => boolean (p inputs) := by
  refine Builds.bind (binary_test test) fun r t ext at_ => Advances.given fun sound => ?_
  have has : Has word t r fun inputs => boolean (p inputs) := by
    refine ⟨(List.getElem?_eq_some_iff.mp at_).1, fun inputs agrees => ?_⟩
    rw [sound.word_eq at_, Node.word, (hc.mono ext).word inputs agrees, (hd.mono ext).word inputs agrees]
    exact same inputs (agrees.mono ext)
  refine Builds.bind (Q := fun _ t' => t'.nodes = t.nodes) ?_ fun _ t' ext' nodes => Builds.pure ⟨has.mono ext', op, c, d, test, ?_⟩
  · exact Advances.modify Later.refl (fun sound => sound.mark has fun _ _ => mask_boolean _) (later_mark t r) rfl
  · rw [nodes, at_]

/-- Equality with a zero on either side. -/
theorem compareZero_equal (h : op = .feq ∨ op = .fne) {z : Inputs → UWord} (left : Bool) (ha : Has word s a x)
    (zero : ∀ inputs, Agrees word inputs s → exponent (z inputs) = 0) :
    Builds q word s (compareZero settings op left a) fun r t => Tests word t r fun inputs =>
      boolean (direct3D op (x inputs) (z inputs)) := by
  refine Advances.ite (fun _ => Builds.bind (literal_has _) fun m t ext hm => ?_) fun no => absurd h no
  refine compared_tests ?_ (ha.mono ext) hm fun inputs agrees => apply_zero_equal h (zero inputs (agrees.mono ext))
  obtain rfl | rfl := h <;> rfl

theorem compareZero_left (h : op.comparesFloats) {z : Inputs → UWord} (ha : Has word s a x)
    (zero : ∀ inputs, Agrees word inputs s → exponent (z inputs) = 0) :
    Builds q word s (compareZero settings op true a) fun r t => Tests word t r fun inputs =>
      boolean (direct3D op (z inputs) (x inputs)) := by
  by_cases equal : op = .feq ∨ op = .fne
  · refine (compareZero_equal equal true ha zero).weaken fun r t _ _ tests => tests.congr fun inputs _ => ?_
    exact boolean_congr (direct3D_comm equal)
  · have ordered : op = .flt ∨ op = .fge := by
      simp only [Op.comparesFloats] at h
      tauto
    refine Advances.ite (fun no => absurd no equal) fun _ => Builds.bind (literal_has _) fun m t ext hm => ?_
    refine compared_tests ?_ (ha.mono ext) hm fun inputs agrees => apply_zero_left ordered (zero inputs (agrees.mono ext))
    obtain rfl | rfl := ordered <;> rfl

theorem compareZero_right (h : op.comparesFloats) {z : Inputs → UWord} (ha : Has word s a x)
    (zero : ∀ inputs, Agrees word inputs s → exponent (z inputs) = 0) :
    Builds q word s (compareZero settings op false a) fun r t => Tests word t r fun inputs =>
      boolean (direct3D op (x inputs) (z inputs)) := by
  by_cases equal : op = .feq ∨ op = .fne
  · exact compareZero_equal equal false ha zero
  · have ordered : op = .flt ∨ op = .fge := by
      simp only [Op.comparesFloats] at h
      tauto
    refine Advances.ite (fun no => absurd no equal) fun _ => Builds.bind (literal_has _) fun m t ext hm => ?_
    refine compared_tests ?_ hm (ha.mono ext) fun inputs agrees => apply_zero_right ordered (zero inputs (agrees.mono ext))
    obtain rfl | rfl := ordered <;> rfl

theorem Op.comparesFloats.test (h : op.comparesFloats) : op.test.isSome = true := by
  obtain rfl | rfl | rfl | rfl := h <;> rfl

theorem compareFixed_tests (h : op.comparesFloats) (ha : Has word s a x) (hb : Has word s b y) :
    Builds q word s (compareFixed settings op a b) fun r t => Tests word t r fun inputs =>
      boolean (direct3D op (x inputs) (y inputs)) := by
  refine Advances.given fun sound => Advances.get_bind ?_
  have known {c : ℕ} {z : Inputs → UWord} {v : UWord} (hc : Has word s c z) (fixed : s.fixed c = some v) (inputs : Inputs)
      (agrees : Agrees word inputs s) : z inputs = v :=
    (hc.word inputs agrees).symm.trans ((sound.has_fixed fixed).word inputs agrees)
  have small {c : ℕ} {z : Inputs → UWord} (hc : Has word s c z) (fixed : (s.fixed c).any subnormal = true) (inputs : Inputs)
      (agrees : Agrees word inputs s) : exponent (z inputs) = 0 := by
    rcases at_ : s.fixed c with _ | v
    · rw [at_] at fixed
      exact nomatch fixed
    · rw [at_] at fixed
      rw [known hc at_ inputs agrees]
      exact (subnormal_iff v).mp fixed
  refine Advances.ite (fun left => compareZero_left h hb (small ha left)) fun left => ?_
  refine Advances.ite (fun right => compareZero_right h ha (small hb right)) fun right => ?_
  have large {c : ℕ} {z : Inputs → UWord} (hc : Has word s c z) (fixed : (s.fixed c).isSome = true)
      (notSmall : ¬(s.fixed c).any subnormal = true) (inputs : Inputs) (agrees : Agrees word inputs s) : exponent (z inputs) ≠ 0 := by
    obtain ⟨v, fixed⟩ := Option.isSome_iff_exists.mp fixed
    rw [known hc fixed inputs agrees]
    rw [fixed] at notSmall
    exact fun zero => notSmall ((subnormal_iff v).mpr zero)
  refine Advances.ite (fun fixed => ?_) fun _ => ?_
  · refine compared_tests h.test ha hb fun inputs agrees => apply_normal h ?_
    exact fixed.imp (large ha · left inputs agrees) (large hb · right inputs agrees)
  · refine Builds.bind (normal_has ha) fun c t ext hc => Builds.bind (normal_has (hb.mono ext)) fun d t' ext' hd => ?_
    exact compared_tests h.test (hc.mono ext') hd fun _ _ => apply_flushed h

theorem floatCompareWithin_tests (h : op.comparesFloats) (rewrites : ℕ) (ha : Has word s a x) (hb : Has word s b y) :
    Builds q word s (floatCompareWithin settings op rewrites a b) fun r t => Tests word t r fun inputs =>
      boolean (direct3D op (x inputs) (y inputs)) := by
  induction rewrites generalizing s a b x y with
  | zero => exact compareFixed_tests h ha hb
  | succ rewrites ih =>
    refine Advances.given fun sound => Advances.get_bind ?_
    refine Advances.ite (fun flips => ?_) fun _ => Advances.ite (fun flips => ?_) fun _ => compareFixed_tests h ha hb
    · refine Builds.bind (literal_has 0#32) fun z t ext hz => (ih (ha.mono ext) hz).weaken fun r t' _ ext' tests => ?_
      refine tests.congr fun inputs agrees => boolean_congr ?_
      have agrees' := agrees.mono (ext.trans ext')
      have flipped : y inputs = negated (x inputs) := by
        rw [← hb.word inputs agrees', ← ha.word inputs agrees']
        exact (sound.has_negated flips).2.word inputs agrees'
      rw [flipped]
      exact (direct3D_negated h _).symm
    · refine Builds.bind (literal_has 0#32) fun z t ext hz => (ih hz (hb.mono ext)).weaken fun r t' _ ext' tests => ?_
      refine tests.congr fun inputs agrees => boolean_congr ?_
      have agrees' := agrees.mono (ext.trans ext')
      have flipped : x inputs = negated (y inputs) := by
        rw [← hb.word inputs agrees', ← ha.word inputs agrees']
        exact (sound.has_negated flips).2.word inputs agrees'
      rw [flipped]
      exact (negated_direct3D h _).symm

/-! ### The emission -/

section Emission

open Qpu

variable {F : Type} {sem : Interpretation UWord F} {holds : F → Bool} {uniforms : ℕ → UWord}

/-- What the QPU is documented to do where a result depends on a flag: float comparisons see subnormals as they are,
integers are compared by XOR, MIN and SUB, the multiply ALU subtracts, and a conditional result leaves its register
alone where the condition fails. -/
structure Documented (sem : Interpretation UWord F) (holds : F → Bool) : Prop where
  equal : ∀ x y, holds (sem.flags 197 1 x y) = decide (Equal x y)
  less : ∀ x y, holds (sem.flags 197 2 x y) = decide (Less x y)
  atMost : ∀ x y, holds (sem.flags 197 3 x y) = decide (AtMost x y)
  disjoint : ∀ x y, holds (sem.flags 181 1 x y) = decide (x &&& y = 0)
  same : ∀ x y, holds (sem.flags 183 1 x y) = decide (x ^^^ y = 0)
  greater : ∀ x y, holds (sem.flags 120 3 x y) = decide (y.toInt < x.toInt)
  borrows : ∀ x y, holds (sem.flags 60 3 x y) = decide (x.toNat < y.toNat)
  subtract : ∀ x y, sem.product 2 x y = x - y
  invert : ∀ x, sem.unary 186 0 x = ~~~x
  either : ∀ x y, sem.binary 182 x y = x ||| y
  where_ : ∀ f x y, sem.choose 0x20 f x y = if holds f then x else y
  unless_ : ∀ f x y, sem.choose 0x28 f x y = if holds f then y else x

variable {m : Machine UWord F} {operation dst ra rb flag : ℕ}

theorem land_settled (settled : m.late = []) : m.land = m := by
  unfold Machine.land
  rw [settled]
  cases m
  cases settled
  rfl

/-- The first word of a comparison clears the result and sets the flags. -/
theorem advance_flagAndZero (doc : Documented sem holds) (ho : operation < 256) (plain : operation ≠ 190 ∧ operation ≠ 187 ∧ operation ≠ 188)
    (hd : dst < 32) (ha : ra < 32) (hb : rb < 32) (hf : flag ∈ [1, 2, 3]) (settled : m.late = []) :
    advance sem uniforms m (flagAndZero operation dst ra rb flag) =
      { m with file := Function.update m.file dst 0, flags := sem.flags operation flag (m.file ra) (m.file rb) } := by
  have small : flag < 128 := by
    simp at hf
    omega
  have working : ¬(operation = 187 ∧ ra = 0 ∧ rb = 0) := fun idle => plain.2.1 idle.1
  have condition : flag = 1 ∨ flag = 2 ∨ flag = 3 := by simpa using hf
  rw [advance, fields_flagAndZero ho (by omega) (by omega) (by omega) small, land_settled settled]
  simp [Fields.signalPart, Fields.mulPart, Fields.mulIdle, Fields.mulResult, Fields.addPart, Fields.addIdle, Fields.addStore,
    Fields.condition, Fields.loads, Fields.valueA, Fields.valueB, Fields.valueC, Fields.valueD, Machine.magic, Machine.set,
    working, condition, plain.1, doc.subtract]

/-- A result of the add ALU that depends on the flag. -/
theorem conditional_add {condition : ℕ} (hc : condition = 0x20 ∨ condition = 0x28) (plain : operation ≠ 190 ∧ operation ≠ 188)
    (settled : m.late = []) :
    (addOnly 0 condition dst operation ra rb).signalPart sem uniforms m ((addOnly 0 condition dst operation ra rb).mulPart sem m
      ((addOnly 0 condition dst operation ra rb).addPart sem m m.land)) =
      m.set dst (sem.choose condition m.flags ((addOnly 0 condition dst operation ra rb).addResult sem m) (m.file dst)) := by
  rw [land_settled settled]
  obtain rfl | rfl := hc
  all_goals
    simp [addOnly, Fields.signalPart, Fields.mulPart, Fields.mulIdle, Fields.addPart, Fields.addIdle, Fields.addStore,
      Fields.condition, Fields.loads, plain.1, plain.2]

/-- The second word of a comparison completes the mask. -/
theorem advance_invertWhere (doc : Documented sem holds) {condition : ℕ} (hc : condition = 0x20 ∨ condition = 0x28) (hd : dst < 32)
    (settled : m.late = []) :
    advance sem uniforms m (invertWhere (BitVec.ofNat 64 condition) dst) =
      m.set dst (if (holds m.flags = true) = (condition = 0x20) then ~~~m.file dst else m.file dst) := by
  rw [advance, fields_invertWhere condition (by omega) (by omega), conditional_add hc (by decide) settled]
  have result : (addOnly 0 condition dst 186 dst 0).addResult sem m = ~~~m.file dst := by
    rw [← doc.invert]
    rfl
  rw [result]
  obtain rfl | rfl := hc
  · rw [doc.where_]
    simp
  · rw [doc.unless_]
    cases holds m.flags <;> simp

/-- The second word of a flushed copy. -/
theorem advance_copyUnless (doc : Documented sem holds) (hd : dst < 32) (ha : ra < 32) (settled : m.late = []) :
    advance sem uniforms m (copyUnless dst ra) = m.set dst (if holds m.flags then m.file dst else m.file ra) := by
  rw [advance, fields_copyUnless (by omega) (by omega), conditional_add (.inr rfl) (by decide) settled, doc.unless_]
  have result : (addOnly 0 0x28 dst 182 ra ra).addResult sem m = m.file ra :=
    (doc.either (m.file ra) (m.file ra)).trans BitVec.or_self
  rw [result]

/-- The words of a comparison. -/
def comparisonWords (operation flag : ℕ) (exchange : Bool) (condition : Word) (reg a b : ℕ) : List Word :=
  [if exchange then flagAndZero operation reg b a flag else flagAndZero operation reg a b flag, invertWhere condition reg]

/-- The two words of a comparison, for a flag that stands for a property of the operands. -/
theorem run_flag (doc : Documented sem holds) {condition : ℕ} (hc : condition = 0x20 ∨ condition = 0x28)
    (ho : operation < 256) (plain : operation ≠ 190 ∧ operation ≠ 187 ∧ operation ≠ 188) (hf : flag ∈ [1, 2, 3])
    (hd : dst < 32) (ha : ra < 32) (hb : rb < 32) (settled : m.late = []) {p : Prop} [Decidable p]
    (flagged : holds (sem.flags operation flag (m.file ra) (m.file rb)) = decide p) :
    (Qpu.run sem uniforms [flagAndZero operation dst ra rb flag, invertWhere (BitVec.ofNat 64 condition) dst] m).file =
      Function.update m.file dst (boolean (p ↔ condition = 0x20)) := by
  rw [Qpu.run, List.foldl_cons, List.foldl_cons, List.foldl_nil, advance_flagAndZero doc ho plain hd ha hb hf settled,
    advance_invertWhere (m := { m with
      file := Function.update m.file dst 0
      flags := sem.flags operation flag (m.file ra) (m.file rb) }) doc hc hd settled]
  simp only [Machine.set, Function.update_self, Function.update_idem, flagged, decide_eq_true_eq, boolean, eq_iff_iff]
  rfl

section Flags

variable (doc : Documented sem holds) (ho : operation < 256) (plain : operation ≠ 190 ∧ operation ≠ 187 ∧ operation ≠ 188)
  (hf : flag ∈ [1, 2, 3]) (hd : dst < 32) (ha : ra < 32) (hb : rb < 32) (settled : m.late = []) {p : Prop} [Decidable p]
  (flagged : holds (sem.flags operation flag (m.file ra) (m.file rb)) = decide p)
include doc ho plain hf hd ha hb settled flagged

theorem run_where : (Qpu.run sem uniforms [flagAndZero operation dst ra rb flag, invertWhere 0x20#64 dst] m).file =
    Function.update m.file dst (boolean p) :=
  (run_flag doc (.inl rfl) ho plain hf hd ha hb settled flagged).trans (congrArg _ (boolean_congr (iff_true_right rfl)))

theorem run_unless : (Qpu.run sem uniforms [flagAndZero operation dst ra rb flag, invertWhere 0x28#64 dst] m).file =
    Function.update m.file dst (boolean ¬p) :=
  (run_flag doc (.inr rfl) ho plain hf hd ha hb settled flagged).trans
    (congrArg _ (boolean_congr (iff_false_right (by decide))))

end Flags

/-- **The emission of comparisons.** The two words of a comparison leave its mask in the register. -/
theorem run_comparison (doc : Documented sem holds) {exchange : Bool} {condition : Word}
    (test : op.test = some (operation, flag, exchange, condition)) (hd : dst < 32) (ha : ra < 32) (hb : rb < 32)
    (settled : m.late = []) :
    (Qpu.run sem uniforms (comparisonWords operation flag exchange condition dst ra rb) m).file =
      Function.update m.file dst (op.apply float (m.file ra) (m.file rb)) := by
  have xor_eq (x y : UWord) : (x ^^^ y = 0) = (x = y) := propext BitVec.xor_eq_zero_iff
  have same := doc.same (m.file ra) (m.file rb)
  simp only [xor_eq] at same
  cases op <;> cases test
  case feq => exact run_where doc (by decide) (by decide) (by decide) hd ha hb settled (doc.equal _ _)
  case fne => exact run_unless doc (by decide) (by decide) (by decide) hd ha hb settled (doc.equal _ _)
  case flt => exact run_where doc (by decide) (by decide) (by decide) hd ha hb settled (doc.less _ _)
  case fge => exact run_where doc (by decide) (by decide) (by decide) hd hb ha settled (doc.atMost _ _)
  case ieq => exact run_where doc (by decide) (by decide) (by decide) hd ha hb settled same
  case ine => exact run_unless doc (by decide) (by decide) (by decide) hd ha hb settled same
  case ilt => exact run_where doc (by decide) (by decide) (by decide) hd hb ha settled (doc.greater _ _)
  case ult => exact run_where doc (by decide) (by decide) (by decide) hd ha hb settled (doc.borrows _ _)
  case fzeq => exact run_where doc (by decide) (by decide) (by decide) hd ha hb settled (doc.disjoint _ _)
  case fzne => exact run_unless doc (by decide) (by decide) (by decide) hd ha hb settled (doc.disjoint _ _)

/-- **The emission of flushed copies.** -/
theorem run_ftz (doc : Documented sem holds) (hd : dst < 32) (ha : ra < 32) (hb : rb < 32) (apart : dst ≠ ra)
    (settled : m.late = []) :
    (Qpu.run sem uniforms [flagAndZero 181 dst ra rb 1, copyUnless dst ra] m).file =
      Function.update m.file dst (Op.apply float .ftz (m.file ra) (m.file rb)) := by
  rw [Qpu.run, List.foldl_cons, List.foldl_cons, List.foldl_nil,
    advance_flagAndZero doc (by decide) (by decide) hd ha hb (by decide) settled,
    advance_copyUnless (m := { m with
      file := Function.update m.file dst 0
      flags := sem.flags 181 1 (m.file ra) (m.file rb) }) doc hd ha settled]
  simp only [Machine.set, Function.update_self, Function.update_of_ne apart.symm, Function.update_idem, doc.disjoint,
    decide_eq_true_eq]
  rfl

end Emission

/-! ### Compared words -/

/-- The words emitted for an operation leave its word in a register, and nothing else in the others. -/
def Emits (op : Op) : Prop :=
  ∀ (float : Op → UWord → UWord → UWord) (F : Type) (sem : Qpu.Interpretation UWord F) (holds : F → Bool) (uniforms : ℕ → UWord)
    (reg : ℕ) (o : Operands) (e : Emission) (m : Qpu.Machine UWord F),
    Documented sem holds → reg < 32 → o.a < 32 → o.b < 32 → reg ≠ o.a → m.late = [] →
      ∃ words : List Qpu.Word, (emitOperation op reg o).run Empty.elim e =
          (.ok (), { e with code := e.code ++ words.map fun w => ⟨w, false⟩ }) ∧
        (Qpu.run sem uniforms words m).file = Function.update m.file reg (op.apply float (m.file o.a) (m.file o.b))

theorem emits_test (test : op.test.isSome = true) : Emits op := by
  intro float F sem holds uniforms reg o e m doc hd ha hb _ settled
  obtain ⟨⟨operation, flag, exchange, condition⟩, test⟩ := Option.isSome_iff_exists.mp test
  refine ⟨comparisonWords operation flag exchange condition reg o.a o.b, ?_, run_comparison doc test hd ha hb settled⟩
  unfold emitOperation
  rw [test]
  simp [comparisonWords, Emit.fixed, Emit.change, Tracked.run_bind, Tracked.andThen]

theorem emits_ftz : Emits .ftz := by
  intro float F sem holds uniforms reg o e m doc hd ha hb apart settled
  refine ⟨[Qpu.flagAndZero 181 reg o.a o.b 1, Qpu.copyUnless reg o.a], ?_, run_ftz doc hd ha hb apart settled⟩
  simp [emitOperation, Op.test, Op.conversion, Emit.fixed, Emit.change, Tracked.run_bind, Tracked.andThen]

/-- Two varyings of a pixel shader. -/
def twoVaryings : State := (State.initial.snoc (.uniform ⟨.fragmentVarying, 0, 0⟩)).snoc (.uniform ⟨.fragmentVarying, 1, 0⟩)

theorem twoVaryings_sound : Sound word twoVaryings :=
  (sound_initial.snoc (by simp [Node.operands]) (by decide)).snoc (by simp [Node.operands]) (by decide)

end Pi5Drivers.Compiler
