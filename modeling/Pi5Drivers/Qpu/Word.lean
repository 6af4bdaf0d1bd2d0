import Pi5Drivers.Lib.BitField
import Mathlib.Tactic.NormNum

/-! Instruction words of the V3D 7.1 QPU, as `native/qpu-alu.h`, `native/shader.cpp`
and `native/validate.cpp` assemble them. A word is two ALU halves, a signal and a
condition field; `Fields` names the twelve blocks of bits, which together make up
the whole word, and the lemmas say which blocks each assembled word has. -/

namespace Pi5Drivers.Qpu

open BitField

abbrev Word := BitVec 64

/-- `unsigned((word>>lo)&(2^n-1))`. -/
def bits (word : Word) (lo n : ℕ) : ℕ := field word.toNat lo n

def nop : Word := 0x38003186bb03f000#64
def switch : Word := 0x38203186bb03f000#64
def config : Word := 0x3a403186bb03f000#64

def addMask : Word := (1#64 <<< 44) ||| (63#64 <<< 32) ||| (255#64 <<< 24) ||| 4095#64
def mulMask : Word := (63#64 <<< 58) ||| (1#64 <<< 45) ||| (63#64 <<< 38) ||| (4095#64 <<< 12)
def signalMask : Word := 31#64 <<< 53
def flagsMask : Word := 127#64 <<< 46

/-- One operation on the add ALU, everything else idle. -/
def add (op destination a b : ℕ) (magic : Bool := false) : Word :=
  let word := nop &&& ~~~((1#64 <<< 44) ||| (63#64 <<< 32) ||| (255#64 <<< 24) ||| 4095#64)
  word ||| (BitVec.ofNat 64 magic.toNat <<< 44) ||| (BitVec.ofNat 64 destination <<< 32) |||
    (BitVec.ofNat 64 op <<< 24) ||| (BitVec.ofNat 64 a <<< 6) ||| BitVec.ofNat 64 b

def mulBase : Word :=
  nop &&& ~~~((63#64 <<< 58) ||| (1#64 <<< 45) ||| (63#64 <<< 38) ||| (4095#64 <<< 12))

/-- One operation on the multiply ALU, everything else idle. -/
def mul (op destination a b : ℕ) : Word :=
  mulBase ||| (BitVec.ofNat 64 op <<< 58) ||| (BitVec.ofNat 64 destination <<< 38) |||
    (BitVec.ofNat 64 a <<< 18) ||| (BitVec.ofNat 64 b <<< 12)

/-- The cross product of a full multiplication, kept in the multiplier. -/
def multop (a b : ℕ) : Word :=
  (nop &&& ~~~((63#64 <<< 58) ||| (4095#64 <<< 12))) ||| (10#64 <<< 58) |||
    (BitVec.ofNat 64 a <<< 18) ||| (BitVec.ofNat 64 b <<< 12)

/-- Set add-ALU flags without storing its result, while integer SUB on the
multiply ALU initializes a separate mask register to zero. -/
def flagAndZero (op dst a b flag : ℕ) : Word :=
  (nop &&& ~~~(addMask ||| mulMask ||| flagsMask)) ||| (1#64 <<< 44) ||| (6#64 <<< 32) |||
    (BitVec.ofNat 64 op <<< 24) ||| (BitVec.ofNat 64 a <<< 6) ||| BitVec.ofNat 64 b |||
    (2#64 <<< 58) ||| (BitVec.ofNat 64 dst <<< 38) ||| (BitVec.ofNat 64 a <<< 18) |||
    (BitVec.ofNat 64 a <<< 12) ||| (BitVec.ofNat 64 flag <<< 46)

/-- Test a mask while the independent integer MOV initializes false lanes. -/
def selectFalse (dst mask value : ℕ) : Word :=
  (nop &&& ~~~(addMask ||| mulMask ||| flagsMask)) ||| (1#64 <<< 44) ||| (6#64 <<< 32) |||
    (182#64 <<< 24) ||| (BitVec.ofNat 64 mask <<< 6) ||| BitVec.ofNat 64 mask |||
    (14#64 <<< 58) ||| (BitVec.ofNat 64 dst <<< 38) ||| (BitVec.ofNat 64 value <<< 18) |||
    (3#64 <<< 12) ||| (1#64 <<< 46)

/-- Two-source add-ALU operations. -/
def binary (op : ℕ) : Bool :=
  op == 5 || op == 69 || op == 56 || op == 60 || (decide (op ≥ 120) && decide (op ≤ 126)) ||
    op == 133 || op == 181 || op == 182 || op == 183

/-- A word whose five-bit destination register is removed. -/
def withoutDestination (word : Word) : Word := word &&& ~~~(31#64 <<< 46)

/-- The destination register of a load signal. -/
def loadRegister (word : Word) : ℕ := bits word 46 5

/-- `base | reg << 46`. -/
def withDestination (base : Word) (reg : ℕ) : Word := base ||| BitVec.ofNat 64 reg <<< 46

def loadUniformWord : Word := 0x39803186bb03f000#64
def loadVaryingWord : Word := 0x39003186bb03f000#64
def loadTextureWord : Word := 0x38803186bb03f000#64
def loadTargetFirstWord : Word := 0x3a203186bb03f000#64
def loadTargetWord : Word := 0x3a003186bb03f000#64
def loadAttributeWord : Word := 0x39c02180bc03f000#64
def storeOutputWord : Word := 0x39c02180be03f000#64
def storeIndexedWord : Word := 0x38002180be03f000#64

/-- A register copied where the flag is clear. -/
def copyUnless (dst source : ℕ) : Word := add 182 dst source source ||| 0x28#64 <<< 46

/-- All bits set in a register of zeros, where the flag is set or clear. -/
def invertWhere (condition : Word) (dst : ℕ) : Word := add 186 dst dst 0 ||| condition <<< 46

/-! ### The twelve fields -/

/-- The blocks of an instruction word, from the highest bits down. -/
structure Fields where
  opMul : ℕ
  signal : ℕ
  flags : ℕ
  magicMul : ℕ
  magicAdd : ℕ
  dstMul : ℕ
  dstAdd : ℕ
  opAdd : ℕ
  c : ℕ
  d : ℕ
  a : ℕ
  b : ℕ
  deriving DecidableEq, Repr

namespace Fields

def Bounded (f : Fields) : Prop :=
  f.opMul < 64 ∧ f.signal < 32 ∧ f.flags < 128 ∧ f.magicMul < 2 ∧ f.magicAdd < 2 ∧ f.dstMul < 64 ∧
    f.dstAdd < 64 ∧ f.opAdd < 256 ∧ f.c < 64 ∧ f.d < 64 ∧ f.a < 64 ∧ f.b < 64

def pack (f : Fields) : ℕ :=
  f.opMul * 2 ^ 58 + f.signal * 2 ^ 53 + f.flags * 2 ^ 46 + f.magicMul * 2 ^ 45 +
    f.magicAdd * 2 ^ 44 + f.dstMul * 2 ^ 38 + f.dstAdd * 2 ^ 32 + f.opAdd * 2 ^ 24 +
    f.c * 2 ^ 18 + f.d * 2 ^ 12 + f.a * 2 ^ 6 + f.b

end Fields

/-- The fields of a word. -/
def fields (w : Word) : Fields where
  opMul := bits w 58 6
  signal := bits w 53 5
  flags := bits w 46 7
  magicMul := bits w 45 1
  magicAdd := bits w 44 1
  dstMul := bits w 38 6
  dstAdd := bits w 32 6
  opAdd := bits w 24 8
  c := bits w 18 6
  d := bits w 12 6
  a := bits w 6 6
  b := bits w 0 6

theorem fields_bounded (w : Word) : (fields w).Bounded := by
  simp only [Fields.Bounded, fields, bits, field]
  omega

/-- Peel one field off the low end. -/
theorem div_eq_field (x lo n : ℕ) : x / 2 ^ lo = x / 2 ^ (lo + n) * 2 ^ n + field x lo n := by
  rw [field, pow_add, ← Nat.div_div_eq_div_mul, Nat.mul_comm]
  exact (Nat.div_add_mod _ _).symm

theorem toNat_eq_pack (w : Word) : w.toNat = (fields w).pack := by
  simp only [Fields.pack, fields, bits]
  have h64 : w.toNat / 2 ^ 64 = 0 := Nat.div_eq_of_lt w.isLt
  have h58 := div_eq_field w.toNat 58 6
  have h53 := div_eq_field w.toNat 53 5
  have h46 := div_eq_field w.toNat 46 7
  have h45 := div_eq_field w.toNat 45 1
  have h44 := div_eq_field w.toNat 44 1
  have h38 := div_eq_field w.toNat 38 6
  have h32 := div_eq_field w.toNat 32 6
  have h24 := div_eq_field w.toNat 24 8
  have h18 := div_eq_field w.toNat 18 6
  have h12 := div_eq_field w.toNat 12 6
  have h6 := div_eq_field w.toNat 6 6
  have h0 := div_eq_field w.toNat 0 6
  rw [pow_zero, Nat.div_one] at h0
  simp only [Nat.reduceAdd] at *
  rw [h64] at h58
  rw [h58] at h53; rw [h53] at h46; rw [h46] at h45; rw [h45] at h44; rw [h44] at h38
  rw [h38] at h32; rw [h32] at h24; rw [h24] at h18; rw [h18] at h12; rw [h12] at h6
  rw [h6] at h0
  refine h0.trans ?_
  ring

theorem fields_of_toNat {w : Word} {f : Fields} (hb : f.Bounded) (h : w.toNat = f.pack) :
    fields w = f := by
  obtain ⟨opMul, signal, flags, magicMul, magicAdd, dstMul, dstAdd, opAdd, c, d, a, b⟩ := f
  simp only [Fields.Bounded] at hb
  simp only [Fields.pack] at h
  simp only [fields, bits, field, h, Fields.mk.injEq]
  omega

theorem fields_injective {w v : Word} (h : fields w = fields v) : w = v := by
  apply BitVec.eq_of_toNat_eq
  rw [toNat_eq_pack, toNat_eq_pack, h]

theorem fields_inj {w v : Word} : fields w = fields v ↔ w = v :=
  ⟨fields_injective, congrArg fields⟩

@[simp] theorem fields_nop : fields nop = ⟨14, 0, 0, 1, 1, 6, 6, 187, 0, 63, 0, 0⟩ := by decide
@[simp] theorem fields_switch : fields switch = ⟨14, 1, 0, 1, 1, 6, 6, 187, 0, 63, 0, 0⟩ := by decide
@[simp] theorem fields_config : fields config = ⟨14, 18, 0, 1, 1, 6, 6, 187, 0, 63, 0, 0⟩ := by decide

/-! ### Writing a field of zeros -/

/-- The name of one field. -/
inductive Slot where
  | opMul | signal | flags | magicMul | magicAdd | dstMul | dstAdd | opAdd | c | d | a | b

namespace Slot

def lo : Slot → ℕ
  | opMul => 58 | signal => 53 | flags => 46 | magicMul => 45 | magicAdd => 44 | dstMul => 38
  | dstAdd => 32 | opAdd => 24 | c => 18 | d => 12 | a => 6 | b => 0

def width : Slot → ℕ
  | opMul => 6 | signal => 5 | flags => 7 | magicMul => 1 | magicAdd => 1 | dstMul => 6
  | dstAdd => 6 | opAdd => 8 | c => 6 | d => 6 | a => 6 | b => 6

end Slot

namespace Fields

def get (f : Fields) : Slot → ℕ
  | .opMul => f.opMul | .signal => f.signal | .flags => f.flags | .magicMul => f.magicMul
  | .magicAdd => f.magicAdd | .dstMul => f.dstMul | .dstAdd => f.dstAdd | .opAdd => f.opAdd
  | .c => f.c | .d => f.d | .a => f.a | .b => f.b

def set (f : Fields) (s : Slot) (v : ℕ) : Fields :=
  match s with
  | .opMul => { f with opMul := v } | .signal => { f with signal := v }
  | .flags => { f with flags := v } | .magicMul => { f with magicMul := v }
  | .magicAdd => { f with magicAdd := v } | .dstMul => { f with dstMul := v }
  | .dstAdd => { f with dstAdd := v } | .opAdd => { f with opAdd := v }
  | .c => { f with c := v } | .d => { f with d := v } | .a => { f with a := v }
  | .b => { f with b := v }

theorem set_bounded {f : Fields} (hf : f.Bounded) (s : Slot) {v : ℕ} (hv : v < 2 ^ s.width) :
    (f.set s v).Bounded := by
  simp only [Bounded] at hf ⊢
  cases s <;> simp only [Slot.width] at hv <;> simp only [set] <;> omega

theorem set_pack {f : Fields} (s : Slot) {v : ℕ} (hz : f.get s = 0) :
    (f.set s v).pack = f.pack + v * 2 ^ s.lo := by
  cases s <;> simp only [get] at hz <;> simp only [set, pack, Slot.lo, hz] <;> ring

end Fields

theorem get_fields (w : Word) (s : Slot) : (fields w).get s = field w.toNat s.lo s.width := by
  cases s <;> rfl

theorem toNat_or_shift {x : Word} {lo n v : ℕ} (hx : field x.toNat lo n = 0) (hv : v < 2 ^ n)
    (hlo : lo + n ≤ 64) : (x ||| BitVec.ofNat 64 v <<< lo).toNat = x.toNat + v * 2 ^ lo := by
  have hfit : v * 2 ^ lo < 2 ^ 64 := by
    calc v * 2 ^ lo < 2 ^ n * 2 ^ lo := Nat.mul_lt_mul_of_pos_right hv (by positivity)
      _ = 2 ^ (lo + n) := by rw [pow_add]; ring
      _ ≤ 2 ^ 64 := Nat.pow_le_pow_right (by norm_num) hlo
  have hv64 : v < 2 ^ 64 := lt_of_le_of_lt (Nat.le_mul_of_pos_right v (by positivity)) hfit
  rw [BitVec.toNat_or, BitVec.toNat_shiftLeft, BitVec.toNat_ofNat, Nat.mod_eq_of_lt hv64,
    Nat.shiftLeft_eq, Nat.mod_eq_of_lt hfit, or_field hx hv]

/-- Or-ing a value into a field of zeros sets that field. -/
theorem fields_or (s : Slot) {x : Word} {f : Fields} {v : ℕ} (h : fields x = f)
    (hz : f.get s = 0) (hv : v < 2 ^ s.width) :
    fields (x ||| BitVec.ofNat 64 v <<< s.lo) = f.set s v := by
  subst h
  refine fields_of_toNat (Fields.set_bounded (fields_bounded x) s hv) ?_
  rw [Fields.set_pack s hz, ← toNat_eq_pack]
  exact toNat_or_shift (by rw [← get_fields, hz]) hv (by cases s <;> decide)

/-! ### The assembled words -/

theorem fields_add {op destination a b : ℕ} (magic : Bool) (ho : op < 256) (hd : destination < 64)
    (ha : a < 64) (hb : b < 64) :
    fields (add op destination a b magic) =
      ⟨14, 0, 0, 1, magic.toNat, 6, destination, op, 0, 63, a, b⟩ := by
  have hbase : fields (nop &&& ~~~((1#64 <<< 44) ||| (63#64 <<< 32) ||| (255#64 <<< 24) ||| 4095#64)) =
      ⟨14, 0, 0, 1, 0, 6, 0, 0, 0, 63, 0, 0⟩ := by decide
  have hm : magic.toNat < 2 := by cases magic <;> decide
  have h1 := fields_or .magicAdd hbase rfl hm
  have h2 := fields_or .dstAdd h1 rfl hd
  have h3 := fields_or .opAdd h2 rfl ho
  have h4 := fields_or .a h3 rfl ha
  have h5 := fields_or .b h4 rfl hb
  simpa [add, Slot.lo, Fields.set] using h5

theorem fields_mul {op destination a b : ℕ} (ho : op < 64) (hd : destination < 64)
    (ha : a < 64) (hb : b < 64) :
    fields (mul op destination a b) =
      ⟨op, 0, 0, 0, 1, destination, 6, 187, a, b, 0, 0⟩ := by
  have hbase : fields mulBase = ⟨0, 0, 0, 0, 1, 0, 6, 187, 0, 0, 0, 0⟩ := by decide
  have h1 := fields_or .opMul hbase rfl ho
  have h2 := fields_or .dstMul h1 rfl hd
  have h3 := fields_or .c h2 rfl ha
  have h4 := fields_or .d h3 rfl hb
  simpa [mul, Slot.lo, Fields.set] using h4

theorem fields_multop {a b : ℕ} (ha : a < 64) (hb : b < 64) :
    fields (multop a b) = ⟨10, 0, 0, 1, 1, 6, 6, 187, a, b, 0, 0⟩ := by
  have hbase : fields ((nop &&& ~~~((63#64 <<< 58) ||| (4095#64 <<< 12))) ||| (10#64 <<< 58)) =
      ⟨10, 0, 0, 1, 1, 6, 6, 187, 0, 0, 0, 0⟩ := by decide
  have h1 := fields_or .c hbase rfl ha
  have h2 := fields_or .d h1 rfl hb
  simpa [multop, Slot.lo, Fields.set] using h2

theorem fields_flagAndZero {op dst a b flag : ℕ} (ho : op < 256) (hd : dst < 64) (ha : a < 64)
    (hb : b < 64) (hf : flag < 128) :
    fields (flagAndZero op dst a b flag) = ⟨2, 0, flag, 0, 1, dst, 6, op, a, a, a, b⟩ := by
  have hbase : fields ((nop &&& ~~~(addMask ||| mulMask ||| flagsMask)) ||| (1#64 <<< 44) |||
      (6#64 <<< 32)) = ⟨0, 0, 0, 0, 1, 0, 6, 0, 0, 0, 0, 0⟩ := by decide
  have h1 := fields_or .opAdd hbase rfl ho
  have h2 := fields_or .a h1 rfl ha
  have h3 := fields_or .b h2 rfl hb
  have h4 := fields_or .opMul (v := 2) h3 rfl (by decide)
  have h5 := fields_or .dstMul h4 rfl hd
  have h6 := fields_or .c h5 rfl ha
  have h7 := fields_or .d h6 rfl ha
  have h8 := fields_or .flags h7 rfl hf
  simpa [flagAndZero, Slot.lo, Fields.set] using h8

theorem fields_selectFalse {dst mask value : ℕ} (hd : dst < 64) (hm : mask < 64)
    (hv : value < 64) :
    fields (selectFalse dst mask value) = ⟨14, 0, 1, 0, 1, dst, 6, 182, value, 3, mask, mask⟩ := by
  have hbase : fields ((nop &&& ~~~(addMask ||| mulMask ||| flagsMask)) ||| (1#64 <<< 44) |||
      (6#64 <<< 32) ||| (182#64 <<< 24)) = ⟨0, 0, 0, 0, 1, 0, 6, 182, 0, 0, 0, 0⟩ := by decide
  have h1 := fields_or .a hbase rfl hm
  have h2 := fields_or .b h1 rfl hm
  have h3 := fields_or .opMul (v := 14) h2 rfl (by decide)
  have h4 := fields_or .dstMul h3 rfl hd
  have h5 := fields_or .c h4 rfl hv
  have h6 := fields_or .d (v := 3) h5 rfl (by decide)
  have h7 := fields_or .flags (v := 1) h6 rfl (by decide)
  simpa [selectFalse, Slot.lo, Fields.set] using h7

/-! ### Masks act on each field -/

namespace Fields

/-- Apply an operation field by field. -/
def map₂ (op : ℕ → ℕ → ℕ) (f g : Fields) : Fields where
  opMul := op f.opMul g.opMul
  signal := op f.signal g.signal
  flags := op f.flags g.flags
  magicMul := op f.magicMul g.magicMul
  magicAdd := op f.magicAdd g.magicAdd
  dstMul := op f.dstMul g.dstMul
  dstAdd := op f.dstAdd g.dstAdd
  opAdd := op f.opAdd g.opAdd
  c := op f.c g.c
  d := op f.d g.d
  a := op f.a g.a
  b := op f.b g.b

end Fields

theorem fields_and (x y : Word) : fields (x &&& y) = (fields x).map₂ (· &&& ·) (fields y) := by
  simp only [fields, bits, field, Fields.map₂, BitVec.toNat_and, Nat.and_div_two_pow,
    Nat.and_mod_two_pow]

theorem fields_or_words (x y : Word) : fields (x ||| y) = (fields x).map₂ (· ||| ·) (fields y) := by
  simp only [fields, bits, field, Fields.map₂, BitVec.toNat_or, Nat.or_div_two_pow,
    Nat.or_mod_two_pow]

section Ones

variable {x : ℕ}

theorem and_1 (h : x < 2) : x &&& 1 = x := Nat.and_two_pow_sub_one_of_lt_two_pow (n := 1) h
theorem and_31 (h : x < 32) : x &&& 31 = x := Nat.and_two_pow_sub_one_of_lt_two_pow (n := 5) h
theorem and_63 (h : x < 64) : x &&& 63 = x := Nat.and_two_pow_sub_one_of_lt_two_pow (n := 6) h
theorem and_127 (h : x < 128) : x &&& 127 = x := Nat.and_two_pow_sub_one_of_lt_two_pow (n := 7) h
theorem and_255 (h : x < 256) : x &&& 255 = x := Nat.and_two_pow_sub_one_of_lt_two_pow (n := 8) h

end Ones

/-- The five low bits of the condition field hold a signal's destination register. -/
theorem fields_and_not_destination (w : Word) : fields (w &&& ~~~(31#64 <<< 46)) =
    { fields w with flags := (fields w).flags &&& 96 } := by
  have hm : fields (~~~(31#64 <<< 46)) = ⟨63, 31, 96, 1, 1, 63, 63, 255, 63, 63, 63, 63⟩ := by decide
  obtain ⟨h1, h2, h3, h4, h5, h6, h7, h8, h9, h10, h11, h12⟩ := fields_bounded w
  rw [fields_and, hm]
  simp only [Fields.map₂, and_63, and_31, and_1, and_255, *]

/-- The operands of the add ALU. -/
theorem fields_and_not_operands (w : Word) : fields (w &&& ~~~4095#64) =
    { fields w with a := 0, b := 0 } := by
  have hm : fields (~~~4095#64) = ⟨63, 31, 127, 1, 1, 63, 63, 255, 63, 63, 0, 0⟩ := by decide
  obtain ⟨h1, h2, h3, h4, h5, h6, h7, h8, h9, h10, h11, h12⟩ := fields_bounded w
  rw [fields_and, hm]
  simp only [Fields.map₂, and_63, and_31, and_127, and_1, and_255, Nat.and_zero, *]

/-- A load's destination register and its four-bit index. -/
theorem fields_and_not_load (w : Word) : fields (w &&& ~~~((31#64 <<< 32) ||| (15#64 <<< 6))) =
    { fields w with dstAdd := (fields w).dstAdd &&& 32, a := (fields w).a &&& 48 } := by
  have hm : fields (~~~((31#64 <<< 32) ||| (15#64 <<< 6))) =
      ⟨63, 31, 127, 1, 1, 63, 32, 255, 63, 63, 48, 63⟩ := by decide
  obtain ⟨h1, h2, h3, h4, h5, h6, h7, h8, h9, h10, h11, h12⟩ := fields_bounded w
  rw [fields_and, hm]
  simp only [Fields.map₂, and_63, and_31, and_127, and_1, and_255, *]

theorem fields_and_addMask (w : Word) : fields (w &&& addMask) =
    ⟨0, 0, 0, 0, (fields w).magicAdd, 0, (fields w).dstAdd, (fields w).opAdd, 0, 0,
      (fields w).a, (fields w).b⟩ := by
  have hm : fields addMask = ⟨0, 0, 0, 0, 1, 0, 63, 255, 0, 0, 63, 63⟩ := by decide
  obtain ⟨h1, h2, h3, h4, h5, h6, h7, h8, h9, h10, h11, h12⟩ := fields_bounded w
  rw [fields_and, hm]
  simp only [Fields.map₂, and_63, and_1, and_255, Nat.and_zero, *]

theorem fields_and_not_addMask (w : Word) : fields (w &&& ~~~addMask) =
    { fields w with magicAdd := 0, dstAdd := 0, opAdd := 0, a := 0, b := 0 } := by
  have hm : fields (~~~addMask) = ⟨63, 31, 127, 1, 0, 63, 0, 0, 63, 63, 0, 0⟩ := by decide
  obtain ⟨h1, h2, h3, h4, h5, h6, h7, h8, h9, h10, h11, h12⟩ := fields_bounded w
  rw [fields_and, hm]
  simp only [Fields.map₂, and_63, and_31, and_127, and_1, Nat.and_zero, *]

theorem fields_and_mulMask (w : Word) : fields (w &&& mulMask) =
    ⟨(fields w).opMul, 0, 0, (fields w).magicMul, 0, (fields w).dstMul, 0, 0, (fields w).c,
      (fields w).d, 0, 0⟩ := by
  have hm : fields mulMask = ⟨63, 0, 0, 1, 0, 63, 0, 0, 63, 63, 0, 0⟩ := by decide
  obtain ⟨h1, h2, h3, h4, h5, h6, h7, h8, h9, h10, h11, h12⟩ := fields_bounded w
  rw [fields_and, hm]
  simp only [Fields.map₂, and_63, and_1, Nat.and_zero, *]

theorem fields_and_not_mulMask (w : Word) : fields (w &&& ~~~mulMask) =
    { fields w with opMul := 0, magicMul := 0, dstMul := 0, c := 0, d := 0 } := by
  have hm : fields (~~~mulMask) = ⟨0, 31, 127, 0, 1, 0, 63, 255, 0, 0, 63, 63⟩ := by decide
  obtain ⟨h1, h2, h3, h4, h5, h6, h7, h8, h9, h10, h11, h12⟩ := fields_bounded w
  rw [fields_and, hm]
  simp only [Fields.map₂, and_63, and_31, and_127, and_1, and_255, Nat.and_zero, *]

theorem fields_and_signalFlags (w : Word) : fields (w &&& (signalMask ||| flagsMask)) =
    ⟨0, (fields w).signal, (fields w).flags, 0, 0, 0, 0, 0, 0, 0, 0, 0⟩ := by
  have hm : fields (signalMask ||| flagsMask) = ⟨0, 31, 127, 0, 0, 0, 0, 0, 0, 0, 0, 0⟩ := by decide
  obtain ⟨h1, h2, h3, h4, h5, h6, h7, h8, h9, h10, h11, h12⟩ := fields_bounded w
  rw [fields_and, hm]
  simp only [Fields.map₂, and_31, and_127, Nat.and_zero, *]

theorem fields_and_not_signalFlags (w : Word) : fields (w &&& ~~~(signalMask ||| flagsMask)) =
    { fields w with signal := 0, flags := 0 } := by
  have hm : fields (~~~(signalMask ||| flagsMask)) = ⟨63, 0, 0, 1, 1, 63, 63, 255, 63, 63, 63, 63⟩ := by
    decide
  obtain ⟨h1, h2, h3, h4, h5, h6, h7, h8, h9, h10, h11, h12⟩ := fields_bounded w
  rw [fields_and, hm]
  simp only [Fields.map₂, and_63, and_1, and_255, Nat.and_zero, *]

theorem and_flagsMask_eq_zero (w : Word) : w &&& flagsMask = 0#64 ↔ (fields w).flags = 0 := by
  have hm : fields flagsMask = ⟨0, 0, 127, 0, 0, 0, 0, 0, 0, 0, 0, 0⟩ := by decide
  have h0 : fields 0#64 = ⟨0, 0, 0, 0, 0, 0, 0, 0, 0, 0, 0, 0⟩ := by decide
  obtain ⟨h1, h2, h3, h4, h5, h6, h7, h8, h9, h10, h11, h12⟩ := fields_bounded w
  rw [← fields_inj, fields_and, hm, h0]
  simp only [Fields.map₂, and_127 h3, Nat.and_zero, Fields.mk.injEq, true_and, and_true]

/-- The add ALU is idle. -/
theorem and_addMask_eq_nop (w : Word) : w &&& addMask = nop &&& addMask ↔
    (fields w).magicAdd = 1 ∧ (fields w).dstAdd = 6 ∧ (fields w).opAdd = 187 ∧
      (fields w).a = 0 ∧ (fields w).b = 0 := by
  rw [← fields_inj, fields_and_addMask, fields_and_addMask, fields_nop]
  simp

/-- The multiply ALU is idle. -/
theorem and_mulMask_eq_nop (w : Word) : w &&& mulMask = nop &&& mulMask ↔
    (fields w).opMul = 14 ∧ (fields w).magicMul = 1 ∧ (fields w).dstMul = 6 ∧
      (fields w).c = 0 ∧ (fields w).d = 63 := by
  rw [← fields_inj, fields_and_mulMask, fields_and_mulMask, fields_nop]
  simp

end Pi5Drivers.Qpu
