import Pi5Drivers.Compiler.Tables
import Pi5Drivers.Lib.BitField
import Pi5Drivers.Lib.Nearest

/-! Formats of vertex elements (`native/umd.cpp`, `IntegerBufferKind`, `Components`, `Float16Bits`). The user-mode driver
turns every component into a word of 32 bits before the vertex shader sees it: integers are extended, half floats are
widened, and bytes of normalized formats are divided by 255. -/

namespace Pi5Drivers.Draw

open Abi Compiler

/-- The formats that elements may have (`DXGI_FORMAT`), and any other one. -/
inductive Format
  | r8Uint | r8Sint | r8g8Uint | r8g8Sint | r8g8b8a8Uint | r8g8b8a8Sint | r8g8b8a8Unorm
  | r16Uint | r16Sint | r16g16Uint | r16g16Sint | r16g16Float | r16g16b16a16Uint | r16g16b16a16Sint
  | r32Uint | r32Sint | r32Float | r32g32Uint | r32g32Sint | r32g32Float | r32g32b32Float
  | r32g32b32a32Uint | r32g32b32a32Sint | r32g32b32a32Float
  | other
  deriving DecidableEq, Repr

/-- `IntegerBufferKind`: the kind of a typed buffer with these integers. -/
def integerBufferKind : Format → ℕ
  | .r8Uint => 2
  | .r8Sint => 11
  | .r8g8Uint => 12
  | .r8g8Sint => 13
  | .r8g8b8a8Uint => 14
  | .r8g8b8a8Sint => 15
  | .r16Uint => 3
  | .r16Sint => 4
  | .r16g16Uint => 5
  | .r16g16Sint => 6
  | .r16g16b16a16Uint => 7
  | .r16g16b16a16Sint => 8
  | .r32Uint => 9
  | .r32Sint => 10
  | .r32g32Uint => 16
  | .r32g32Sint => 17
  | .r32g32b32a32Uint => 18
  | .r32g32b32a32Sint => 19
  | _ => 0

/-- `Components`. -/
def components (format : Format) : ℕ :=
  if integerBufferKind format ≠ 0 then bufferComponents (integerBufferKind format)
  else
    match format with
    | .r32Float => 1
    | .r32g32Float => 2
    | .r16g16Float => 2
    | .r32g32b32Float => 3
    | .r32g32b32a32Float => 4
    | _ => 0

/-- What `GatherVertices` reads off a format. -/
structure Shape where
  normalized : Bool
  half : Bool
  integer : Bool
  signedInteger : Bool
  components : ℕ
  componentBytes : ℕ
  deriving DecidableEq

def shape (format : Format) : Shape :=
  let integerKind := integerBufferKind format
  let normalized := format = .r8g8b8a8Unorm
  let half := format = .r16g16Float
  let integer := integerKind ≠ 0
  { normalized, half, integer
    signedInteger := bufferSigned integerKind
    components := if normalized then 4 else components format
    componentBytes := if integer then bufferComponentBytes integerKind else if half then 2 else if normalized then 1 else 4 }

def Shape.elementBytes (s : Shape) : ℕ := s.components * s.componentBytes

/-! ### Half floats -/

/-- `while(!(mantissa&1024)){mantissa<<=1;--power;}`, ten rounds at most. -/
def normalizeHalf : ℕ → UWord → ℤ → UWord × ℤ
  | 0, mantissa, power => (mantissa, power)
  | fuel + 1, mantissa, power =>
    if mantissa &&& 1024#32 ≠ 0 then (mantissa, power) else normalizeHalf fuel (mantissa <<< 1) (power - 1)

/-- `Float16Bits`. -/
def float16Bits (v : BitVec 16) : UWord :=
  let sign := (v &&& 0x8000#16).setWidth 32 <<< 16
  let mantissa := (v &&& 1023#16).setWidth 32
  let exponent : UWord := (v >>> 10 &&& 31#16).setWidth 32
  if exponent = 31 then sign ||| 0x7f800000#32 ||| mantissa <<< 13
  else if exponent ≠ 0 then sign ||| (exponent + 112) <<< 23 ||| mantissa <<< 13
  else if mantissa = 0 then sign
  else
    let (mantissa, power) := normalizeHalf 10 mantissa (-14)
    sign ||| BitVec.ofInt 32 (power + 127) <<< 23 ||| (mantissa &&& 1023#32) <<< 13

/-! ### Normalized bytes -/

/-- `float(v)/255.0f`, rounded to nearest: the quotient is scaled to 24 bits. There are no ties. -/
def unormBits (v : BitVec 8) : UWord :=
  if v = 0 then 0
  else
    let shift := ((List.range 8).find? fun s => 255 ≤ v.toNat * 2 ^ s).getD 8
    let scaled := (2 * v.toNat * 2 ^ (23 + shift) + 255) / 510
    BitVec.ofNat 32 ((127 - shift) * 2 ^ 23 + (scaled - 2 ^ 23))

/-! ### Components -/

/-- Bytes copied to a word of zeros, least significant byte first. -/
def loaded (bytes : List (BitVec 8)) : UWord := BitVec.ofNat 32 (bytes.foldr (fun byte n => byte.toNat + 256 * n) 0)

/-- The word of a component, from its bytes. -/
def convert (s : Shape) (bytes : List (BitVec 8)) : UWord :=
  if s.normalized then unormBits ((loaded bytes).setWidth 8)
  else if s.integer then
    let value := loaded bytes
    if s.signedInteger ∧ s.componentBytes < 4 then
      let sign := 1#32 <<< (s.componentBytes * 8 - 1)
      (value ^^^ sign) - sign
    else value
  else if s.half then float16Bits ((loaded bytes).setWidth 16)
  else loaded bytes

/-- What a component has that the format lacks. -/
def missing (s : Shape) (component : ℕ) : UWord := if component = 3 then if s.integer then 1 else 0x3f800000#32 else 0

/-! ### What the conversions mean -/

section Half

variable (v : BitVec 16)

def halfExponent : ℕ := v.toNat / 2 ^ 10 % 32

def halfFraction : ℕ := v.toNat % 2 ^ 10

/-- The number of a half float with an exponent below 31. -/
def halfValue : ℚ :=
  (if 2 ^ 15 ≤ v.toNat then -1 else 1) *
    (if halfExponent v = 0 then halfFraction v else 2 ^ 10 + halfFraction v : ℕ) * 2 ^ ((max (halfExponent v) 1 : ℕ) - 25 : ℤ)

/-- The same number as the half float, infinity as infinity and no number as no number. -/
def SameHalf (w : UWord) : Prop :=
  Single.negative w = decide (2 ^ 15 ≤ v.toNat) ∧
    if halfExponent v = 31 then Single.exponent w = 255 ∧ (Single.fraction w = 0 ↔ halfFraction v = 0)
    else Single.Number w ∧ Single.value w = halfValue v

end Half

/-- The word of a component with these bytes. -/
def Converted (format : Format) (bytes : List (BitVec 8)) (v : UWord) : Prop :=
  if format = .r8g8b8a8Unorm then ¬Single.negative v ∧ Single.Nearest ((loaded bytes).toNat / 255) v
  else if integerBufferKind format ≠ 0 then v = component (bufferSigned (integerBufferKind format)) bytes
  else if format = .r16g16Float then SameHalf ((loaded bytes).setWidth 16) v
  else v = loaded bytes

section Half

variable {v : BitVec 16}

/-- A word from its sign, its exponent and its fraction. -/
theorem fields_word {w : UWord} {s e f : ℕ} (hs : s < 2) (he : e < 2 ^ 8) (hf : f < 2 ^ 23) (h : w.toNat = s * 2 ^ 31 + e * 2 ^ 23 + f) :
    Single.negative w = decide (s = 1) ∧ Single.exponent w = e ∧ Single.fraction w = f := by
  refine ⟨?_, ?_, ?_⟩
  · rw [Single.negative, h, decide_eq_decide]
    omega
  · rw [Single.exponent, h]
    omega
  · rw [Single.fraction, h]
    omega

theorem sign_word (v : BitVec 16) : ((v &&& 0x8000#16).setWidth 32 <<< 16).toNat = v.toNat / 2 ^ 15 * 2 ^ 31 := by
  have := v.isLt
  have masked : v.toNat &&& 0x8000 = v.toNat / 2 ^ 15 % 2 * 2 ^ 15 := BitField.and_mask v.toNat 15 1
  rw [BitVec.toNat_shiftLeft, BitVec.toNat_setWidth, BitVec.toNat_and, Nat.shiftLeft_eq]
  change (v.toNat &&& 0x8000) % _ * _ % _ = _
  omega

theorem mantissa_word (v : BitVec 16) : ((v &&& 1023#16).setWidth 32 : UWord).toNat = halfFraction v := by
  have masked : v.toNat &&& 1023 = v.toNat % 2 ^ 10 := Nat.and_two_pow_sub_one_eq_mod v.toNat 10
  rw [BitVec.toNat_setWidth, BitVec.toNat_and]
  change (v.toNat &&& 1023) % _ = _
  rw [masked, halfFraction]
  omega

theorem exponent_word (v : BitVec 16) : ((v >>> 10 &&& 31#16).setWidth 32 : UWord).toNat = halfExponent v := by
  have masked : v.toNat / 2 ^ 10 &&& 31 = v.toNat / 2 ^ 10 % 2 ^ 5 := Nat.and_two_pow_sub_one_eq_mod _ 5
  rw [BitVec.toNat_setWidth, BitVec.toNat_and, BitVec.toNat_ushiftRight, Nat.shiftRight_eq_div_pow]
  change (v.toNat / 2 ^ 10 &&& 31) % _ = _
  rw [masked, halfExponent]
  omega

/-- The parts of the word do not overlap. -/
theorem assembled_word {a b c : UWord} {s e m : ℕ} (ha : a.toNat = s * 2 ^ 31) (hb : b.toNat = e * 2 ^ 23) (hc : c.toNat = m)
    (he : e < 2 ^ 8) (hm : m < 2 ^ 10) : (a ||| b ||| c <<< 13).toNat = s * 2 ^ 31 + e * 2 ^ 23 + m * 2 ^ 13 := by
  have moved : (c <<< 13).toNat = m * 2 ^ 13 := by
    rw [BitVec.toNat_shiftLeft, hc, Nat.shiftLeft_eq]
    omega
  rw [BitVec.toNat_or, BitVec.toNat_or, ha, hb, moved, BitField.or_field (n := 8) ?_ he, BitField.or_field (n := 10) ?_ hm]
  · rw [BitField.field]
    omega
  · rw [BitField.field]
    omega

theorem testMantissa : ∀ m < 2048, (BitVec.ofNat 32 m &&& 1024#32 ≠ 0) ↔ 1024 ≤ m := by
  intro m small
  have masked : m &&& 1024 = m / 2 ^ 10 % 2 * 2 ^ 10 := BitField.and_mask m 10 1
  rw [ne_eq, ← BitVec.toNat_inj, BitVec.toNat_and, BitVec.toNat_ofNat, Nat.mod_eq_of_lt (by omega)]
  change ¬(m &&& 1024) = 0 ↔ _
  omega

/-- The loop moves the highest bit of the mantissa to its place, and counts. -/
theorem normalizeHalf_eq (fuel m : ℕ) (power : ℤ) (pos : 1024 ≤ m * 2 ^ fuel) (small : m < 2048) :
    ∃ k ≤ fuel, normalizeHalf fuel (BitVec.ofNat 32 m) power = (BitVec.ofNat 32 (m * 2 ^ k), power - k) ∧
      1024 ≤ m * 2 ^ k ∧ m * 2 ^ k < 2048 := by
  induction fuel generalizing m power with
  | zero => exact ⟨0, le_rfl, by simp [normalizeHalf], by simpa using pos, by simpa using small⟩
  | succ fuel ih =>
    rw [normalizeHalf]
    by_cases high : 1024 ≤ m
    · rw [if_pos ((testMantissa m small).mpr high)]
      exact ⟨0, Nat.zero_le _, by simp, by simpa using high, by simpa using small⟩
    · rw [if_neg fun bit => high ((testMantissa m small).mp bit)]
      have twice : BitVec.ofNat 32 m <<< 1 = BitVec.ofNat 32 (m * 2) := by
        rw [← BitVec.toNat_inj, BitVec.toNat_shiftLeft, BitVec.toNat_ofNat, BitVec.toNat_ofNat, Nat.shiftLeft_eq]
        omega
      have more : 1024 ≤ m * 2 * 2 ^ fuel := by rwa [mul_assoc, ← pow_succ']
      obtain ⟨k, most, same, low, below⟩ := ih (m * 2) (power - 1) more (by omega)
      have moved : m * 2 * 2 ^ k = m * 2 ^ (k + 1) := by rw [mul_assoc, ← pow_succ']
      rw [moved] at same low below
      refine ⟨k + 1, by omega, ?_, low, below⟩
      rw [twice, same, Nat.cast_succ, sub_sub, add_comm (1 : ℤ)]

/-- A word with an exponent, and a fraction of ten bits. -/
theorem value_word {w : UWord} {s e f : ℕ} (hs : s < 2) (pos : 0 < e) (he : e < 255) (hf : f < 2 ^ 10)
    (h : w.toNat = s * 2 ^ 31 + e * 2 ^ 23 + f * 2 ^ 13) :
    Single.negative w = decide (s = 1) ∧ Single.Number w ∧
      Single.value w = (if s = 1 then -1 else 1) * (2 ^ 10 + f : ℕ) * 2 ^ (e - 137 : ℤ) := by
  obtain ⟨negative, exponent, fraction⟩ := fields_word hs (by omega) (by omega) h
  refine ⟨negative, by rw [Single.Number, exponent]; exact he, ?_⟩
  rw [Single.value, Single.significand, negative, exponent, fraction, if_neg pos.ne', Nat.max_eq_left pos]
  have scaled : ((2 ^ 23 + f * 2 ^ 13 : ℕ) : ℚ) * 2 ^ (e - 150 : ℤ) = (2 ^ 10 + f : ℕ) * 2 ^ (e - 137 : ℤ) := by
    have power : (2 : ℚ) ^ (e - 137 : ℤ) = 2 ^ 13 * 2 ^ (e - 150 : ℤ) := by
      rw [← zpow_natCast, ← zpow_add₀ two_ne_zero]
      congr 1
      omega
    rw [power]
    push_cast
    ring
  rw [mul_assoc, scaled, mul_assoc]
  simp only [decide_eq_true_eq]

theorem toNat_sign (v : BitVec 16) : v.toNat / 2 ^ 15 < 2 := by
  have := v.isLt
  omega

theorem sign_iff (v : BitVec 16) : v.toNat / 2 ^ 15 = 1 ↔ 2 ^ 15 ≤ v.toNat := by
  have := v.isLt
  omega

/-- **Half floats keep their values when they are widened.** -/
theorem float16Bits_same (v : BitVec 16) : SameHalf v (float16Bits v) := by
  have sign := sign_word v
  have mantissa := mantissa_word v
  have exponent := exponent_word v
  have small : halfFraction v < 2 ^ 10 := Nat.mod_lt _ (by decide)
  have below : halfExponent v < 32 := Nat.mod_lt _ (by decide)
  have top : ((v >>> 10 &&& 31#16).setWidth 32 : UWord) = 31 ↔ halfExponent v = 31 := by
    rw [← BitVec.toNat_inj, exponent]
    rfl
  have bottom : ((v >>> 10 &&& 31#16).setWidth 32 : UWord) = 0 ↔ halfExponent v = 0 := by
    rw [← BitVec.toNat_inj, exponent]
    rfl
  rw [float16Bits]
  generalize (v &&& 0x8000#16).setWidth 32 <<< 16 = a at sign ⊢
  generalize ((v &&& 1023#16).setWidth 32 : UWord) = c at mantissa ⊢
  generalize ((v >>> 10 &&& 31#16).setWidth 32 : UWord) = b at exponent top bottom ⊢
  by_cases infinite : halfExponent v = 31
  · rw [if_pos (top.mpr infinite), SameHalf, if_pos infinite]
    have word := assembled_word (b := 0x7f800000#32) (e := 255) sign (by decide) mantissa (by decide) small
    obtain ⟨negative, exponent, fraction⟩ := fields_word (toNat_sign v) (by decide) (by omega) word
    refine ⟨negative.trans (decide_eq_decide.mpr (sign_iff v)), exponent, ?_⟩
    rw [fraction]
    omega
  rw [if_neg (mt top.mp infinite), SameHalf, if_neg infinite]
  by_cases normal : halfExponent v ≠ 0
  · rw [if_pos (mt bottom.mp normal)]
    have moved : ((b + 112) <<< 23).toNat = (halfExponent v + 112) * 2 ^ 23 := by
      have added : (b + 112).toNat = halfExponent v + 112 := by
        rw [BitVec.toNat_add, exponent]
        change (halfExponent v + 112) % _ = _
        omega
      rw [BitVec.toNat_shiftLeft, added, Nat.shiftLeft_eq]
      omega
    obtain ⟨negative, number, value⟩ := value_word (toNat_sign v) (by omega) (by omega) small
      (assembled_word sign moved mantissa (by omega) small)
    refine ⟨negative.trans (decide_eq_decide.mpr (sign_iff v)), number, value.trans ?_⟩
    have power : ((halfExponent v + 112 : ℕ) - 137 : ℤ) = (halfExponent v : ℕ) - 25 := by omega
    rw [halfValue, if_neg normal, Nat.max_eq_left (by omega), power]
    simp only [sign_iff]
  rw [not_not] at normal
  rw [if_neg (not_not.mpr (bottom.mpr normal))]
  by_cases zero : halfFraction v = 0
  · have none : c = 0 := BitVec.toNat_inj.mp (mantissa.trans zero)
    rw [if_pos none]
    obtain ⟨negative, exponent, fraction⟩ := fields_word (w := a) (toNat_sign v) (by decide : 0 < 2 ^ 8) (by decide : 0 < 2 ^ 23)
      (by rw [sign]; omega)
    refine ⟨negative.trans (decide_eq_decide.mpr (sign_iff v)), by rw [Single.Number, exponent]; decide, ?_⟩
    rw [Single.value, Single.significand, exponent, if_pos rfl, fraction, halfValue, normal, if_pos rfl, zero]
    simp
  · have some : c ≠ 0 := fun none => zero (mantissa ▸ congrArg BitVec.toNat none)
    rw [if_neg some]
    have word : c = BitVec.ofNat 32 (halfFraction v) := by
      rw [← BitVec.toNat_inj, mantissa, BitVec.toNat_ofNat, Nat.mod_eq_of_lt (by omega)]
    obtain ⟨k, most, same, low, high⟩ := normalizeHalf_eq 10 (halfFraction v) (-14) (by omega) (by omega)
    rw [word, same]
    have power : (BitVec.ofInt 32 (-14 - k + 127) <<< 23).toNat = (113 - k) * 2 ^ 23 := by
      rw [show (-14 - k + 127 : ℤ) = ((113 - k : ℕ) : ℤ) by omega, BitVec.ofInt_natCast, BitVec.toNat_shiftLeft, BitVec.toNat_ofNat,
        Nat.shiftLeft_eq]
      omega
    have rest : (BitVec.ofNat 32 (halfFraction v * 2 ^ k) &&& 1023#32).toNat = halfFraction v * 2 ^ k - 1024 := by
      have masked : halfFraction v * 2 ^ k &&& 1023 = halfFraction v * 2 ^ k % 2 ^ 10 := Nat.and_two_pow_sub_one_eq_mod _ 10
      rw [BitVec.toNat_and, BitVec.toNat_ofNat, Nat.mod_eq_of_lt (by omega)]
      change _ &&& 1023 = _
      omega
    obtain ⟨negative, number, value⟩ := value_word (toNat_sign v) (by omega) (by omega) (by omega)
      (assembled_word sign power rest (by omega) (by omega))
    refine ⟨negative.trans (decide_eq_decide.mpr (sign_iff v)), number, value.trans ?_⟩
    rw [halfValue, normal, if_pos rfl, show 2 ^ 10 + (halfFraction v * 2 ^ k - 1024) = halfFraction v * 2 ^ k by omega]
    have sum : (k : ℤ) + ((113 - k : ℕ) - 137) = (max 0 1 : ℕ) - 25 := by omega
    rw [← sum, zpow_add₀ two_ne_zero, zpow_natCast, Nat.cast_mul, Nat.cast_pow, Nat.cast_ofNat]
    simp only [sign_iff, mul_assoc]

end Half

section Normalized

/-- The shift that brings a byte to 255 or above. -/
theorem shift_byte : ∀ n < 256, n ≠ 0 → 255 ≤ n * 2 ^ ((List.range 8).find? fun s => 255 ≤ n * 2 ^ s).getD 8 ∧
    n * 2 ^ ((List.range 8).find? fun s => 255 ≤ n * 2 ^ s).getD 8 < 510 ∧ ((List.range 8).find? fun s => 255 ≤ n * 2 ^ s).getD 8 ≤ 8 := by
  decide +kernel

/-- The quotient of 24 bits is the nearest one. -/
theorem quotient_close {x y : ℕ} (hx : 255 ≤ x) (small : x < 510) (hy : y = (2 * x * 2 ^ 23 + 255) / 510) :
    2 ^ 23 ≤ y ∧ y < 2 ^ 24 ∧ |(y : ℚ) - x * 2 ^ 23 / 255| ≤ 1 / 2 := by
  have low : 510 * y ≤ 2 * x * 2 ^ 23 + 255 := by omega
  have high : 2 * x * 2 ^ 23 + 255 < 510 * y + 510 := by omega
  refine ⟨by omega, by omega, abs_le.mpr ?_⟩
  have low' : (510 : ℚ) * y ≤ 2 * x * 2 ^ 23 + 255 := by exact_mod_cast low
  have high' : (2 * x * 2 ^ 23 + 255 : ℚ) < 510 * y + 510 := by exact_mod_cast high
  constructor <;> linarith

/-- **Normalized bytes become the numbers nearest to their quotients.** -/
theorem unormBits_nearest (v : BitVec 8) : Single.negative (unormBits v) = false ∧ Single.Nearest (v.toNat / 255) (unormBits v) := by
  rw [unormBits]
  split
  · rename_i zero
    rw [zero]
    refine ⟨by decide, by decide, fun q _ => ?_⟩
    rw [Single.value_zero]
    simp
  · rename_i some
    have pos : v.toNat ≠ 0 := fun none => some (BitVec.toNat_inj.mp none)
    obtain ⟨least, most, short⟩ := shift_byte v.toNat v.isLt pos
    generalize ((List.range 8).find? fun s => 255 ≤ v.toNat * 2 ^ s).getD 8 = s at least most short ⊢
    have scaled : 2 * v.toNat * 2 ^ (23 + s) = 2 * (v.toNat * 2 ^ s) * 2 ^ 23 := by rw [pow_add]; ring
    simp only [scaled]
    generalize quotient : (2 * (v.toNat * 2 ^ s) * 2 ^ 23 + 255) / 510 = y
    obtain ⟨low, high, close⟩ := quotient_close least most quotient.symm
    refine ⟨?_, Single.nearest_of_scaled (n := y) (by omega) (by omega) (by omega) ?_ ?_⟩
    · rw [Single.negative, Single.toNat_pattern (by omega) (by omega), decide_eq_false_iff_not]
      omega
    · have : (255 : ℚ) ≤ v.toNat * 2 ^ s := by exact_mod_cast least
      rw [div_mul_eq_mul_div, le_div_iff₀ (by norm_num)]
      linarith
    · have same : (v.toNat / 255 : ℚ) * 2 ^ (s + 23) = (v.toNat * 2 ^ s : ℕ) * 2 ^ 23 / 255 := by
        push_cast
        rw [pow_add]
        ring
      rwa [same]

end Normalized

section Integers

/-- The number that bytes are, least significant byte first. -/
theorem bytes_lt (bytes : List (BitVec 8)) : bytes.foldr (fun byte n => byte.toNat + 256 * n) 0 < 2 ^ (8 * bytes.length) := by
  induction bytes with
  | nil => exact Nat.one_pos
  | cons byte bytes ih =>
    have := byte.isLt
    rw [List.foldr_cons, List.length_cons, Nat.mul_succ, pow_add]
    omega

/-- The exchange of the sign bit and a subtraction extend the sign. -/
theorem extended_sign {w : ℕ} (pos : 0 < w) (narrow : w < 32) (n : ℕ) (hn : n < 2 ^ w) :
    (BitVec.ofNat 32 n ^^^ 1#32 <<< (w - 1)) - 1#32 <<< (w - 1) = (BitVec.ofNat w n).signExtend 32 := by
  have wide : 2 ^ w < 2 ^ 32 := Nat.pow_lt_pow_right (by decide) narrow
  have half : 2 * 2 ^ (w - 1) = 2 ^ w := by rw [← pow_succ', Nat.sub_add_cancel pos]
  have sign : (1#32 <<< (w - 1)).toNat = 2 ^ (w - 1) := by
    rw [BitVec.toNat_shiftLeft, Nat.shiftLeft_eq]
    change 1 * _ % _ = _
    omega
  have word : (BitVec.ofNat 32 n).toNat = n := by rw [BitVec.toNat_ofNat, Nat.mod_eq_of_lt (hn.trans wide)]
  have kept : ((BitVec.ofNat w n).setWidth 32).toNat = n := by
    rw [BitVec.toNat_setWidth, BitVec.toNat_ofNat, Nat.mod_eq_of_lt hn, Nat.mod_eq_of_lt (hn.trans wide)]
  have msb : (BitVec.ofNat w n).msb = decide (2 ^ (w - 1) ≤ n) := by
    rw [BitVec.msb_eq_decide, BitVec.toNat_ofNat, Nat.mod_eq_of_lt hn]
  rw [← BitVec.toNat_inj, BitVec.toNat_signExtend, kept, msb, BitVec.toNat_sub, BitVec.toNat_xor, word, sign]
  by_cases negative : 2 ^ (w - 1) ≤ n
  · obtain ⟨m, rfl⟩ := Nat.exists_eq_add_of_le negative
    rw [← Single.xor_two_pow (show m < 2 ^ (w - 1) by omega), Nat.xor_assoc, Nat.xor_self, Nat.xor_zero,
      Single.xor_two_pow (show m < 2 ^ (w - 1) by omega), if_pos (decide_eq_true (Nat.le_add_right _ _))]
    omega
  · rw [Single.xor_two_pow (by omega), if_neg (by simpa using negative)]
    omega

end Integers

/-- The widths of the components of integer formats. -/
theorem integer_bytes (format : Format) (integer : integerBufferKind format ≠ 0) :
    bufferComponentBytes (integerBufferKind format) ∈ [1, 2, 4] := by
  cases format <;> first | decide | exact absurd rfl integer

/-- **Every conversion gives the word of its component.** -/
theorem convert_converted {format : Format} {bytes : List (BitVec 8)} (size : bytes.length = (shape format).componentBytes) :
    Converted format bytes (convert (shape format) bytes) := by
  unfold Converted convert
  by_cases normalized : format = .r8g8b8a8Unorm
  · have yes : (shape format).normalized = true := decide_eq_true normalized
    rw [if_pos normalized, if_pos yes]
    have single : (shape format).componentBytes = 1 := by rw [normalized]; decide
    have small := bytes_lt bytes
    rw [size, single] at small
    obtain ⟨positive, nearest⟩ := unormBits_nearest ((loaded bytes).setWidth 8)
    have byte : ((loaded bytes).setWidth 8).toNat = (loaded bytes).toNat := by
      rw [loaded, BitVec.toNat_setWidth, BitVec.toNat_ofNat]
      omega
    rw [byte] at nearest
    exact ⟨by rw [positive]; exact Bool.false_ne_true, nearest⟩
  have no : ¬(shape format).normalized = true := fun yes => normalized (of_decide_eq_true yes)
  rw [if_neg normalized, if_neg no]
  by_cases integer : integerBufferKind format ≠ 0
  · have yes : (shape format).integer = true := decide_eq_true integer
    rw [if_pos integer, if_pos yes]
    have width : (shape format).componentBytes = bufferComponentBytes (integerBufferKind format) := if_pos (by simp [integer])
    have sizes := integer_bytes format integer
    have small := bytes_lt bytes
    have bits : 8 * bytes.length ∈ [8, 16, 32] := by
      rw [← width, ← size] at sizes
      simp only [List.mem_cons, List.not_mem_nil, or_false] at sizes ⊢
      omega
    have signed : (shape format).signedInteger = bufferSigned (integerBufferKind format) := rfl
    rw [component, signed, loaded, ← size]
    have unextended : BitVec.ofNat 32 (bytes.foldr (fun byte n => byte.toNat + 256 * n) 0) =
        (BitVec.ofNat (8 * bytes.length) (bytes.foldr (fun byte n => byte.toNat + 256 * n) 0)).setWidth 32 := by
      rw [← BitVec.toNat_inj, BitVec.toNat_ofNat, BitVec.toNat_setWidth, BitVec.toNat_ofNat, Nat.mod_eq_of_lt small]
    simp only [List.mem_cons, List.not_mem_nil, or_false] at bits
    cases bufferSigned (integerBufferKind format) with
    | false => exact (if_neg (by simp)).trans unextended
    | true =>
      by_cases narrow : bytes.length < 4
      · rw [if_pos ⟨rfl, narrow⟩, if_pos rfl, Nat.mul_comm]
        exact extended_sign (by omega) (by omega) _ small
      · have wide : 8 * bytes.length = 32 := by omega
        rw [if_neg fun both => narrow both.2, if_pos rfl]
        refine unextended.trans ?_
        rw [wide, BitVec.setWidth_eq, BitVec.signExtend_eq]
  have no : ¬(shape format).integer = true := fun yes => integer (of_decide_eq_true yes)
  rw [if_neg integer, if_neg no]
  by_cases half : format = .r16g16Float
  · have yes : (shape format).half = true := decide_eq_true half
    rw [if_pos half, if_pos yes]
    exact float16Bits_same _
  · have no : ¬(shape format).half = true := fun yes => half (of_decide_eq_true yes)
    rw [if_neg half, if_neg no]

end Pi5Drivers.Draw
