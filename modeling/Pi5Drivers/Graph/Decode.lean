import Mathlib.Data.List.DropRight
import Pi5Drivers.Lib.Packing

/-! The firmware describes the machine as a graph, which is asked for by methods that return numbers, strings and
bytes. The answer of a method is a buffer with the arguments one after the other. Every byte is read through a check
that it lies in the buffer, so that a reader that leaves it stops with another refusal than that of the decoder. -/

namespace Pi5Drivers.Graph

/-! ### The decoder -/

/-- A buffer, whose size is a number of 32 bits. -/
structure Buffer where
  bytes : List (BitVec 8)
  fits : bytes.length < 2 ^ 32

def Buffer.size (data : Buffer) : BitVec 32 := BitVec.ofNat 32 data.bytes.length

inductive Refusal
  | invalid
  | outside (i : ℕ)
deriving DecidableEq, Repr

abbrev Decoder := Except Refusal

/-- The data of an argument are where they are in the buffer. -/
structure Argument where
  type : BitVec 16
  length : BitVec 16
  data : ℕ
deriving DecidableEq, Repr

def byte (data : Buffer) (i : ℕ) : Decoder (BitVec 8) :=
  match data.bytes[i]? with
  | some b => .ok b
  | none => .error (.outside i)

def le16 (data : Buffer) (i : ℕ) : Decoder (BitVec 16) := do
  let a ← byte data i
  let b ← byte data (i + 1)
  pure (word16 a b)

def le32 (data : Buffer) (i : ℕ) : Decoder (BitVec 32) := do
  let a ← byte data i
  let b ← byte data (i + 1)
  let c ← byte data (i + 2)
  let d ← byte data (i + 3)
  pure (word32 a b c d)

/-- Is there a zero among so many bytes? -/
def findZero (data : Buffer) : ℕ → ℕ → Decoder Bool
  | 0, _ => pure false
  | n + 1, i => do
    let b ← byte data i
    if b = 0 then pure true else findZero data n (i + 1)

/-- A number has 4 or 8 bytes, and a string ends with its only zero. -/
def malformed (data : Buffer) (a : Argument) : Decoder Bool := do
  if 2 < a.type then pure true
  else if a.type = 0 ∧ a.length ≠ 4 ∧ a.length ≠ 8 then pure true
  else if a.type = 1 then
    if a.length = 0 then pure true
    else
      let last ← byte data (a.data + (a.length.toNat - 1))
      if last ≠ 0 then pure true else findZero data (a.length.toNat - 1) a.data
  else pure false

/-- An argument, and the place behind it. -/
def decodeArgument (data : Buffer) (i : BitVec 32) : Decoder (Argument × BitVec 32) := do
  if data.size - i < 8 then throw .invalid
  else
    let type ← le16 data i.toNat
    let length ← le16 data (i.toNat + 2)
    let width : BitVec 32 := if length < 4 then 4 else length.setWidth 32
    if data.size - i - 4 < width then throw .invalid
    else
      let a : Argument := ⟨type, length, i.toNat + 4⟩
      let bad ← malformed data a
      if bad then throw .invalid else pure (a, i + (4 + width))

def decodeArguments (data : Buffer) : ℕ → BitVec 32 → Decoder (List Argument × BitVec 32)
  | 0, i => pure ([], i)
  | n + 1, i => do
    let (a, i) ← decodeArgument data i
    let (l, i) ← decodeArguments data n i
    pure (a :: l, i)

def graphDecode (data : Buffer) (count : BitVec 32) : Decoder (List Argument) := do
  if data.size < 12 then throw .invalid
  else
    let signature ← le32 data 0
    if signature ≠ 0x426f6541 then throw .invalid
    else
      let size ← le32 data 4
      if size ≠ data.size then throw .invalid
      else
        let number ← le32 data 8
        if number ≠ count ∨ 4 < count then throw .invalid
        else
          let (l, i) ← decodeArguments data count.toNat 12
          if i = data.size then pure l else throw .invalid

/-! ### The encoding -/

inductive Value
  | integer (v : BitVec 32)
  | long (v : BitVec 64)
  | string (text : List (BitVec 8)) (plain : 0 ∉ text)
  | buffer (bytes : List (BitVec 8))

namespace Value

def type : Value → ℕ
  | integer _ => 0
  | long _ => 0
  | string _ _ => 1
  | buffer _ => 2

def payload : Value → List (BitVec 8)
  | integer v => le 4 v.toNat
  | long v => le 8 v.toNat
  | string text _ => text ++ [0]
  | buffer bytes => bytes

end Value

/-- An argument in a buffer. What fills it up to the least size is not looked at. -/
def argument (v : Value) (pad : List (BitVec 8)) : List (BitVec 8) := le 2 v.type ++ le 2 v.payload.length ++ v.payload ++ pad

/-- The size of an argument is a number of 16 bits, and it has at least 4 bytes. -/
structure Fills (v : Value) (pad : List (BitVec 8)) : Prop where
  size : v.payload.length < 2 ^ 16
  least : pad.length = 4 - v.payload.length

inductive Encodes : List Value → List (BitVec 8) → Prop
  | nil : Encodes [] []
  | cons {v : Value} {pad rest : List (BitVec 8)} {values : List Value} (fills : Fills v pad) (h : Encodes values rest) :
      Encodes (v :: values) (argument v pad ++ rest)

/-- The buffer that a method returns. -/
def Evaluation (values : List Value) (data : List (BitVec 8)) : Prop :=
  ∃ body, Encodes values body ∧ data = le 4 0x426f6541 ++ le 4 (12 + body.length) ++ le 4 values.length ++ body

/-- What an argument is, by its type and its bytes. -/
def Argument.Is (data : Buffer) (a : Argument) (v : Value) : Prop :=
  a.type.toNat = v.type ∧ (data.bytes.drop a.data).take a.length.toNat = v.payload ∧ a.length.toNat = v.payload.length

/-! ### Reading -/

section Reading

variable {data : Buffer} {i n : ℕ} {a b c d : BitVec 8} {l : List (BitVec 8)}

theorem toNat_size (data : Buffer) : data.size.toNat = data.bytes.length := by
  rw [Buffer.size, BitVec.toNat_ofNat]
  exact Nat.mod_eq_of_lt data.fits

theorem byte_drop (h : data.bytes.drop i = a :: l) : byte data i = .ok a := by
  have there : data.bytes[i]? = some a := by
    rw [← Nat.add_zero i, ← List.getElem?_drop, h]
    rfl
  rw [byte, there]

theorem drop_succ (h : data.bytes.drop i = a :: l) : data.bytes.drop (i + 1) = l := by
  rw [← List.drop_drop, h]
  rfl

theorem le16_drop (h : data.bytes.drop i = a :: b :: l) : le16 data i = .ok (word16 a b) := by
  rw [le16, byte_drop h, byte_drop (drop_succ h)]
  rfl

theorem le32_drop (h : data.bytes.drop i = a :: b :: c :: d :: l) : le32 data i = .ok (word32 a b c d) := by
  have second := drop_succ h
  have third := drop_succ second
  rw [le32, byte_drop h, byte_drop second, byte_drop third, byte_drop (drop_succ third)]
  rfl

theorem findZero_drop (data : Buffer) (n i : ℕ) (inside : n ≤ (data.bytes.drop i).length) : findZero data n i = .ok (decide (0 ∈ (data.bytes.drop i).take n)) := by
  induction n generalizing i with
  | zero => rfl
  | succ n ih =>
    rcases h : data.bytes.drop i with _ | ⟨b, l⟩
    · rw [h] at inside
      exact absurd inside (Nat.not_succ_le_zero n)
    · have rest := drop_succ h
      have next := ih (i + 1) (by rw [rest]; rw [h] at inside; exact Nat.le_of_succ_le_succ inside)
      rw [findZero, byte_drop h]
      change (if b = 0 then pure true else findZero data n (i + 1)) = _
      rw [next, rest, List.take_succ_cons]
      by_cases zero : b = 0
      · rw [if_pos zero, zero, decide_eq_true List.mem_cons_self]
        rfl
      · rw [if_neg zero]
        congr 1
        simp only [List.mem_cons, Ne.symm zero, false_or]

end Reading

/-! ### Arguments -/

section Arguments

variable {data : Buffer} {a : Argument} {v : Value} {pad rest l : List (BitVec 8)} {i : BitVec 32}

theorem Value.type_le (v : Value) : v.type ≤ 2 := by cases v <;> simp [type]

/-- The only bytes that a number can have. -/
theorem Value.number_length (h : v.type = 0) : v.payload.length = 4 ∨ v.payload.length = 8 := by
  cases v
  case integer v => exact .inl length_le
  case long v => exact .inr length_le
  all_goals exact absurd h (by simp [type])

theorem exists_number {p : List (BitVec 8)} (h : p.length = 4 ∨ p.length = 8) : ∃ v : Value, v.type = 0 ∧ v.payload = p := by
  have small := fromLe_lt (l := p)
  rcases h with h | h
  · refine ⟨.integer (BitVec.ofNat 32 (fromLe p)), rfl, ?_⟩
    rw [h] at small
    rw [Value.payload, BitVec.toNat_ofNat, Nat.mod_eq_of_lt (Nat.lt_of_lt_of_eq small (by decide))]
    exact (eq_le_of_fromLe h rfl).symm
  · refine ⟨.long (BitVec.ofNat 64 (fromLe p)), rfl, ?_⟩
    rw [h] at small
    rw [Value.payload, BitVec.toNat_ofNat, Nat.mod_eq_of_lt (Nat.lt_of_lt_of_eq small (by decide))]
    exact (eq_le_of_fromLe h rfl).symm

/-- A string ends with its only zero. -/
theorem exists_string {p : List (BitVec 8)} {last : BitVec 8} :
    (∃ v : Value, v.type = 1 ∧ v.payload = p ++ [last]) ↔ last = 0 ∧ 0 ∉ p := by
  constructor
  · rintro ⟨v, type, payload⟩
    cases v
    case string text plain =>
      obtain ⟨rfl, same⟩ := List.append_inj' payload rfl
      exact ⟨(List.cons.inj same).1.symm, plain⟩
    all_goals exact absurd type (by simp [Value.type])
  · rintro ⟨rfl, plain⟩
    exact ⟨.string p plain, rfl, rfl⟩

theorem is_iff {p : List (BitVec 8)} (type : ℕ) (ht : a.type.toNat = type) (hp : (data.bytes.drop a.data).take a.length.toNat = p)
    (hl : a.length.toNat = p.length) : (∃ v, a.Is data v) ↔ ∃ v : Value, v.type = type ∧ v.payload = p := by
  unfold Argument.Is
  rw [ht, hp, hl]
  constructor
  · rintro ⟨v, h, h', -⟩
    exact ⟨v, h.symm, h'.symm⟩
  · rintro ⟨v, h, h'⟩
    exact ⟨v, h.symm, h'.symm, congrArg List.length h'.symm⟩

/-- An argument in the buffer is refused exactly where there is no value that it is. -/
theorem malformed_spec (data : Buffer) (a : Argument) (inside : a.data + a.length.toNat ≤ data.bytes.length) :
    ∃ bad, malformed data a = .ok bad ∧ (bad = true ↔ ¬∃ v, a.Is data v) := by
  obtain ⟨p, hp⟩ : ∃ p, (data.bytes.drop a.data).take a.length.toNat = p := ⟨_, rfl⟩
  have hl : a.length.toNat = p.length := by
    rw [← hp, List.length_take, List.length_drop]
    omega
  unfold malformed
  by_cases large : 2 < a.type
  · rw [if_pos large]
    refine ⟨true, rfl, iff_of_true rfl ?_⟩
    rintro ⟨v, type, -⟩
    have := v.type_le
    have large : 2 < a.type.toNat := large
    omega
  rw [if_neg large]
  by_cases number : a.type = 0
  · have is := is_iff 0 (congrArg BitVec.toNat number) hp hl
    by_cases size : a.length ≠ 4 ∧ a.length ≠ 8
    · rw [if_pos ⟨number, size⟩]
      refine ⟨true, rfl, iff_of_true rfl ?_⟩
      rw [is]
      rintro ⟨v, type, rfl⟩
      rcases Value.number_length type with four | eight
      · exact size.1 (BitVec.eq_of_toNat_eq (hl.trans four))
      · exact size.2 (BitVec.eq_of_toNat_eq (hl.trans eight))
    · rw [if_neg fun no => size no.2, if_neg (by rw [number]; decide)]
      refine ⟨false, rfl, iff_of_false (by decide) (not_not.mpr (is.mpr (exists_number ?_)))⟩
      rw [← hl]
      by_contra no
      exact size ⟨fun four => no (.inl (congrArg BitVec.toNat four)), fun eight => no (.inr (congrArg BitVec.toNat eight))⟩
  rw [if_neg fun no => number no.1]
  by_cases text : a.type = 1
  · have is := is_iff 1 (congrArg BitVec.toNat text) hp hl
    rw [if_pos text]
    by_cases empty : a.length = 0
    · rw [if_pos empty]
      refine ⟨true, rfl, iff_of_true rfl ?_⟩
      rw [is]
      rintro ⟨v, type, rfl⟩
      cases v
      case string text plain =>
        rw [empty, Value.payload, List.length_append] at hl
        exact absurd hl (Nat.succ_ne_zero _).symm
      all_goals exact absurd type (by simp [Value.type])
    rw [if_neg empty]
    have pos : p ≠ [] := by
      rintro rfl
      exact empty (BitVec.eq_of_toNat_eq hl)
    obtain ⟨q, last, rfl⟩ : ∃ q last, p = q ++ [last] := ⟨_, _, (List.dropLast_append_getLast pos).symm⟩
    have count : a.length.toNat - 1 = q.length := by
      rw [hl, List.length_append]
      rfl
    have whole : data.bytes.drop a.data = (q ++ [last]) ++ data.bytes.drop (a.data + a.length.toNat) := by
      rw [← hp, ← List.drop_drop, List.take_append_drop]
    have atLast : data.bytes.drop (a.data + (a.length.toNat - 1)) = last :: data.bytes.drop (a.data + a.length.toNat) := by
      rw [← List.drop_drop, whole, count, List.append_assoc, List.drop_left]
      rfl
    have among : (data.bytes.drop a.data).take (a.length.toNat - 1) = q := by
      rw [whole, count, List.append_assoc, List.take_left]
    have search := findZero_drop data (a.length.toNat - 1) a.data (by rw [List.length_drop]; omega)
    rw [among] at search
    have strings := is.trans exists_string
    rw [byte_drop atLast]
    change ∃ bad, (if last ≠ 0 then pure true else findZero data (a.length.toNat - 1) a.data) = .ok bad ∧ _
    by_cases zero : last = 0
    · rw [if_neg (not_not.mpr zero), search]
      refine ⟨_, rfl, ?_⟩
      rw [decide_eq_true_iff, strings]
      simp only [zero, true_and, not_not]
    · rw [if_pos zero]
      exact ⟨true, rfl, iff_of_true rfl fun no => zero (strings.mp no).1⟩
  · rw [if_neg text]
    have two : a.type.toNat = 2 := by
      have h0 : a.type.toNat ≠ 0 := fun no => number (BitVec.eq_of_toNat_eq no)
      have h1 : a.type.toNat ≠ 1 := fun no => text (BitVec.eq_of_toNat_eq no)
      have h2 : ¬2 < a.type.toNat := large
      omega
    refine ⟨false, rfl, iff_of_false (by decide) (not_not.mpr ((is_iff 2 two hp hl).mpr ⟨.buffer p, rfl, rfl⟩))⟩

theorem length_argument (v : Value) (pad : List (BitVec 8)) : (argument v pad).length = 4 + (v.payload.length + pad.length) := by
  simp only [argument, List.length_append, length_le]
  omega

/-- The front of an argument names its type and its size. -/
theorem argument_front {b c d e : BitVec 8} (fills : Fills v pad) (h : b :: c :: d :: e :: l = argument v pad ++ rest) :
    (word16 b c).toNat = v.type ∧ (word16 d e).toNat = v.payload.length ∧ l = v.payload ++ (pad ++ rest) := by
  have two {x y : BitVec 8} {n : ℕ} (small : n < 256 ^ 2) (same : [x, y] = le 2 n) : (word16 x y).toNat = n := by
    rw [toNat_word16, same, fromLe_le_of_lt small]
  have parts : [b, c] ++ ([d, e] ++ l) = le 2 v.type ++ (le 2 v.payload.length ++ (v.payload ++ (pad ++ rest))) := by
    rw [argument, List.append_assoc, List.append_assoc, List.append_assoc] at h
    exact h
  obtain ⟨type, parts⟩ := List.append_inj parts rfl
  obtain ⟨length, parts⟩ := List.append_inj parts rfl
  exact ⟨two (Nat.lt_of_le_of_lt v.type_le (by decide)) type, two fills.size length, parts⟩

theorem exists_front (h : 4 ≤ l.length) : ∃ b c d e body, l = b :: c :: d :: e :: body := by
  match l, h with
  | b :: c :: d :: e :: body, _ => exact ⟨b, c, d, e, body, rfl⟩

/-- An argument is decoded exactly where there is one. -/
theorem decodeArgument_spec (inside : i.toNat ≤ data.bytes.length) :
    (∃ v pad rest a j, (Fills v pad ∧ data.bytes.drop i.toNat = argument v pad ++ rest) ∧ decodeArgument data i = .ok (a, j) ∧
      a.Is data v ∧ j.toNat = i.toNat + (argument v pad).length) ∨
    decodeArgument data i = .error .invalid ∧ ¬∃ v pad rest, Fills v pad ∧ data.bytes.drop i.toNat = argument v pad ++ rest := by
  have fits := data.fits
  have room : (data.size - i).toNat = (data.bytes.drop i.toNat).length := by
    rw [BitVec.toNat_sub_of_le (by rw [BitVec.le_def, toNat_size]; exact inside), toNat_size, List.length_drop]
  have length := List.length_drop (i := i.toNat) (l := data.bytes)
  by_cases short : data.size - i < 8
  · refine .inr ⟨if_pos short, ?_⟩
    rintro ⟨v, pad, rest, fills, there⟩
    have short : (data.size - i).toNat < 8 := short
    have least := fills.least
    rw [room, there, List.length_append, length_argument] at short
    omega
  have long : ¬(data.size - i).toNat < 8 := short
  rw [room] at long
  obtain ⟨b, c, d, e, body, split⟩ := exists_front (l := data.bytes.drop i.toNat) (by omega)
  have second : data.bytes.drop (i.toNat + 2) = d :: e :: body := drop_succ (drop_succ split)
  have behind : data.bytes.drop (i.toNat + 4) = body := drop_succ (drop_succ second)
  have size : (data.bytes.drop i.toNat).length = body.length + 4 := by rw [split]; rfl
  have room' : (data.size - i - 4).toNat = body.length := by
    rw [BitVec.toNat_sub_of_le (by rw [BitVec.le_def, room]; change 4 ≤ _; omega), room, size]
    rfl
  have width : (if word16 d e < 4 then 4 else (word16 d e).setWidth 32 : BitVec 32).toNat = max 4 (word16 d e).toNat := by
    split
    · rename_i small
      have small : (word16 d e).toNat < 4 := small
      change 4 = _
      omega
    · rename_i large
      have large : ¬(word16 d e).toNat < 4 := large
      rw [BitVec.toNat_setWidth_of_le (by decide)]
      omega
  have steps : decodeArgument data i =
      if data.size - i - 4 < (if word16 d e < 4 then 4 else (word16 d e).setWidth 32) then .error .invalid
      else malformed data ⟨word16 b c, word16 d e, i.toNat + 4⟩ >>= fun bad =>
        if bad then .error .invalid
        else .ok (⟨word16 b c, word16 d e, i.toNat + 4⟩, i + (4 + if word16 d e < 4 then 4 else (word16 d e).setWidth 32)) := by
    rw [decodeArgument, if_neg short, le16_drop split, le16_drop second]
    rfl
  rw [steps]
  generalize hwidth : (if word16 d e < 4 then 4 else (word16 d e).setWidth 32 : BitVec 32) = w at width
  rw [split]
  by_cases beyond : data.size - i - 4 < w
  · rw [if_pos beyond]
    refine .inr ⟨rfl, ?_⟩
    rintro ⟨v, pad, rest, fills, there⟩
    obtain ⟨-, sized, rfl⟩ := argument_front fills there
    have beyond : (data.size - i - 4).toNat < w.toNat := beyond
    have least := fills.least
    rw [room', width, sized, List.length_append, List.length_append] at beyond
    omega
  rw [if_neg beyond]
  have beyond : ¬(data.size - i - 4).toNat < w.toNat := beyond
  rw [room', width] at beyond
  obtain ⟨bad, run, bad_iff⟩ := malformed_spec data ⟨word16 b c, word16 d e, i.toNat + 4⟩ (by simp only; omega)
  rw [run]
  cases bad
  · have good := not_not.mp fun no => absurd (bad_iff.mpr no) (by decide)
    obtain ⟨v, is⟩ := good
    obtain ⟨type, payload, sized⟩ := is
    simp only at type payload sized
    rw [behind] at payload
    have bound : v.payload.length < 2 ^ 16 := sized ▸ (word16 d e).isLt
    have front : [b, c] ++ [d, e] = le 2 v.type ++ le 2 v.payload.length := by
      rw [← type, ← sized, toNat_word16, toNat_word16]
      exact congrArg₂ (· ++ ·) (eq_le_of_fromLe rfl rfl) (eq_le_of_fromLe rfl rfl)
    have filled : (body.drop v.payload.length).take (4 - v.payload.length) ++ body.drop (max 4 v.payload.length) =
        body.drop v.payload.length := by
      have sum : max 4 v.payload.length = v.payload.length + (4 - v.payload.length) := by omega
      rw [sum, ← List.drop_drop, List.take_append_drop]
    have joined : v.payload ++ body.drop v.payload.length = body := by rw [← sized, ← payload, List.take_append_drop]
    refine .inl ⟨v, (body.drop v.payload.length).take (4 - v.payload.length), body.drop (max 4 v.payload.length), _, _,
      ⟨⟨bound, ?_⟩, ?_⟩, rfl, ⟨type, by rw [behind]; exact payload, sized⟩, ?_⟩
    · rw [List.length_take, List.length_drop]
      omega
    · rw [argument, List.append_assoc _ _ (body.drop _), filled, ← front, List.append_assoc, joined]
      rfl
    · have four : (4 : BitVec 32).toNat = 4 := rfl
      rw [length_argument, BitVec.toNat_add, BitVec.toNat_add, four, width, List.length_take, List.length_drop]
      omega
  · refine .inr ⟨rfl, ?_⟩
    rintro ⟨v, pad, rest, fills, there⟩
    obtain ⟨type, sized, same⟩ := argument_front fills there
    refine bad_iff.mp rfl ⟨v, type, ?_, sized⟩
    simp only
    rw [behind, same, sized, List.take_left]

/-- A value is known by its type and its bytes. -/
theorem Value.eq_of_payload {v w : Value} (type : v.type = w.type) (payload : v.payload = w.payload) : v = w := by
  have number {n x y : ℕ} (hx : x < 256 ^ n) (hy : y < 256 ^ n) (same : le n x = le n y) : x = y := by
    rw [← fromLe_le_of_lt hx, ← fromLe_le_of_lt hy, same]
  have size := congrArg List.length payload
  cases v <;> cases w
  case integer.integer x y =>
    exact congrArg Value.integer (BitVec.eq_of_toNat_eq (number (Nat.lt_of_lt_of_eq x.isLt rfl) (Nat.lt_of_lt_of_eq y.isLt rfl) payload))
  case long.long x y =>
    exact congrArg Value.long (BitVec.eq_of_toNat_eq (number (Nat.lt_of_lt_of_eq x.isLt rfl) (Nat.lt_of_lt_of_eq y.isLt rfl) payload))
  case integer.long => exact absurd size (by simp [Value.payload])
  case long.integer => exact absurd size (by simp [Value.payload])
  case string.string x _ y _ =>
    obtain rfl : x = y := (List.append_inj' payload rfl).1
    rfl
  case buffer.buffer => exact congrArg Value.buffer payload
  all_goals exact absurd type (by simp [Value.type])

/-- A buffer has no two arguments in one place. -/
theorem argument_unique {w : Value} {pad' rest' : List (BitVec 8)} (fills : Fills v pad) (fills' : Fills w pad')
    (h : argument v pad ++ rest = argument w pad' ++ rest') : v = w ∧ pad = pad' ∧ rest = rest' := by
  have size := length_argument v pad
  obtain ⟨b, c, d, e, body, front⟩ := exists_front (l := argument v pad ++ rest) (by rw [List.length_append]; omega)
  obtain ⟨type, length, same⟩ := argument_front fills front.symm
  obtain ⟨type', length', same'⟩ := argument_front fills' (front.symm.trans h)
  obtain ⟨payload, others⟩ := List.append_inj (same.symm.trans same') (length.symm.trans length')
  have pads : pad.length = pad'.length := by rw [fills.least, fills'.least, payload]
  exact ⟨Value.eq_of_payload (type.symm.trans type') payload, List.append_inj others pads⟩

theorem decodeArguments_complete {values : List Value} {body : List (BitVec 8)} (h : Encodes values body)
    (there : data.bytes.drop i.toNat = body ++ rest) (inside : i.toNat ≤ data.bytes.length) :
    ∃ l j, decodeArguments data values.length i = .ok (l, j) ∧ List.Forall₂ (Argument.Is data) l values ∧
      j.toNat = i.toNat + body.length := by
  induction h generalizing i with
  | nil => exact ⟨[], i, rfl, .nil, rfl⟩
  | @cons v pad body values fills h ih =>
    rw [List.append_assoc] at there
    rcases decodeArgument_spec inside with ⟨w, pad', rest', a, j, ⟨fills', there'⟩, run, is, next⟩ | ⟨-, no⟩
    · obtain ⟨rfl, rfl, rfl⟩ := argument_unique fills fills' (there.symm.trans there')
      have size := congrArg List.length there
      rw [List.length_drop, List.length_append] at size
      have behind : data.bytes.drop j.toNat = body ++ rest := by
        rw [next, ← List.drop_drop, there, List.drop_left]
      obtain ⟨l, k, run', all, last⟩ := ih behind (by omega)
      refine ⟨a :: l, k, ?_, .cons is all, by rw [last, next, List.length_append, Nat.add_assoc]⟩
      rw [List.length_cons, decodeArguments, run]
      change (decodeArguments data values.length j >>= fun r => pure (a :: r.1, r.2)) = _
      rw [run']
      rfl
    · exact absurd ⟨v, pad, _, fills, there⟩ no

theorem decodeArguments_sound (n : ℕ) (inside : i.toNat ≤ data.bytes.length) :
    decodeArguments data n i = .error .invalid ∨
      ∃ values body rest l j, (Encodes values body ∧ values.length = n ∧ data.bytes.drop i.toNat = body ++ rest) ∧
        decodeArguments data n i = .ok (l, j) ∧ j.toNat = i.toNat + body.length := by
  induction n generalizing i with
  | zero => exact .inr ⟨[], [], _, [], i, ⟨.nil, rfl, rfl⟩, rfl, rfl⟩
  | succ n ih =>
    rcases decodeArgument_spec inside with ⟨v, pad, rest, a, j, ⟨fills, there⟩, run, -, next⟩ | ⟨run, -⟩
    · have size := congrArg List.length there
      rw [List.length_drop, List.length_append] at size
      have behind : data.bytes.drop j.toNat = rest := by
        rw [next, ← List.drop_drop, there, List.drop_left]
      have step : decodeArguments data (n + 1) i = decodeArguments data n j >>= fun r => pure (a :: r.1, r.2) := by
        rw [decodeArguments, run]
        rfl
      rw [step]
      rcases ih (i := j) (by omega) with no | ⟨values, body, rest', l, k, ⟨encodes, count, parts⟩, run', last⟩
      · rw [no]
        exact .inl rfl
      · rw [run']
        refine .inr ⟨v :: values, argument v pad ++ body, rest', a :: l, k, ⟨.cons fills encodes, congrArg (· + 1) count, ?_⟩, rfl, ?_⟩
        · rw [there, ← behind, parts, List.append_assoc]
        · rw [last, next, List.length_append, Nat.add_assoc]
    · rw [decodeArguments, run]
      exact .inl rfl

end Arguments

/-! ### Buffers -/

section Buffers

variable {data : Buffer} {count : BitVec 32} {values : List Value}

theorem ok_bind {α β : Type} (x : α) (f : α → Decoder β) : (Except.ok x >>= f) = f x := rfl

theorem le32_le {i x : ℕ} {rest : List (BitVec 8)} (small : x < 2 ^ 32) (h : data.bytes.drop i = le 4 x ++ rest) :
    le32 data i = .ok (BitVec.ofNat 32 x) := by
  rw [le32_drop h]
  congr 1
  apply BitVec.eq_of_toNat_eq
  rw [toNat_word32, BitVec.toNat_ofNat, Nat.mod_eq_of_lt small]
  exact fromLe_le_of_lt (n := 4) (Nat.lt_of_lt_of_eq small (by decide))

/-- The answer of a method is decoded. -/
theorem graphDecode_complete (evaluation : Evaluation values data.bytes) (known : values.length = count.toNat) (few : values.length ≤ 4) :
    ∃ l, graphDecode data count = .ok l ∧ List.Forall₂ (Argument.Is data) l values := by
  obtain ⟨body, encodes, bytes⟩ := evaluation
  have fits := data.fits
  have size : data.bytes.length = 12 + body.length := by
    rw [bytes]
    simp only [List.length_append, length_le]
  have number : BitVec.ofNat 32 values.length = count := by
    rw [known, BitVec.ofNat_toNat, BitVec.setWidth_eq]
  have whole : BitVec.ofNat 32 (12 + body.length) = data.size := by rw [Buffer.size, size]
  have first : data.bytes.drop 0 = le 4 0x426f6541 ++ (le 4 (12 + body.length) ++ (le 4 values.length ++ body)) := by
    rw [bytes, List.drop_zero, List.append_assoc, List.append_assoc]
  have second : data.bytes.drop (0 + 4) = le 4 (12 + body.length) ++ (le 4 values.length ++ body) := by
    rw [← List.drop_drop, first]
    rfl
  have third : data.bytes.drop (0 + 4 + 4) = le 4 values.length ++ body := by
    rw [← List.drop_drop, second]
    rfl
  have fourth : data.bytes.drop (12 : BitVec 32).toNat = body ++ [] := by
    change data.bytes.drop (0 + 4 + 4 + 4) = _
    rw [← List.drop_drop, third, List.append_nil]
    rfl
  obtain ⟨l, j, run, all, last⟩ := decodeArguments_complete encodes fourth (by rw [size]; exact Nat.le_add_right 12 _)
  have long : ¬data.size < 12 := by
    rw [BitVec.not_lt, BitVec.le_def, toNat_size, size]
    exact Nat.le_add_right 12 _
  have four : ¬(count ≠ count ∨ 4 < count) := by
    rw [not_or, BitVec.not_lt, BitVec.le_def, ← known]
    exact ⟨fun no => no rfl, few⟩
  have ends : j = data.size := by
    apply BitVec.eq_of_toNat_eq
    rw [last, toNat_size, size]
    rfl
  refine ⟨l, ?_, all⟩
  rw [graphDecode, if_neg long, le32_le (by decide) first, ok_bind, if_neg (by decide), le32_le (by omega) second, ok_bind, whole,
    if_neg (not_not.mpr rfl), le32_le (by omega) third, ok_bind, number, if_neg four, ← known, run, ok_bind]
  exact if_pos ends

theorem le_word32 (a b c d : BitVec 8) : [a, b, c, d] = le 4 (word32 a b c d).toNat := eq_le_of_fromLe rfl toNat_word32.symm

/-- What is decoded is the answer of a method, and nothing else than refused. -/
theorem graphDecode_sound (data : Buffer) (count : BitVec 32) :
    graphDecode data count = .error .invalid ∨
      ∃ values, Evaluation values data.bytes ∧ values.length = count.toNat ∧ values.length ≤ 4 := by
  have fits := data.fits
  by_cases short : data.size < 12
  · exact .inl (if_pos short)
  have long : 12 ≤ data.bytes.length := by
    rw [BitVec.not_lt, BitVec.le_def, toNat_size] at short
    exact short
  obtain ⟨a0, a1, a2, a3, l, first⟩ := exists_front (l := data.bytes) (by omega)
  have length : data.bytes.length = l.length + 4 := by rw [first]; rfl
  obtain ⟨b0, b1, b2, b3, l', rfl⟩ := exists_front (l := l) (by omega)
  have length' : data.bytes.length = l'.length + 4 + 4 := length
  obtain ⟨c0, c1, c2, c3, body, rfl⟩ := exists_front (l := l') (by omega)
  have length'' : data.bytes.length = body.length + 4 + 4 + 4 := length
  have fourth : data.bytes.drop (12 : BitVec 32).toNat = body := by
    rw [first]
    rfl
  rw [graphDecode, if_neg short, le32_drop (i := 0) first, ok_bind]
  by_cases signature : word32 a0 a1 a2 a3 ≠ 0x426f6541
  · exact .inl (if_pos signature)
  rw [if_neg signature, le32_drop (i := 4) (by rw [first]; rfl), ok_bind]
  by_cases size : word32 b0 b1 b2 b3 ≠ data.size
  · exact .inl (if_pos size)
  rw [if_neg size, le32_drop (i := 8) (by rw [first]; rfl), ok_bind]
  by_cases number : word32 c0 c1 c2 c3 ≠ count ∨ 4 < count
  · exact .inl (if_pos number)
  rw [if_neg number]
  rw [not_or, not_not, BitVec.not_lt, BitVec.le_def] at number
  rcases decodeArguments_sound count.toNat (i := 12) (by change 12 ≤ _; omega) with no |
    ⟨values, args, rest, l, j, ⟨encodes, known, parts⟩, run, last⟩
  · rw [no]
    exact .inl rfl
  · rw [run, ok_bind]
    by_cases ends : j = data.size
    · refine .inr ⟨values, ⟨args, encodes, ?_⟩, known, known ▸ number.2⟩
      rw [ends, toNat_size] at last
      have last : data.bytes.length = 12 + args.length := last
      rw [fourth] at parts
      obtain rfl : rest = [] := by
        have := congrArg List.length parts
        rw [List.length_append] at this
        exact List.eq_nil_of_length_eq_zero (by omega)
      rw [List.append_nil] at parts
      have h0 : [a0, a1, a2, a3] = le 4 0x426f6541 := by rw [le_word32, not_not.mp signature]; rfl
      have h4 : [b0, b1, b2, b3] = le 4 (12 + args.length) := by rw [le_word32, not_not.mp size, toNat_size, last]
      have h8 : [c0, c1, c2, c3] = le 4 values.length := by rw [le_word32, number.1, known]
      rw [first, ← h0, ← h4, ← h8, parts]
      rfl
    · exact .inl (if_neg ends)

/-- Every buffer is read inside of it only. It is accepted exactly where it is the answer of a method with as many values as
are wanted and no more than four, and then they are decoded. -/
theorem graphDecode_exact (data : Buffer) (count : BitVec 32) :
    (∀ i, graphDecode data count ≠ .error (.outside i)) ∧
      ((∃ l, graphDecode data count = .ok l) ↔
        ∃ values, Evaluation values data.bytes ∧ values.length = count.toNat ∧ values.length ≤ 4) ∧
      ∀ values, Evaluation values data.bytes → values.length = count.toNat → values.length ≤ 4 →
        ∃ l, graphDecode data count = .ok l ∧ List.Forall₂ (Argument.Is data) l values := by
  refine ⟨fun i no => ?_, ⟨?_, ?_⟩, fun values evaluation known few => graphDecode_complete evaluation known few⟩
  · rcases graphDecode_sound data count with refused | ⟨values, evaluation, known, few⟩
    · rw [refused] at no
      exact nomatch no
    · obtain ⟨l, run, -⟩ := graphDecode_complete evaluation known few
      rw [run] at no
      exact nomatch no
  · rintro ⟨l, run⟩
    rcases graphDecode_sound data count with refused | accepted
    · rw [refused] at run
      exact nomatch run
    · exact accepted
  · rintro ⟨values, evaluation, known, few⟩
    obtain ⟨l, run, -⟩ := graphDecode_complete evaluation known few
    exact ⟨l, run⟩

/-- A string of one letter, which is filled up. -/
def oneString : Buffer where
  bytes := le 4 0x426f6541 ++ le 4 (12 + 8) ++ le 4 1 ++ (argument (.string [97] (by decide)) [1, 2] ++ [])
  fits := by decide

theorem oneString_evaluation : Evaluation [.string [97] (by decide)] oneString.bytes := by
  refine ⟨argument (.string [97] (by decide)) [1, 2] ++ [], .cons ⟨by decide, rfl⟩ .nil, ?_⟩
  have size : (argument (.string [97] (by decide)) [1, 2] ++ []).length = 8 := by decide
  rw [size]
  rfl

theorem oneString_decoded :
    ∃ l, graphDecode oneString 1 = .ok l ∧ List.Forall₂ (Argument.Is oneString) l [.string [97] (by decide)] :=
  (graphDecode_exact oneString 1).2.2 [.string [97] (by decide)] oneString_evaluation (by decide) (by decide)

/-- Five numbers. -/
def fiveNumbers : List (BitVec 8) :=
  le 4 0x426f6541 ++ le 4 (12 + 40) ++ le 4 5 ++ (List.replicate 5 (argument (.integer 7) [])).flatten

/-- More than four arguments are refused. -/
theorem fiveNumbers_refused :
    Evaluation (List.replicate 5 (.integer 7)) fiveNumbers ∧ graphDecode ⟨fiveNumbers, by decide⟩ 5 = .error .invalid := by
  refine ⟨⟨(List.replicate 5 (argument (.integer 7) [])).flatten, ?_, rfl⟩, by decide +kernel⟩
  have one : Fills (.integer 7) [] := ⟨by decide, rfl⟩
  exact .cons one <| .cons one <| .cons one <| .cons one <| .cons one .nil

end Buffers

end Pi5Drivers.Graph
