import Mathlib.Data.List.DropRight
import Mathlib.Order.Bounds.Defs
import Pi5Drivers.Lib.Packing

/-! The fan follows the hottest thermal zone. The zones are asked for all at once, and their providers answer with a
chain of blocks, each with a table of where its instances are. Every byte is read through a check that it lies in the
buffer, so that a reader that leaves it stops with another refusal than that of the parser. -/

namespace Pi5Drivers.Fan

/-! ### The parser -/

/-- What an instance of the class is: the class, the bytes of an instance, and where its temperature is. -/
structure Format where
  guid : List (BitVec 8)
  size : ℕ
  temperature : ℕ
  inside : temperature + 4 ≤ size

/-- A buffer, whose size is a number of 64 bits. -/
structure Buffer where
  bytes : List (BitVec 8)
  fits : bytes.length < 2 ^ 64

inductive Refusal
  | malformed
  | outside (i : ℕ)
deriving DecidableEq, Repr

abbrev Parser := Except Refusal

/-- The lowest number of 32 bits says that the temperature is not known. -/
def unknown : ℤ := -2 ^ 31

def size64 (n : ℕ) : ℕ := n % 2 ^ 64

def read (data : Buffer) (i n : ℕ) : Parser (List (BitVec 8)) :=
  if i + n ≤ data.bytes.length then .ok ((data.bytes.drop i).take n) else .error (.outside i)

/-- A number of 32 bits in some bytes. -/
def ulong (d : List (BitVec 8)) (i : ℕ) : ℕ := fromLe ((d.drop i).take 4)

/-! The header of a block. -/

section Header

variable (d : List (BitVec 8))

def bufferSize : ℕ := ulong d 0

def linkage : ℕ := ulong d 12

def guid : List (BitVec 8) := (d.drop 24).take 16

def flags : ℕ := ulong d 44

def dataBlockOffset : ℕ := ulong d 48

def instanceCount : ℕ := ulong d 52

def fixedInstanceSize : ℕ := ulong d 60

/-- The flags: all data, instances of a fixed size, and a buffer that was too small. -/
def allData : Bool := flags d &&& 1 ≠ 0

def fixedInstances : Bool := flags d &&& 16 ≠ 0

def tooSmall : Bool := flags d &&& 32 ≠ 0

end Header

/-- A temperature, in tenths of a degree above the absolute zero, that a sensor can have measured. -/
def Valid (t : ℕ) : Prop := 2331 ≤ t ∧ t ≤ 3982

instance (t : ℕ) : Decidable (Valid t) := inferInstanceAs (Decidable (_ ∧ _))

/-- In thousandths of a degree, within the limits of the sensor. -/
def celsius (t : ℕ) : ℤ :=
  let celsius : ℤ := t * 100 - 273150
  let celsius := if celsius < -40000 then -40000 else celsius
  if 125000 < celsius then 125000 else celsius

def hotter (hottest : ℤ) (t : ℕ) : ℤ :=
  if t < 2331 ∨ 3982 < t then hottest else if hottest < celsius t then celsius t else hottest

/-- Where an instance of a block is, and how many bytes it has. The block begins at `start`. -/
def parsePlace (data : Buffer) (start : ℕ) (node : List (BitVec 8)) (stride i : ℕ) : Parser (ℕ × ℕ) := do
  if fixedInstances node then pure (size64 (dataBlockOffset node + size64 (i * stride)), fixedInstanceSize node)
  else
    let entry ← read data (start + 60 + i * 8) 8
    pure (ulong entry 0, ulong entry 4)

/-- One instance of a block. -/
def parseInstance (f : Format) (data : Buffer) (start : ℕ) (node : List (BitVec 8)) (tableEnd stride i : ℕ) (hottest : ℤ) :
    Parser ℤ := do
  let (offset, dataSize) ← parsePlace data start node stride i
  if offset < tableEnd ∨ bufferSize node < offset ∨ offset % 8 ≠ 0 ∨ dataSize < f.size ∨ bufferSize node - offset < dataSize then
    throw .malformed
  else
    let instance' ← read data (start + offset) f.size
    pure (hotter hottest (ulong instance' f.temperature))

def parseInstances (f : Format) (data : Buffer) (start : ℕ) (node : List (BitVec 8)) (tableEnd stride : ℕ) : ℕ → ℕ → ℤ → Parser ℤ
  | 0, _, hottest => pure hottest
  | n + 1, i, hottest => do
    let hottest ← parseInstance f data start node tableEnd stride i hottest
    parseInstances f data start node tableEnd stride n (i + 1) hottest

/-- A block: the hottest instance up to its end, and its header. -/
def parseBlock (f : Format) (data : Buffer) (start : ℕ) (hottest : ℤ) : Parser (ℤ × List (BitVec 8)) := do
  if data.bytes.length - start < 72 then throw .malformed
  else
    let node ← read data start 72
    let size := bufferSize node
    if size < 72 ∨ data.bytes.length - start < size ∨ allData node = false ∨ tooSmall node = true ∨ guid node ≠ f.guid then
      throw .malformed
    else if fixedInstances node then
      if instanceCount node ≠ 0 then
        if fixedInstanceSize node < f.size ∨ dataBlockOffset node < 72 ∨ size < dataBlockOffset node then throw .malformed
        else
          let stride := size64 (fixedInstanceSize node + 7) / 8 * 8
          if (size - dataBlockOffset node) / stride < instanceCount node - 1 then throw .malformed
          else
            let hottest ← parseInstances f data start node 72 stride (instanceCount node) 0 hottest
            pure (hottest, node)
      else pure (hottest, node)
    else
      if (size - 60) / 8 < instanceCount node then throw .malformed
      else
        let hottest ← parseInstances f data start node (60 + instanceCount node * 8) 0 (instanceCount node) 0 hottest
        pure (hottest, node)

/-- The chain of blocks from a place on. A block is linked to a later place. -/
def parseChain (f : Format) (data : Buffer) (start : ℕ) (hottest : ℤ) : Parser ℤ :=
  match parseBlock f data start hottest with
  | .error e => .error e
  | .ok (hottest, node) =>
    if linkage node = 0 then .ok hottest
    else if linkage node < bufferSize node ∨ data.bytes.length - start < linkage node then .error .malformed
    else parseChain f data (start + linkage node) hottest
termination_by data.bytes.length - start

structure Outcome where
  success : Bool
  temperature : ℤ
deriving DecidableEq, Repr

/-- There may be no buffer at all. -/
def fanTemperatureParse (f : Format) (data : Option Buffer) : Parser Outcome :=
  match data with
  | none => .ok ⟨false, unknown⟩
  | some data =>
    match parseChain f data 0 unknown with
    | .ok hottest => .ok ⟨hottest ≠ unknown, hottest⟩
    | .error .malformed => .ok ⟨false, unknown⟩
    | .error e => .error e

/-! ### Chains -/

section Chains

variable (f : Format) (d : List (BitVec 8))

/-- Where an instance is in its block, and how many bytes it has. Instances of a fixed size follow one another at places that
are filled up to eight bytes. -/
def place (i : ℕ) : ℕ × ℕ :=
  if fixedInstances d then (dataBlockOffset d + i * ((fixedInstanceSize d + 7) / 8 * 8), fixedInstanceSize d)
  else (ulong d (60 + i * 8), ulong d (64 + i * 8))

/-- The header, and the table of the instances where they have no fixed size. -/
def tableEnd : ℕ := if fixedInstances d then 72 else 60 + instanceCount d * 8

/-- An instance lies in its block behind the table. -/
structure Instance (i : ℕ) : Prop where
  table : tableEnd d ≤ (place d i).1
  aligned : (place d i).1 % 8 = 0
  size : f.size ≤ (place d i).2
  inside : (place d i).1 + (place d i).2 ≤ bufferSize d

/-- The bytes begin with a block. -/
structure Block : Prop where
  size : 72 ≤ bufferSize d ∧ bufferSize d ≤ d.length
  flags : allData d = true ∧ tooSmall d = false
  guid : guid d = f.guid
  table : tableEnd d ≤ bufferSize d
  instances : ∀ i < instanceCount d, Instance f d i

/-- The temperatures in a block. -/
def readings : List ℕ := (List.range (instanceCount d)).map fun i => ulong d ((place d i).1 + f.temperature)

/-- The bytes begin with a chain, which has these temperatures. -/
inductive Chain : List (BitVec 8) → List ℕ → Prop
  | last {d : List (BitVec 8)} (block : Block f d) (linked : linkage d = 0) : Chain d (readings f d)
  | next {d : List (BitVec 8)} {rest : List ℕ} (block : Block f d) (linked : bufferSize d ≤ linkage d ∧ linkage d ≤ d.length)
      (h : Chain (d.drop (linkage d)) rest) : Chain d (readings f d ++ rest)

end Chains

/-! ### Blocks -/

section Blocks

variable {f : Format} {data : Buffer} {d : List (BitVec 8)} {start i k n : ℕ} {hottest : ℤ}

theorem read_inside (h : i + n ≤ data.bytes.length) : read data i n = .ok ((data.bytes.drop i).take n) := if_pos h

theorem ulong_take (d : List (BitVec 8)) (h : i + 4 ≤ n) : ulong (d.take n) i = ulong d i := by
  rw [ulong, ulong, List.drop_take, List.take_take, Nat.min_eq_left (by omega)]

theorem ulong_drop (d : List (BitVec 8)) (k i : ℕ) : ulong (d.drop k) i = ulong d (k + i) := by rw [ulong, ulong, List.drop_drop]

theorem ulong_lt (d : List (BitVec 8)) (i : ℕ) : ulong d i < 2 ^ 32 := by
  refine Nat.lt_of_lt_of_le fromLe_lt ?_
  have short : ((d.drop i).take 4).length ≤ 4 := List.length_take_le _ _
  exact Nat.pow_le_pow_right (by decide) short

/-- The header that is read has the fields of the block. -/
structure Same (node d : List (BitVec 8)) : Prop where
  bufferSize : bufferSize node = bufferSize d
  linkage : linkage node = linkage d
  guid : guid node = guid d
  flags : flags node = flags d
  dataBlockOffset : dataBlockOffset node = dataBlockOffset d
  instanceCount : instanceCount node = instanceCount d
  fixedInstanceSize : fixedInstanceSize node = fixedInstanceSize d

theorem same_take (d : List (BitVec 8)) : Same (d.take 72) d := by
  refine ⟨ulong_take d (by decide), ulong_take d (by decide), ?_, ulong_take d (by decide), ulong_take d (by decide),
    ulong_take d (by decide), ulong_take d (by decide)⟩
  rw [guid, guid, List.drop_take, List.take_take]
  rfl

/-- Where the next instance is looked for, and what is known of the block by then. -/
structure Ready (data : Buffer) (start : ℕ) (d : List (BitVec 8)) (stride : ℕ) : Prop where
  there : data.bytes.drop start = d
  size : 72 ≤ bufferSize d ∧ bufferSize d ≤ d.length
  table : tableEnd d ≤ bufferSize d
  stride : fixedInstances d = true → stride = (fixedInstanceSize d + 7) / 8 * 8 ∧
    dataBlockOffset d + (instanceCount d - 1) * stride ≤ bufferSize d

section Instances

variable {stride : ℕ} (ready : Ready data start d stride)

include ready

theorem Ready.length : start + d.length = data.bytes.length ∧ 72 ≤ d.length := by
  have size := ready.size
  have length := congrArg List.length ready.there
  rw [List.length_drop] at length
  omega

/-- The place of an instance is computed without a wrap. -/
theorem parsePlace_eq (known : i < instanceCount d) : parsePlace data start (d.take 72) stride i = .ok (place d i) := by
  have same := same_take d
  have kind : fixedInstances (d.take 72) = fixedInstances d := by rw [fixedInstances, same.flags]; rfl
  have length := ready.length
  have size := ready.size
  have table := ready.table
  rw [parsePlace, kind, same.dataBlockOffset, same.fixedInstanceSize]
  cases fixed : fixedInstances d
  · rw [tableEnd, fixed] at table
    simp only [Bool.false_eq_true, if_false] at table ⊢
    rw [read_inside (by omega)]
    change Except.ok _ = Except.ok _
    rw [place, fixed, ulong_take _ (by decide), ulong_take _ (by decide), ulong_drop, ulong_drop, ← ready.there, ulong_drop, ulong_drop]
    simp only [Bool.false_eq_true, if_false]
    congr 2 <;> congr 1 <;> omega
  · obtain ⟨rfl, last⟩ := ready.stride fixed
    have small := ulong_lt d 0
    have before : i * ((fixedInstanceSize d + 7) / 8 * 8) ≤ (instanceCount d - 1) * ((fixedInstanceSize d + 7) / 8 * 8) :=
      Nat.mul_le_mul_right _ (by omega)
    have size : bufferSize d < 2 ^ 32 := small
    rw [if_pos rfl, size64, size64, Nat.mod_eq_of_lt (by omega : i * _ < 2 ^ 64), Nat.mod_eq_of_lt (by omega), place, fixed, if_pos rfl]
    rfl

theorem parseInstance_spec (known : i < instanceCount d) (hottest : ℤ) :
    (Instance f d i →
      parseInstance f data start (d.take 72) (tableEnd d) stride i hottest = .ok (hotter hottest (ulong d ((place d i).1 + f.temperature)))) ∧
    (¬Instance f d i → parseInstance f data start (d.take 72) (tableEnd d) stride i hottest = .error .malformed) := by
  have same := same_take d
  have length := ready.length
  have size := ready.size
  have inside := f.inside
  rw [parseInstance, parsePlace_eq ready known]
  change (Instance f d i → (if (place d i).1 < tableEnd d ∨ bufferSize (d.take 72) < (place d i).1 ∨ (place d i).1 % 8 ≠ 0 ∨
      (place d i).2 < f.size ∨ bufferSize (d.take 72) - (place d i).1 < (place d i).2 then throw Refusal.malformed
    else read data (start + (place d i).1) f.size >>= fun found => pure (hotter hottest (ulong found f.temperature)) : Parser ℤ) = _) ∧
    (¬Instance f d i → (if (place d i).1 < tableEnd d ∨ bufferSize (d.take 72) < (place d i).1 ∨ (place d i).1 % 8 ≠ 0 ∨
      (place d i).2 < f.size ∨ bufferSize (d.take 72) - (place d i).1 < (place d i).2 then throw Refusal.malformed
    else read data (start + (place d i).1) f.size >>= fun found => pure (hotter hottest (ulong found f.temperature)) : Parser ℤ) = _)
  rw [same.bufferSize]
  constructor
  · rintro ⟨table, aligned, least, fits⟩
    rw [if_neg (by omega), read_inside (by omega)]
    change Except.ok _ = Except.ok _
    rw [ulong_take _ inside, ulong_drop, ← ready.there, ulong_drop, Nat.add_assoc]
  · intro no
    refine if_pos ?_
    by_contra all
    exact no ⟨by omega, by omega, by omega, by omega⟩

/-- The instances that are left, one after the other. -/
theorem parseInstances_spec (n i : ℕ) (known : i + n ≤ instanceCount d) (hottest : ℤ) :
    ((∀ j, i ≤ j → j < i + n → Instance f d j) →
      parseInstances f data start (d.take 72) (tableEnd d) stride n i hottest =
        .ok (((List.range' i n).map fun j => ulong d ((place d j).1 + f.temperature)).foldl hotter hottest)) ∧
    ((¬∀ j, i ≤ j → j < i + n → Instance f d j) →
      parseInstances f data start (d.take 72) (tableEnd d) stride n i hottest = .error .malformed) := by
  induction n generalizing i hottest with
  | zero => exact ⟨fun _ => rfl, fun no => absurd (fun j lo hi => absurd lo (Nat.not_le.mpr hi)) no⟩
  | succ n ih =>
    obtain ⟨good, bad⟩ := parseInstance_spec (f := f) ready (i := i) (by omega) hottest
    by_cases here : Instance f d i
    · obtain ⟨all, no⟩ := ih (i + 1) (by omega) (hotter hottest (ulong d ((place d i).1 + f.temperature)))
      have same : (∀ j, i ≤ j → j < i + (n + 1) → Instance f d j) ↔ ∀ j, i + 1 ≤ j → j < i + 1 + n → Instance f d j := by
        refine ⟨fun h j lo hi => h j (by omega) (by omega), fun h j lo hi => ?_⟩
        rcases Nat.eq_or_lt_of_le lo with rfl | lo
        · exact here
        · exact h j lo (by omega)
      rw [same, parseInstances, good here]
      exact ⟨all, no⟩
    · refine ⟨fun h => absurd (h i (Nat.le_refl i) (by omega)) here, fun _ => ?_⟩
      rw [parseInstances, bad here]
      rfl

end Instances

/-- A block is parsed exactly where there is one. -/
theorem parseBlock_spec (there : data.bytes.drop start = d) (hottest : ℤ) :
    (Block f d → parseBlock f data start hottest = .ok ((readings f d).foldl hotter hottest, d.take 72)) ∧
    (¬Block f d → parseBlock f data start hottest = .error .malformed) := by
  have length := congrArg List.length there
  rw [List.length_drop] at length
  have same := same_take d
  have all : allData (d.take 72) = allData d := by rw [allData, same.flags]; rfl
  have small : tooSmall (d.take 72) = tooSmall d := by rw [tooSmall, same.flags]; rfl
  have kind : fixedInstances (d.take 72) = fixedInstances d := by rw [fixedInstances, same.flags]; rfl
  by_cases short : data.bytes.length - start < 72
  · refine ⟨fun block => ?_, fun _ => if_pos short⟩
    have := block.size
    omega
  have node : read data start 72 = .ok (d.take 72) := by rw [read_inside (by omega), there]
  have wide := ulong_lt d 60
  have noWrap : size64 (fixedInstanceSize d + 7) = fixedInstanceSize d + 7 :=
    Nat.mod_eq_of_lt (by change ulong d 60 + 7 < 2 ^ 64; omega)
  have steps : parseBlock f data start hottest =
      if bufferSize d < 72 ∨ data.bytes.length - start < bufferSize d ∨ allData d = false ∨ tooSmall d = true ∨ guid d ≠ f.guid then
        .error .malformed
      else if fixedInstances d then
        if instanceCount d ≠ 0 then
          if fixedInstanceSize d < f.size ∨ dataBlockOffset d < 72 ∨ bufferSize d < dataBlockOffset d then .error .malformed
          else if (bufferSize d - dataBlockOffset d) / ((fixedInstanceSize d + 7) / 8 * 8) < instanceCount d - 1 then .error .malformed
          else
            parseInstances f data start (d.take 72) 72 ((fixedInstanceSize d + 7) / 8 * 8) (instanceCount d) 0 hottest >>= fun hottest =>
              .ok (hottest, d.take 72)
        else .ok (hottest, d.take 72)
      else if (bufferSize d - 60) / 8 < instanceCount d then .error .malformed
      else
        parseInstances f data start (d.take 72) (60 + instanceCount d * 8) 0 (instanceCount d) 0 hottest >>= fun hottest =>
          .ok (hottest, d.take 72) := by
    rw [parseBlock, if_neg short, node, ← noWrap, ← all, ← small, ← kind, ← same.bufferSize, ← same.guid, ← same.instanceCount,
      ← same.fixedInstanceSize, ← same.dataBlockOffset]
    rfl
  rw [steps]
  by_cases header : bufferSize d < 72 ∨ data.bytes.length - start < bufferSize d ∨ allData d = false ∨ tooSmall d = true ∨ guid d ≠ f.guid
  · rw [if_pos header]
    refine ⟨fun block => ?_, fun _ => rfl⟩
    obtain ⟨⟨large, inside⟩, ⟨whole, enough⟩, class', -, -⟩ := block
    rcases header with h | h | h | h | h
    · omega
    · omega
    · exact absurd (h.symm.trans whole) (by decide)
    · exact absurd (enough.symm.trans h) (by decide)
    · exact absurd class' h
  rw [if_neg header]
  simp only [not_or, Bool.not_eq_false, Bool.not_eq_true, not_not] at header
  obtain ⟨large, inside, whole, enough, class'⟩ := header
  have block_iff : Block f d ↔ tableEnd d ≤ bufferSize d ∧ ∀ i < instanceCount d, Instance f d i :=
    ⟨fun h => ⟨h.table, h.instances⟩, fun h => ⟨⟨by omega, by omega⟩, ⟨whole, enough⟩, class', h.1, h.2⟩⟩
  have instances_iff : (∀ i < instanceCount d, Instance f d i) ↔ ∀ j, 0 ≤ j → j < 0 + instanceCount d → Instance f d j :=
    ⟨fun h j _ hi => h j (by omega), fun h j hi => h j (Nat.zero_le j) (by omega)⟩
  have same' : (List.range' 0 (instanceCount d)).map (fun j => ulong d ((place d j).1 + f.temperature)) = readings f d := by
    rw [readings, List.range_eq_range']
  rw [block_iff]
  cases fixed : fixedInstances d
  · have table : tableEnd d = 60 + instanceCount d * 8 := by rw [tableEnd, fixed]; rfl
    rw [if_neg (by decide), table]
    by_cases many : (bufferSize d - 60) / 8 < instanceCount d
    · rw [if_pos many]
      exact ⟨fun h => by omega, fun _ => rfl⟩
    rw [if_neg many]
    have ready : Ready data start d 0 :=
      ⟨there, ⟨by omega, by omega⟩, by rw [table]; omega, fun no => absurd (fixed.symm.trans no) (by decide)⟩
    obtain ⟨good, bad⟩ := parseInstances_spec (f := f) ready (instanceCount d) 0 (by omega) hottest
    rw [table, ← instances_iff] at good bad
    refine ⟨fun h => ?_, fun no => ?_⟩
    · rw [good h.2, same']
      rfl
    · rw [bad fun h => no ⟨by omega, h⟩]
      rfl
  · have table : tableEnd d = 72 := by rw [tableEnd, fixed]; rfl
    rw [if_pos rfl, table]
    by_cases empty : instanceCount d = 0
    · rw [if_neg (not_not.mpr empty), ← same', empty]
      exact ⟨fun _ => rfl, fun no => absurd ⟨by omega, fun i hi => absurd hi (Nat.not_lt_zero i)⟩ no⟩
    rw [if_pos empty]
    have places (i : ℕ) : place d i = (dataBlockOffset d + i * ((fixedInstanceSize d + 7) / 8 * 8), fixedInstanceSize d) := by
      rw [place, fixed]
      rfl
    by_cases first : fixedInstanceSize d < f.size ∨ dataBlockOffset d < 72 ∨ bufferSize d < dataBlockOffset d
    · rw [if_pos first]
      refine ⟨fun h => ?_, fun _ => rfl⟩
      obtain ⟨behind, -, least, fits⟩ := h.2 0 (by omega)
      rw [table, places] at behind
      rw [places] at least fits
      simp only at behind least fits
      omega
    rw [if_neg first]
    have inside' := f.inside
    have pos : 0 < (fixedInstanceSize d + 7) / 8 * 8 := by omega
    by_cases many : (bufferSize d - dataBlockOffset d) / ((fixedInstanceSize d + 7) / 8 * 8) < instanceCount d - 1
    · rw [if_pos many]
      refine ⟨fun h => ?_, fun _ => rfl⟩
      have fits := (h.2 (instanceCount d - 1) (by omega)).inside
      rw [places] at fits
      simp only at fits
      have := (Nat.div_lt_iff_lt_mul pos).mp many
      omega
    rw [if_neg many]
    have last := (Nat.le_div_iff_mul_le pos).mp (Nat.le_of_not_lt many)
    have ready : Ready data start d ((fixedInstanceSize d + 7) / 8 * 8) :=
      ⟨there, ⟨by omega, by omega⟩, by rw [table]; omega, fun _ => ⟨rfl, by omega⟩⟩
    obtain ⟨good, bad⟩ := parseInstances_spec (f := f) ready (instanceCount d) 0 (by omega) hottest
    rw [table, ← instances_iff] at good bad
    refine ⟨fun h => ?_, fun no => ?_⟩
    · rw [good h.2, same']
      rfl
    · rw [bad fun h => no ⟨by omega, h⟩]
      rfl

end Blocks

/-! ### Chains of blocks -/

section Chains

variable {f : Format} {data : Buffer} {d : List (BitVec 8)} {readings' l : List ℕ} {start : ℕ}

theorem parseChain_complete (data : Buffer) (start : ℕ) (hottest : ℤ) (h : Chain f d readings') (there : data.bytes.drop start = d) :
    parseChain f data start hottest = .ok (readings'.foldl hotter hottest) := by
  induction h generalizing start hottest with
  | @last d block linked =>
    have same := same_take d
    rw [parseChain, (parseBlock_spec there hottest).1 block]
    simp only
    rw [if_pos (same.linkage.trans linked)]
  | @next d rest block linked h ih =>
    have same := same_take d
    have size := block.size.1
    have length := congrArg List.length there
    rw [List.length_drop] at length
    have further := ih (start + linkage d) ((readings f d).foldl hotter hottest) (by rw [← List.drop_drop, there])
    rw [parseChain, (parseBlock_spec there hottest).1 block]
    simp only
    rw [same.linkage, same.bufferSize, if_neg (by omega), if_neg (by omega), further, List.foldl_append]

/-- What is not a chain is refused. -/
theorem parseChain_sound (f : Format) (data : Buffer) (start : ℕ) (hottest : ℤ) (there : data.bytes.drop start = d) :
    parseChain f data start hottest = .error .malformed ∨ ∃ readings', Chain f d readings' := by
  induction size : d.length using Nat.strong_induction_on generalizing start d hottest with
  | _ n ih =>
    have same := same_take d
    have length := congrArg List.length there
    rw [List.length_drop] at length
    by_cases block : Block f d
    · have run := (parseBlock_spec there hottest).1 block
      have large := block.size
      by_cases last : linkage d = 0
      · exact .inr ⟨_, .last block last⟩
      by_cases out : linkage d < bufferSize d ∨ d.length < linkage d
      · refine .inl ?_
        rw [parseChain, run]
        simp only
        rw [same.linkage, same.bufferSize, if_neg last, if_pos (by omega)]
      · have next : data.bytes.drop (start + linkage d) = d.drop (linkage d) := by rw [← List.drop_drop, there]
        have shorter : (d.drop (linkage d)).length < n := by
          rw [List.length_drop]
          omega
        rcases ih _ shorter (start + linkage d) ((readings f d).foldl hotter hottest) next rfl with no | ⟨rest, h⟩
        · refine .inl ?_
          rw [parseChain, run]
          simp only
          rw [same.linkage, same.bufferSize, if_neg last, if_neg (by omega), no]
        · exact .inr ⟨_, .next block ⟨by omega, by omega⟩ h⟩
    · refine .inl ?_
      rw [parseChain, (parseBlock_spec there hottest).2 block]

theorem celsius_range (t : ℕ) : -40000 ≤ celsius t ∧ celsius t ≤ 125000 := by
  unfold celsius
  simp only
  split <;> split <;> omega

/-- The hottest of a list, and of what was found before. -/
theorem foldl_hotter (l : List ℕ) (hottest : ℤ) :
    IsGreatest {c | c = hottest ∨ ∃ t ∈ l, Valid t ∧ c = celsius t} (l.foldl hotter hottest) := by
  induction l generalizing hottest with
  | nil =>
    refine ⟨.inl rfl, ?_⟩
    rintro c (rfl | ⟨t, no, -⟩)
    · exact Int.le_refl _
    · exact absurd no List.not_mem_nil
  | cons t l ih =>
    obtain ⟨among, above⟩ := ih (hotter hottest t)
    have step : hotter hottest t = hottest ∨ Valid t ∧ hotter hottest t = celsius t := by
      unfold hotter Valid
      split
      · exact .inl rfl
      · split
        · exact .inr ⟨by omega, rfl⟩
        · exact .inl rfl
    have least : hottest ≤ hotter hottest t ∧ (Valid t → celsius t ≤ hotter hottest t) := by
      unfold hotter Valid
      split <;> (try split) <;> constructor <;> omega
    have reached := above (.inl rfl)
    refine ⟨?_, ?_⟩
    · rcases among with same | ⟨u, mem, valid, same⟩
      · rcases step with kept | ⟨valid, new⟩
        · exact .inl (same.trans kept)
        · exact .inr ⟨t, List.mem_cons_self, valid, same.trans new⟩
      · exact .inr ⟨u, List.mem_cons_of_mem t mem, valid, same⟩
    · rintro c (rfl | ⟨u, mem, valid, rfl⟩)
      · exact Int.le_trans least.1 reached
      · rcases List.mem_cons.mp mem with rfl | mem
        · exact Int.le_trans (least.2 valid) reached
        · exact above (.inr ⟨u, mem, valid, rfl⟩)

/-- The hottest of a list is known where there is one. -/
theorem foldl_known (l : List ℕ) :
    (l.foldl hotter unknown ≠ unknown ↔ ∃ t ∈ l, Valid t) ∧
      ((∃ t ∈ l, Valid t) → IsGreatest {c | ∃ t ∈ l, Valid t ∧ c = celsius t} (l.foldl hotter unknown)) := by
  obtain ⟨among, above⟩ := foldl_hotter l unknown
  have known : (∃ t ∈ l, Valid t) → l.foldl hotter unknown ≠ unknown := by
    rintro ⟨t, mem, valid⟩ no
    have reached := above (.inr ⟨t, mem, valid, rfl⟩)
    have low := (celsius_range t).1
    have far : unknown < -40000 := by decide
    omega
  refine ⟨⟨fun found => ?_, known⟩, fun found => ⟨?_, fun c mem => above (.inr mem)⟩⟩
  · rcases among with no | ⟨t, mem, valid, -⟩
    · exact absurd no found
    · exact ⟨t, mem, valid⟩
  · rcases among with no | one
    · exact absurd no (known found)
    · exact one

/-- The parser reads inside of the buffer only and ends. It succeeds exactly where the buffer is a chain with a temperature that
can have been measured, and the hottest of these is what it returns. -/
theorem fanTemperatureParse_exact (f : Format) (data : Option Buffer) :
    ∃ r, fanTemperatureParse f data = .ok r ∧
      (r.success = true ↔ ∃ b readings', data = some b ∧ Chain f b.bytes readings' ∧ ∃ t ∈ readings', Valid t) ∧
      (r.success = false → r.temperature = unknown) ∧
      ∀ b readings', data = some b → Chain f b.bytes readings' → (∃ t ∈ readings', Valid t) →
        IsGreatest {c | ∃ t ∈ readings', Valid t ∧ c = celsius t} r.temperature := by
  rcases data with _ | b
  · refine ⟨⟨false, unknown⟩, rfl, iff_of_false (by decide) ?_, fun _ => rfl, ?_⟩
    · rintro ⟨b, readings', no, -⟩
      exact nomatch no
    · intro b readings' no
      exact nomatch no
  have complete (readings' : List ℕ) (h : Chain f b.bytes readings') :
      fanTemperatureParse f (some b) = .ok ⟨readings'.foldl hotter unknown ≠ unknown, readings'.foldl hotter unknown⟩ := by
    rw [fanTemperatureParse, parseChain_complete b 0 unknown h rfl]
  rcases parseChain_sound f b 0 unknown rfl with no | ⟨readings', h⟩
  · have none : fanTemperatureParse f (some b) = .ok ⟨false, unknown⟩ := by rw [fanTemperatureParse, no]
    have apart (readings' : List ℕ) : ¬Chain f b.bytes readings' := fun h => by
      rw [parseChain_complete b 0 unknown h rfl] at no
      exact nomatch no
    refine ⟨_, none, iff_of_false (by decide) ?_, fun _ => rfl, ?_⟩
    · rintro ⟨_, readings', ⟨⟩, h, -⟩
      exact apart readings' h
    · rintro _ readings' ⟨⟩ h
      exact absurd h (apart readings')
  · have same (l : List ℕ) (h' : Chain f b.bytes l) : l.foldl hotter unknown = readings'.foldl hotter unknown := by
      have first := parseChain_complete b 0 unknown h' rfl
      rw [parseChain_complete b 0 unknown h rfl] at first
      exact (Except.ok.inj first).symm
    refine ⟨_, complete readings' h, ?_, fun no => not_not.mp (of_decide_eq_false no), ?_⟩
    · rw [decide_eq_true_iff, (foldl_known readings').1]
      refine ⟨fun found => ⟨b, readings', rfl, h, found⟩, ?_⟩
      rintro ⟨_, l, ⟨⟩, h', found⟩
      rw [← (foldl_known readings').1, ← same l h']
      exact (foldl_known l).1.mpr found
    · rintro _ l ⟨⟩ h' found
      rw [← same l h']
      exact (foldl_known l).2 found

end Chains

end Pi5Drivers.Fan
