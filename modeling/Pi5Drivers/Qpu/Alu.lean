import Pi5Drivers.Qpu.Word

/-! Packing of two operations into one instruction word (`native/qpu-alu.h`).
`decode` recognizes flag-free arithmetic, bounded small immediates and
register-file uniform loads, and says which registers such a word reads and
writes; `merge` joins two of them into one word. The register sets are bit masks
as in the source, with one extra bit that keeps uniform loads in order. -/

namespace Pi5Drivers.Qpu

structure Alu where
  word : Word
  reads : BitVec 64
  writes : BitVec 64
  add : ℕ
  mul : ℕ
  signal : ℕ
  valid : Bool
  deriving DecidableEq, Repr

/-- The extra dependency preserves FIFO order between uniform loads. -/
def uniformFifo : BitVec 64 := 1#64 <<< 32

/-- The destination of a uniform load, and no condition otherwise. -/
def decodeSignal (v : Alu) : Except Alu Alu :=
  if v.signal = 12 then
    let dst := bits v.word 46 7
    if dst ≥ 32 then .error v
    else .ok { v with writes := 1#64 <<< dst ||| uniformFifo, reads := v.reads ||| uniformFifo }
  else if v.word &&& flagsMask ≠ 0#64 then .error v
  else .ok v

def decodeAdd (v : Alu) : Except Alu Alu :=
  if v.word &&& addMask ≠ nop &&& addMask then
    let op := bits v.word 24 8
    let dst := bits v.word 32 6
    let a := bits v.word 6 6
    let b := bits v.word 0 6
    let mov := op == 249 && b == 3 && v.signal == 14
    let ia := v.signal == 14
    let ib := v.signal == 15
    if v.word &&& (1#64 <<< 44) ≠ 0#64 ∨ dst ≥ 32 ∨ (!binary op && !mov) = true ∨
        a ≥ (if ia then 48 else 32) ∨ (!mov && decide (b ≥ (if ib then 48 else 32))) = true then .error v
    else if v.writes &&& (1#64 <<< dst) ≠ 0#64 then .error v
    else .ok { v with
      add := 1
      writes := v.writes ||| 1#64 <<< dst
      reads := (v.reads ||| (if ia then 0#64 else 1#64 <<< a)) |||
        (if ib || mov then 0#64 else 1#64 <<< b) }
  else if v.signal = 14 ∨ v.signal = 15 then .error v
  else .ok v

def decodeMul (v : Alu) : Except Alu Alu :=
  if v.word &&& mulMask ≠ nop &&& mulMask then
    let op := bits v.word 58 6
    let dst := bits v.word 38 6
    let a := bits v.word 18 6
    let b := bits v.word 12 6
    let ia := v.signal == 30
    let ib := v.signal == 31
    if op ≠ 21 ∨ v.word &&& (1#64 <<< 45) ≠ 0#64 ∨ dst ≥ 32 ∨ a ≥ (if ia then 48 else 32) ∨
        b ≥ (if ib then 48 else 32) ∨ v.writes &&& (1#64 <<< dst) ≠ 0#64 then .error v
    else .ok { v with
      mul := 1
      writes := v.writes ||| 1#64 <<< dst
      reads := (v.reads ||| (if ia then 0#64 else 1#64 <<< a)) |||
        (if ib then 0#64 else 1#64 <<< b) }
  else if v.signal = 30 ∨ v.signal = 31 then .error v
  else .ok v

def decodeParts (v : Alu) : Except Alu Alu := do
  let v ← decodeSignal v
  let v ← decodeAdd v
  decodeMul v

/-- Branches, peripheral writes, thread switches and latency-sensitive
operations are outside this form and remain explicit scheduling barriers. -/
def decode (word : Word) : Alu :=
  let v : Alu := ⟨word, 0#64, 0#64, 0, 0, bits word 53 5, false⟩
  if v.signal ≠ 0 ∧ v.signal ≠ 12 ∧ v.signal ≠ 14 ∧ v.signal ≠ 15 ∧ v.signal ≠ 30 ∧ v.signal ≠ 31 then v
  else match decodeParts v with
    | .error v => v
    | .ok v => { v with valid := v.add ≠ 0 ∨ v.mul ≠ 0 ∨ v.signal = 12 }

/-- Join `second` into `first`, unless they conflict. -/
def merge (first second : Alu) : Option Alu :=
  if !first.valid ∨ !second.valid ∨ (first.add ≠ 0 ∧ second.add ≠ 0) ∨
      (first.mul ≠ 0 ∧ second.mul ≠ 0) ∨ (first.signal ≠ 0 ∧ second.signal ≠ 0) ∨
      first.writes &&& (second.reads ||| second.writes) ≠ 0#64 then none
  else
    let word := first.word
    let word := if second.add ≠ 0 then (word &&& ~~~addMask) ||| (second.word &&& addMask) else word
    let word := if second.mul ≠ 0 then (word &&& ~~~mulMask) ||| (second.word &&& mulMask) else word
    let word := if second.signal ≠ 0 then
      (word &&& ~~~(signalMask ||| flagsMask)) ||| (second.word &&& (signalMask ||| flagsMask)) else word
    some { first with
      word := word
      add := first.add ||| second.add
      mul := first.mul ||| second.mul
      signal := first.signal ||| second.signal
      reads := first.reads ||| second.reads
      writes := first.writes ||| second.writes }

/-! ### What a decoded word is -/

namespace Fields

/-- The add ALU does nothing. -/
def addIdle (f : Fields) : Prop :=
  f.magicAdd = 1 ∧ f.dstAdd = 6 ∧ f.opAdd = 187 ∧ f.a = 0 ∧ f.b = 0

/-- The multiply ALU does nothing. -/
def mulIdle (f : Fields) : Prop :=
  f.opMul = 14 ∧ f.magicMul = 1 ∧ f.dstMul = 6 ∧ f.c = 0 ∧ f.d = 63

instance (f : Fields) : Decidable f.addIdle := inferInstanceAs (Decidable (_ ∧ _))
instance (f : Fields) : Decidable f.mulIdle := inferInstanceAs (Decidable (_ ∧ _))

/-- A move of a small immediate. -/
def mov (f : Fields) : Prop := f.opAdd = 249 ∧ f.b = 3 ∧ f.signal = 14

instance (f : Fields) : Decidable f.mov := inferInstanceAs (Decidable (_ ∧ _))

/-- Registers the add ALU reads. -/
def addSources (f : Fields) : List ℕ :=
  if f.addIdle then []
  else (if f.signal = 14 then [] else [f.a]) ++ (if f.signal = 15 ∨ f.mov then [] else [f.b])

/-- Registers the multiply ALU reads. -/
def mulSources (f : Fields) : List ℕ :=
  if f.mulIdle then []
  else (if f.signal = 30 then [] else [f.c]) ++ (if f.signal = 31 then [] else [f.d])

/-- The register the add ALU writes. -/
def addTargets (f : Fields) : List ℕ := if f.addIdle then [] else [f.dstAdd]

/-- The register the multiply ALU writes. -/
def mulTargets (f : Fields) : List ℕ := if f.mulIdle then [] else [f.dstMul]

/-- The register a uniform load writes. -/
def loadTargets (f : Fields) : List ℕ := if f.signal = 12 then [f.flags] else []

def sources (f : Fields) : List ℕ := f.addSources ++ f.mulSources

def targets (f : Fields) : List ℕ := f.loadTargets ++ f.addTargets ++ f.mulTargets

/-- What the signal of a packable word must satisfy. -/
def SignalOk (f : Fields) : Prop :=
  (f.signal ≠ 12 → f.flags = 0) ∧ ∀ r ∈ f.loadTargets, r < 32

/-- What the add half of a packable word must satisfy. -/
def AddOk (f : Fields) : Prop :=
  (f.addIdle → f.signal ≠ 14 ∧ f.signal ≠ 15) ∧
    (¬f.addIdle → f.magicAdd = 0 ∧ f.dstAdd < 32 ∧ (binary f.opAdd = true ∨ f.mov) ∧
      f.a < (if f.signal = 14 then 48 else 32) ∧
      (f.mov ∨ f.b < (if f.signal = 15 then 48 else 32)) ∧ f.dstAdd ∉ f.loadTargets)

/-- What the multiply half of a packable word must satisfy. -/
def MulOk (f : Fields) : Prop :=
  (f.mulIdle → f.signal ≠ 30 ∧ f.signal ≠ 31) ∧
    (¬f.mulIdle → f.opMul = 21 ∧ f.magicMul = 0 ∧ f.dstMul < 32 ∧
      f.c < (if f.signal = 30 then 48 else 32) ∧ f.d < (if f.signal = 31 then 48 else 32) ∧
      f.dstMul ∉ f.loadTargets ++ f.addTargets)

instance (f : Fields) : Decidable f.SignalOk := inferInstanceAs (Decidable (_ ∧ _))
instance (f : Fields) : Decidable f.AddOk := inferInstanceAs (Decidable (_ ∧ _))
instance (f : Fields) : Decidable f.MulOk := inferInstanceAs (Decidable (_ ∧ _))

/-- The form `decode` accepts. -/
structure AluForm (f : Fields) : Prop where
  kind : f.signal ∈ [0, 12, 14, 15, 30, 31]
  signal : f.SignalOk
  add : f.AddOk
  mul : f.MulOk
  works : ¬f.addIdle ∨ ¬f.mulIdle ∨ f.signal = 12

instance (f : Fields) : Decidable f.AluForm :=
  decidable_of_iff (f.signal ∈ [0, 12, 14, 15, 30, 31] ∧ f.SignalOk ∧ f.AddOk ∧ f.MulOk ∧
      (¬f.addIdle ∨ ¬f.mulIdle ∨ f.signal = 12))
    ⟨fun ⟨h1, h2, h3, h4, h5⟩ => ⟨h1, h2, h3, h4, h5⟩, fun ⟨h1, h2, h3, h4, h5⟩ => ⟨h1, h2, h3, h4, h5⟩⟩

theorem addTargets_lt {f : Fields} (h : f.AddOk) : ∀ r ∈ f.addTargets, r < 32 := by
  intro r hr
  unfold addTargets at hr
  split at hr
  · simp at hr
  · rw [List.mem_singleton] at hr
    exact hr ▸ (h.2 ‹_›).2.1

theorem mulTargets_lt {f : Fields} (h : f.MulOk) : ∀ r ∈ f.mulTargets, r < 32 := by
  intro r hr
  unfold mulTargets at hr
  split at hr
  · simp at hr
  · rw [List.mem_singleton] at hr
    exact hr ▸ (h.2 ‹_›).2.2.1

theorem addSources_lt {f : Fields} (h : f.AddOk) : ∀ r ∈ f.addSources, r < 32 := by
  intro r hr
  unfold addSources at hr
  split at hr
  · simp at hr
  · obtain ⟨-, -, -, ha, hb, -⟩ := h.2 ‹_›
    grind

theorem mulSources_lt {f : Fields} (h : f.MulOk) : ∀ r ∈ f.mulSources, r < 32 := by
  intro r hr
  unfold mulSources at hr
  split at hr
  · simp at hr
  · obtain ⟨-, -, -, hc, hd, -⟩ := h.2 ‹_›
    grind

theorem AluForm.sources_lt {f : Fields} (h : f.AluForm) : ∀ r ∈ f.sources, r < 32 := by
  simp only [sources, List.mem_append]
  exact fun r hr => hr.elim (addSources_lt h.add r) (mulSources_lt h.mul r)

theorem AluForm.targets_lt {f : Fields} (h : f.AluForm) : ∀ r ∈ f.targets, r < 32 := by
  simp only [targets, List.mem_append]
  rintro r ((hr | hr) | hr)
  · exact h.signal.2 r hr
  · exact addTargets_lt h.add r hr
  · exact mulTargets_lt h.mul r hr

end Fields

/-- The mask of a list of registers. -/
def regMask : List ℕ → BitVec 64
  | [] => 0#64
  | r :: rs => 1#64 <<< r ||| regMask rs

theorem getLsbD_regMask (rs : List ℕ) (hr : ∀ r ∈ rs, r < 32) (i : ℕ) :
    (regMask rs).getLsbD i = decide (i ∈ rs) := by
  induction rs with
  | nil => simp [regMask]
  | cons r rs ih =>
    have hlt : r < 32 := hr r (by simp)
    rw [regMask, BitVec.getLsbD_or, ih (fun x hx => hr x (by simp [hx]))]
    have hone : (1#64 <<< r).getLsbD i = decide (i = r) := by
      rw [BitVec.getLsbD_shiftLeft]
      by_cases h : i = r
      · subst h; simp; omega
      · simp [h]; omega
    rw [hone]
    simp [List.mem_cons]

theorem regMask_append (rs ss : List ℕ) : regMask (rs ++ ss) = regMask rs ||| regMask ss := by
  induction rs with
  | nil => simp [regMask]
  | cons r rs ih => simp [regMask, ih, BitVec.or_assoc]

/-- A register bit is set in a mask. -/
theorem and_shift_eq_zero (m : BitVec 64) {r : ℕ} (hr : r < 64) :
    m &&& 1#64 <<< r = 0#64 ↔ m.getLsbD r = false := by
  constructor
  · intro h
    have := congrArg (fun x => x.getLsbD r) h
    simpa [hr] using this
  · intro h
    apply BitVec.eq_of_getLsbD_eq
    intro i hi
    by_cases hir : i = r
    · subst hir; simp [h]
    · have : (1#64 <<< r).getLsbD i = false := by
        rw [BitVec.getLsbD_shiftLeft]; simp; omega
      simp [this]

theorem and_magicAdd_eq_zero (w : Word) : w &&& 1#64 <<< 44 = 0#64 ↔ (fields w).magicAdd = 0 := by
  have hm : fields (1#64 <<< 44) = ⟨0, 0, 0, 0, 1, 0, 0, 0, 0, 0, 0, 0⟩ := by decide
  have h0 : fields 0#64 = ⟨0, 0, 0, 0, 0, 0, 0, 0, 0, 0, 0, 0⟩ := by decide
  have hb := fields_bounded w
  rw [← fields_inj, fields_and, hm, h0]
  simp only [Fields.map₂, and_1 hb.2.2.2.2.1, Nat.and_zero, Fields.mk.injEq, true_and, and_true]

theorem and_magicMul_eq_zero (w : Word) : w &&& 1#64 <<< 45 = 0#64 ↔ (fields w).magicMul = 0 := by
  have hm : fields (1#64 <<< 45) = ⟨0, 0, 0, 1, 0, 0, 0, 0, 0, 0, 0, 0⟩ := by decide
  have h0 : fields 0#64 = ⟨0, 0, 0, 0, 0, 0, 0, 0, 0, 0, 0, 0⟩ := by decide
  have hb := fields_bounded w
  rw [← fields_inj, fields_and, hm, h0]
  simp only [Fields.map₂, and_1 hb.2.2.2.1, Nat.and_zero, Fields.mk.injEq, true_and, and_true]

/-- The FIFO bit of a word that loads a uniform. -/
def loadFifo (f : Fields) : BitVec 64 := if f.signal = 12 then uniformFifo else 0#64

theorem beq_mov (f : Fields) :
    (f.opAdd == 249 && f.b == 3 && f.signal == 14) = decide f.mov := by
  rw [Bool.eq_iff_iff, decide_eq_true_iff]
  simp [Fields.mov, and_assoc]

theorem getLsbD_reads {f : Fields} {rs : List ℕ} (hrs : ∀ r ∈ rs, r < 32) {r : ℕ} (hr : r < 32) :
    (loadFifo f ||| regMask rs).getLsbD r = decide (r ∈ rs) := by
  have hfifo : (loadFifo f).getLsbD r = false := by
    unfold loadFifo uniformFifo
    split
    · rw [BitVec.getLsbD_shiftLeft]; simp; omega
    · simp
  rw [BitVec.getLsbD_or, hfifo, Bool.false_or, getLsbD_regMask rs hrs]

/-- A register not yet written by this word. -/
theorem writes_free {v : Alu} {f : Fields} {rs : List ℕ} (hl : ∀ r ∈ rs, r < 32)
    (hw : v.writes = loadFifo f ||| regMask rs) {r : ℕ} (hr : r < 32) :
    v.writes &&& 1#64 <<< r = 0#64 ↔ r ∉ rs := by
  rw [and_shift_eq_zero _ (by omega), hw, getLsbD_reads hl hr]
  simp

section Halves

variable {v : Alu} {f : Fields} (hf : fields v.word = f) (hs : v.signal = f.signal)
include hf hs

theorem decodeSignal_eq (hw : v.writes = 0#64) :
    decodeSignal v =
      if f.SignalOk then
        .ok { v with
          writes := loadFifo f ||| regMask f.loadTargets
          reads := v.reads ||| loadFifo f }
      else .error v := by
  have hflags : bits v.word 46 7 = f.flags := by rw [← hf]; rfl
  have hnone : v.word &&& flagsMask ≠ 0#64 ↔ ¬f.flags = 0 := by
    rw [ne_eq, and_flagsMask_eq_zero, hf]
  unfold decodeSignal
  rw [hflags, hs]
  by_cases h : f.signal = 12
  · have hok : f.SignalOk ↔ ¬f.flags ≥ 32 := by simp [Fields.SignalOk, Fields.loadTargets, h]
    simp only [h, hok, loadFifo, Fields.loadTargets, regMask, ↓reduceIte, ite_not, BitVec.or_zero]
    simp [BitVec.or_comm]
  · have hok : f.SignalOk ↔ ¬¬f.flags = 0 := by simp [Fields.SignalOk, Fields.loadTargets, h]
    simp only [h, hok, hnone, loadFifo, Fields.loadTargets, regMask, ↓reduceIte, ite_not,
      BitVec.or_zero]
    rw [← hw, ← hs]

theorem decodeAdd_eq (hl : ∀ r ∈ f.loadTargets, r < 32)
    (hw : v.writes = loadFifo f ||| regMask f.loadTargets) :
    decodeAdd v =
      if f.AddOk then
        .ok { v with
          add := if f.addIdle then v.add else 1
          writes := v.writes ||| regMask f.addTargets
          reads := v.reads ||| regMask f.addSources }
      else .error v := by
  have hidle : (v.word &&& addMask ≠ nop &&& addMask) ↔ ¬f.addIdle := by
    rw [ne_eq, and_addMask_eq_nop, hf]; rfl
  have hmagic : (v.word &&& 1#64 <<< 44 ≠ 0#64) ↔ ¬f.magicAdd = 0 := by
    rw [ne_eq, and_magicAdd_eq_zero, hf]
  have hop : bits v.word 24 8 = f.opAdd := by rw [← hf]; rfl
  have hdst : bits v.word 32 6 = f.dstAdd := by rw [← hf]; rfl
  have ha : bits v.word 6 6 = f.a := by rw [← hf]; rfl
  have hb : bits v.word 0 6 = f.b := by rw [← hf]; rfl
  unfold decodeAdd
  simp only [hidle, hmagic, hop, hdst, ha, hb, hs, beq_mov]
  by_cases hi : f.addIdle
  · have hok : f.AddOk ↔ ¬(f.signal = 14 ∨ f.signal = 15) := by simp [Fields.AddOk, hi]
    simp only [hi, not_true_eq_false, ↓reduceIte, hok, Fields.addTargets, Fields.addSources, regMask,
      BitVec.or_zero, ite_not]
    rw [← hs]
  · have hreads : (v.reads ||| (if (f.signal == 14) = true then 0#64 else 1#64 <<< f.a)) |||
        (if (f.signal == 15 || decide f.mov) = true then 0#64 else 1#64 <<< f.b) =
        v.reads ||| regMask f.addSources := by
      simp only [Fields.addSources, hi, ↓reduceIte, regMask_append, Bool.or_eq_true, beq_iff_eq,
        decide_eq_true_eq, BitVec.or_assoc]
      split <;> split <;> simp [regMask]
    have hguard : (¬f.magicAdd = 0 ∨ f.dstAdd ≥ 32 ∨ (!binary f.opAdd && !decide f.mov) = true ∨
        f.a ≥ (if (f.signal == 14) = true then 48 else 32) ∨
        (!decide f.mov && decide (f.b ≥ (if (f.signal == 15) = true then 48 else 32))) = true) ∨
        v.writes &&& 1#64 <<< f.dstAdd ≠ 0#64 ↔ ¬f.AddOk := by
      by_cases hd : f.dstAdd < 32
      · have hd' : ¬32 ≤ f.dstAdd := by omega
        simp [Fields.AddOk, hi, writes_free hl hw hd, hd, hd', ← Bool.not_eq_true]
        simp only [← Nat.not_le]
        tauto
      · simp only [Fields.AddOk, hi, hd, ge_iff_le, ← not_lt]
        simp
    simp only [hi, not_false_eq_true, ↓reduceIte, hreads, Fields.addTargets, regMask, BitVec.or_zero]
    by_cases hok : f.AddOk
    · rw [if_pos hok, if_neg fun h => hguard.mp (.inl h) hok, if_neg fun h => hguard.mp (.inr h) hok]
    · rcases hguard.mpr hok with h | h
      · rw [if_pos h, if_neg hok]
      · rw [if_pos h, if_neg hok, ite_self]

theorem decodeMul_eq (hl : ∀ r ∈ f.loadTargets ++ f.addTargets, r < 32)
    (hw : v.writes = loadFifo f ||| regMask (f.loadTargets ++ f.addTargets)) :
    decodeMul v =
      if f.MulOk then
        .ok { v with
          mul := if f.mulIdle then v.mul else 1
          writes := v.writes ||| regMask f.mulTargets
          reads := v.reads ||| regMask f.mulSources }
      else .error v := by
  have hidle : (v.word &&& mulMask ≠ nop &&& mulMask) ↔ ¬f.mulIdle := by
    rw [ne_eq, and_mulMask_eq_nop, hf]; rfl
  have hmagic : (v.word &&& 1#64 <<< 45 ≠ 0#64) ↔ ¬f.magicMul = 0 := by
    rw [ne_eq, and_magicMul_eq_zero, hf]
  have hop : bits v.word 58 6 = f.opMul := by rw [← hf]; rfl
  have hdst : bits v.word 38 6 = f.dstMul := by rw [← hf]; rfl
  have hc : bits v.word 18 6 = f.c := by rw [← hf]; rfl
  have hd : bits v.word 12 6 = f.d := by rw [← hf]; rfl
  unfold decodeMul
  simp only [hidle, hmagic, hop, hdst, hc, hd, hs]
  by_cases hi : f.mulIdle
  · have hok : f.MulOk ↔ ¬(f.signal = 30 ∨ f.signal = 31) := by simp [Fields.MulOk, hi]
    simp only [hi, not_true_eq_false, ↓reduceIte, hok, Fields.mulTargets, Fields.mulSources, regMask,
      BitVec.or_zero, ite_not]
    rw [← hs]
  · have hreads : (v.reads ||| (if (f.signal == 30) = true then 0#64 else 1#64 <<< f.c)) |||
        (if (f.signal == 31) = true then 0#64 else 1#64 <<< f.d) =
        v.reads ||| regMask f.mulSources := by
      simp only [Fields.mulSources, hi, ↓reduceIte, regMask_append, beq_iff_eq, BitVec.or_assoc]
      split <;> split <;> simp [regMask]
    have hguard : (f.opMul ≠ 21 ∨ ¬f.magicMul = 0 ∨ f.dstMul ≥ 32 ∨
        f.c ≥ (if (f.signal == 30) = true then 48 else 32) ∨
        f.d ≥ (if (f.signal == 31) = true then 48 else 32) ∨
        v.writes &&& 1#64 <<< f.dstMul ≠ 0#64) ↔ ¬f.MulOk := by
      by_cases hd : f.dstMul < 32
      · have hd' : ¬32 ≤ f.dstMul := by omega
        simp only [Fields.MulOk, hi, ne_eq, writes_free hl hw hd, hd, hd']
        simp
        simp only [← Nat.not_le]
        tauto
      · simp only [Fields.MulOk, hi, hd, ge_iff_le, ← not_lt]
        simp
    simp only [hi, not_false_eq_true, ↓reduceIte, hreads, Fields.mulTargets, regMask, BitVec.or_zero]
    by_cases hok : f.MulOk
    · rw [if_pos hok, if_neg fun h => hguard.mp h hok]
    · rw [if_neg hok, if_pos (hguard.mpr hok)]

end Halves

/-- What decoding a packable word gives. -/
def Fields.decoded (f : Fields) (word : Word) : Alu where
  word := word
  reads := loadFifo f ||| regMask f.sources
  writes := loadFifo f ||| regMask f.targets
  add := if f.addIdle then 0 else 1
  mul := if f.mulIdle then 0 else 1
  signal := f.signal
  valid := true

section Decode

variable {w : Word} {f : Fields} (hf : fields w = f)
include hf

theorem decodeParts_ok (hs : f.SignalOk) (ha : f.AddOk) (hm : f.MulOk) :
    decodeParts ⟨w, 0#64, 0#64, 0, 0, f.signal, false⟩ = .ok { f.decoded w with valid := false } := by
  have hadd := Fields.addTargets_lt ha
  unfold decodeParts
  rw [decodeSignal_eq hf rfl rfl, if_pos hs]
  dsimp only [bind, Except.bind]
  rw [decodeAdd_eq hf rfl hs.2 rfl, if_pos ha]
  dsimp only [Except.bind]
  rw [decodeMul_eq hf rfl _ _, if_pos hm]
  · simp [Fields.decoded, Fields.sources, Fields.targets, regMask_append, BitVec.or_assoc]
  · simpa [or_imp, forall_and] using ⟨hs.2, hadd⟩
  · simp [regMask_append, BitVec.or_assoc]

theorem decodeParts_error (h : ¬(f.SignalOk ∧ f.AddOk ∧ f.MulOk)) :
    ∃ v, decodeParts ⟨w, 0#64, 0#64, 0, 0, f.signal, false⟩ = .error v ∧ v.valid = false := by
  unfold decodeParts
  rw [decodeSignal_eq hf rfl rfl]
  by_cases hs : f.SignalOk
  swap
  · exact ⟨_, by rw [if_neg hs]; rfl, rfl⟩
  rw [if_pos hs]
  dsimp only [bind, Except.bind]
  rw [decodeAdd_eq hf rfl hs.2 rfl]
  by_cases ha : f.AddOk
  swap
  · exact ⟨_, by rw [if_neg ha], rfl⟩
  rw [if_pos ha]
  dsimp only [Except.bind]
  rw [decodeMul_eq hf rfl _ _, if_neg fun hm => h ⟨hs, ha, hm⟩]
  · exact ⟨_, rfl, rfl⟩
  · simpa [or_imp, forall_and] using ⟨hs.2, Fields.addTargets_lt ha⟩
  · simp [regMask_append, BitVec.or_assoc]

/-- Decoding recognizes every packable word. -/
theorem decode_of_form (h : f.AluForm) : decode w = f.decoded w := by
  have hsignal : bits w 53 5 = f.signal := by rw [← hf]; rfl
  have hk := h.kind
  unfold decode
  simp only [hsignal, decodeParts_ok hf h.signal h.add h.mul]
  rw [if_neg (by simp at hk; omega)]
  have hw := h.works
  simp only [Fields.decoded, Alu.mk.injEq, true_and]
  by_cases ha : f.addIdle <;> by_cases hm : f.mulIdle <;> simp [ha, hm] at hw ⊢
  exact hw

/-- Decoding recognizes nothing else. -/
theorem valid_decode : (decode w).valid = true ↔ f.AluForm := by
  refine ⟨fun hv => ?_, fun h => by rw [decode_of_form hf h]; rfl⟩
  have hsignal : bits w 53 5 = f.signal := by rw [← hf]; rfl
  unfold decode at hv
  simp only [hsignal] at hv
  split at hv
  · simp at hv
  · by_cases h : f.SignalOk ∧ f.AddOk ∧ f.MulOk
    · rw [decodeParts_ok hf h.1 h.2.1 h.2.2] at hv
      refine ⟨by simp; omega, h.1, h.2.1, h.2.2, ?_⟩
      by_contra hw
      simp only [not_or, not_not] at hw
      simp [Fields.decoded, hw] at hv
    · obtain ⟨v, hv', hval⟩ := decodeParts_error hf h
      rw [hv'] at hv
      simp [hval] at hv

end Decode

/-! ### Joining two words -/

namespace Fields

/-- Both halves and the signal, each taken from the word that uses it. -/
def join (f g : Fields) : Fields where
  opMul := if g.mulIdle then f.opMul else g.opMul
  signal := if g.signal = 0 then f.signal else g.signal
  flags := if g.signal = 0 then f.flags else g.flags
  magicMul := if g.mulIdle then f.magicMul else g.magicMul
  magicAdd := if g.addIdle then f.magicAdd else g.magicAdd
  dstMul := if g.mulIdle then f.dstMul else g.dstMul
  dstAdd := if g.addIdle then f.dstAdd else g.dstAdd
  opAdd := if g.addIdle then f.opAdd else g.opAdd
  c := if g.mulIdle then f.c else g.c
  d := if g.mulIdle then f.d else g.d
  a := if g.addIdle then f.a else g.a
  b := if g.addIdle then f.b else g.b

/-- The two words use the add ALU alike. -/
structure SameAdd (f g : Fields) : Prop where
  magic : f.magicAdd = g.magicAdd
  dst : f.dstAdd = g.dstAdd
  op : f.opAdd = g.opAdd
  a : f.a = g.a
  b : f.b = g.b
  signal : f.signal = 14 ∨ f.signal = 15 ∨ g.signal = 14 ∨ g.signal = 15 → f.signal = g.signal

/-- The two words use the multiply ALU alike. -/
structure SameMul (f g : Fields) : Prop where
  op : f.opMul = g.opMul
  magic : f.magicMul = g.magicMul
  dst : f.dstMul = g.dstMul
  c : f.c = g.c
  d : f.d = g.d
  signal : f.signal = 30 ∨ f.signal = 31 ∨ g.signal = 30 ∨ g.signal = 31 → f.signal = g.signal

section Same

variable {f g : Fields}

theorem SameAdd.addIdle (h : SameAdd f g) : f.addIdle ↔ g.addIdle := by
  simp only [Fields.addIdle, h.magic, h.dst, h.op, h.a, h.b]

theorem SameMul.mulIdle (h : SameMul f g) : f.mulIdle ↔ g.mulIdle := by
  simp only [Fields.mulIdle, h.magic, h.dst, h.op, h.c, h.d]

theorem SameAdd.fourteen (h : SameAdd f g) : f.signal = 14 ↔ g.signal = 14 := by
  have := h.signal; omega

theorem SameAdd.fifteen (h : SameAdd f g) : f.signal = 15 ↔ g.signal = 15 := by
  have := h.signal; omega

theorem SameAdd.mov (h : SameAdd f g) : f.mov ↔ g.mov := by
  simp only [Fields.mov, h.op, h.b, h.fourteen]

theorem SameMul.thirty (h : SameMul f g) : f.signal = 30 ↔ g.signal = 30 := by
  have := h.signal; omega

theorem SameMul.thirtyOne (h : SameMul f g) : f.signal = 31 ↔ g.signal = 31 := by
  have := h.signal; omega

theorem SameAdd.sources (h : SameAdd f g) : f.addSources = g.addSources := by
  simp only [addSources, h.addIdle, h.fourteen, h.fifteen, h.mov, h.a, h.b]

theorem SameMul.sources (h : SameMul f g) : f.mulSources = g.mulSources := by
  simp only [mulSources, h.mulIdle, h.thirty, h.thirtyOne, h.c, h.d]

theorem SameAdd.targets (h : SameAdd f g) : f.addTargets = g.addTargets := by
  simp only [addTargets, h.addIdle, h.dst]

theorem SameMul.targets (h : SameMul f g) : f.mulTargets = g.mulTargets := by
  simp only [mulTargets, h.mulIdle, h.dst]

theorem SameAdd.addOk (h : SameAdd f g) (hg : g.AddOk) (hd : ¬f.addIdle → f.dstAdd ∉ f.loadTargets) :
    f.AddOk := by
  refine ⟨fun hi => ?_, fun hi => ?_⟩
  · have := hg.1 (h.addIdle.mp hi)
    have := h.fourteen
    have := h.fifteen
    tauto
  · obtain ⟨h1, h2, h3, h4, h5, -⟩ := hg.2 (fun hi' => hi (h.addIdle.mpr hi'))
    simp only [h.magic, h.dst, h.op, h.a, h.b, h.mov, h.fourteen, h.fifteen] at *
    exact ⟨h1, h2, h3, h4, h5, hd hi⟩

theorem SameMul.mulOk (h : SameMul f g) (hg : g.MulOk)
    (hd : ¬f.mulIdle → f.dstMul ∉ f.loadTargets ++ f.addTargets) : f.MulOk := by
  refine ⟨fun hi => ?_, fun hi => ?_⟩
  · have := hg.1 (h.mulIdle.mp hi)
    have := h.thirty
    have := h.thirtyOne
    tauto
  · obtain ⟨h1, h2, h3, h4, h5, -⟩ := hg.2 (fun hi' => hi (h.mulIdle.mpr hi'))
    simp only [h.magic, h.dst, h.op, h.c, h.d, h.thirty, h.thirtyOne] at *
    exact ⟨h1, h2, h3, h4, h5, hd hi⟩

end Same

theorem dstAdd_mem (f : Fields) (hf : ¬f.addIdle) : f.dstAdd ∈ f.targets := by
  simp [targets, addTargets, hf]

theorem dstMul_mem (f : Fields) (hf : ¬f.mulIdle) : f.dstMul ∈ f.targets := by
  simp [targets, mulTargets, hf]

theorem mem_targets_of_load {f : Fields} {r : ℕ} (h : r ∈ f.loadTargets) : r ∈ f.targets := by
  simp [targets, h]

theorem mem_targets_of_add {f : Fields} {r : ℕ} (h : r ∈ f.addTargets) : r ∈ f.targets := by
  simp [targets, h]

/-- No half is used by both words, and the second touches nothing the first writes. -/
structure Joinable (f g : Fields) : Prop where
  left : f.AluForm
  right : g.AluForm
  add : f.addIdle ∨ g.addIdle
  mul : f.mulIdle ∨ g.mulIdle
  signal : f.signal = 0 ∨ g.signal = 0
  sources : ∀ r ∈ f.targets, r ∉ g.sources
  targets : ∀ r ∈ f.targets, r ∉ g.targets

theorem join_signal (f g : Fields) :
    (f.join g).signal = if g.signal = 0 then f.signal else g.signal := rfl

namespace Joinable

variable {f g : Fields} (h : Joinable f g)
include h

theorem sameAdd_left (hg : g.addIdle) : SameAdd (f.join g) f := by
  have h14 := h.right.add.1 hg
  have hs := h.signal
  refine ⟨if_pos hg, if_pos hg, if_pos hg, if_pos hg, if_pos hg, ?_⟩
  rw [join_signal]
  split <;> omega

theorem sameAdd_right (hg : ¬g.addIdle) : SameAdd (f.join g) g := by
  have h14 := h.left.add.1 (h.add.resolve_right hg)
  have hs := h.signal
  refine ⟨if_neg hg, if_neg hg, if_neg hg, if_neg hg, if_neg hg, ?_⟩
  rw [join_signal]
  split <;> omega

theorem sameMul_left (hg : g.mulIdle) : SameMul (f.join g) f := by
  have h14 := h.right.mul.1 hg
  have hs := h.signal
  refine ⟨if_pos hg, if_pos hg, if_pos hg, if_pos hg, if_pos hg, ?_⟩
  rw [join_signal]
  split <;> omega

theorem sameMul_right (hg : ¬g.mulIdle) : SameMul (f.join g) g := by
  have h14 := h.left.mul.1 (h.mul.resolve_right hg)
  have hs := h.signal
  refine ⟨if_neg hg, if_neg hg, if_neg hg, if_neg hg, if_neg hg, ?_⟩
  rw [join_signal]
  split <;> omega

theorem addSources_join : (f.join g).addSources = f.addSources ++ g.addSources := by
  by_cases hg : g.addIdle
  · rw [(h.sameAdd_left hg).sources]; simp [addSources, hg]
  · rw [(h.sameAdd_right hg).sources]; simp [addSources, h.add.resolve_right hg]

theorem mulSources_join : (f.join g).mulSources = f.mulSources ++ g.mulSources := by
  by_cases hg : g.mulIdle
  · rw [(h.sameMul_left hg).sources]; simp [mulSources, hg]
  · rw [(h.sameMul_right hg).sources]; simp [mulSources, h.mul.resolve_right hg]

theorem addTargets_join : (f.join g).addTargets = f.addTargets ++ g.addTargets := by
  by_cases hg : g.addIdle
  · rw [(h.sameAdd_left hg).targets]; simp [addTargets, hg]
  · rw [(h.sameAdd_right hg).targets]; simp [addTargets, h.add.resolve_right hg]

theorem mulTargets_join : (f.join g).mulTargets = f.mulTargets ++ g.mulTargets := by
  by_cases hg : g.mulIdle
  · rw [(h.sameMul_left hg).targets]; simp [mulTargets, hg]
  · rw [(h.sameMul_right hg).targets]; simp [mulTargets, h.mul.resolve_right hg]

theorem loadTargets_join : (f.join g).loadTargets = f.loadTargets ++ g.loadTargets := by
  have hs := h.signal
  by_cases hg : g.signal = 0
  · simp [loadTargets, join, hg]
  · have hf : f.signal = 0 := by tauto
    simp [loadTargets, join, hg, hf]

theorem dstAdd_join (hi : ¬(f.join g).addIdle) : (f.join g).dstAdd ∉ (f.join g).loadTargets := by
  rw [h.loadTargets_join, List.mem_append, not_or]
  by_cases hg : g.addIdle
  · have hs := h.sameAdd_left hg
    have hf : ¬f.addIdle := fun hf => hi (hs.addIdle.mpr hf)
    rw [hs.dst]
    exact ⟨(h.left.add.2 hf).2.2.2.2.2,
      fun hl => h.targets _ (dstAdd_mem f hf) (mem_targets_of_load hl)⟩
  · rw [(h.sameAdd_right hg).dst]
    exact ⟨fun hl => h.targets _ (mem_targets_of_load hl) (dstAdd_mem g hg),
      (h.right.add.2 hg).2.2.2.2.2⟩

theorem dstMul_join (hi : ¬(f.join g).mulIdle) :
    (f.join g).dstMul ∉ (f.join g).loadTargets ++ (f.join g).addTargets := by
  rw [h.loadTargets_join, h.addTargets_join]
  by_cases hg : g.mulIdle
  · have hs := h.sameMul_left hg
    have hf : ¬f.mulIdle := fun hf => hi (hs.mulIdle.mpr hf)
    have hown := (h.left.mul.2 hf).2.2.2.2.2
    have hother := h.targets _ (dstMul_mem f hf)
    rw [hs.dst]
    simp only [List.mem_append, not_or, Fields.targets] at *
    tauto
  · have hown := (h.right.mul.2 hg).2.2.2.2.2
    have hother : g.dstMul ∉ f.targets := fun hl => h.targets _ hl (dstMul_mem g hg)
    rw [(h.sameMul_right hg).dst]
    simp only [List.mem_append, not_or, Fields.targets] at *
    tauto

theorem addIdle_join : (f.join g).addIdle ↔ f.addIdle ∧ g.addIdle := by
  by_cases hg : g.addIdle
  · rw [(h.sameAdd_left hg).addIdle]; simp [hg]
  · rw [(h.sameAdd_right hg).addIdle]; simp [hg]

theorem mulIdle_join : (f.join g).mulIdle ↔ f.mulIdle ∧ g.mulIdle := by
  by_cases hg : g.mulIdle
  · rw [(h.sameMul_left hg).mulIdle]; simp [hg]
  · rw [(h.sameMul_right hg).mulIdle]; simp [hg]

/-- The joined word is itself packable. -/
theorem aluForm_join : (f.join g).AluForm where
  kind := by
    rw [join_signal]
    split
    · exact h.left.kind
    · exact h.right.kind
  signal := by
    refine ⟨?_, ?_⟩
    · have h1 := h.left.signal.1
      have h2 := h.right.signal.1
      simp only [join]
      split <;> assumption
    · intro r hr
      rw [h.loadTargets_join, List.mem_append] at hr
      exact hr.elim (h.left.signal.2 r) (h.right.signal.2 r)
  add := by
    by_cases hg : g.addIdle
    · exact (h.sameAdd_left hg).addOk h.left.add h.dstAdd_join
    · exact (h.sameAdd_right hg).addOk h.right.add h.dstAdd_join
  mul := by
    by_cases hg : g.mulIdle
    · exact (h.sameMul_left hg).mulOk h.left.mul h.dstMul_join
    · exact (h.sameMul_right hg).mulOk h.right.mul h.dstMul_join
  works := by
    by_cases ha : g.addIdle
    · by_cases hm : g.mulIdle
      · have hs : g.signal = 12 := by have := h.right.works; tauto
        exact .inr (.inr (by rw [join_signal, if_neg (by omega)]; exact hs))
      · exact .inr (.inl fun hi => hm ((h.sameMul_right hm).mulIdle.mp hi))
    · exact .inl fun hi => ha ((h.sameAdd_right ha).addIdle.mp hi)

end Joinable

end Fields

/-- Masks of registers that do not meet. -/
theorem disjoint_of_masks {f : Fields} (g : Fields) {rs : List ℕ} (ss : List ℕ) (hrs : ∀ r ∈ rs, r < 32)
    (hss : ∀ r ∈ ss, r < 32)
    (h : (loadFifo f ||| regMask rs) &&& (loadFifo g ||| regMask ss) = 0#64) :
    ∀ r ∈ rs, r ∉ ss := by
  intro r hr hs
  have hbit := congrArg (fun m => m.getLsbD r) h
  simp only [BitVec.getLsbD_and, getLsbD_reads hrs (hrs r hr), getLsbD_reads hss (hrs r hr)] at hbit
  simp [hr, hs] at hbit

section Replace

variable (x y : Word)

theorem fields_replace_add : fields ((x &&& ~~~addMask) ||| (y &&& addMask)) =
    { fields x with
      magicAdd := (fields y).magicAdd, dstAdd := (fields y).dstAdd, opAdd := (fields y).opAdd,
      a := (fields y).a, b := (fields y).b } := by
  rw [fields_or_words, fields_and_not_addMask, fields_and_addMask]
  simp only [Fields.map₂, Nat.or_zero, Nat.zero_or]

theorem fields_replace_mul : fields ((x &&& ~~~mulMask) ||| (y &&& mulMask)) =
    { fields x with
      opMul := (fields y).opMul, magicMul := (fields y).magicMul, dstMul := (fields y).dstMul,
      c := (fields y).c, d := (fields y).d } := by
  rw [fields_or_words, fields_and_not_mulMask, fields_and_mulMask]
  simp only [Fields.map₂, Nat.or_zero, Nat.zero_or]

theorem fields_replace_signal :
    fields ((x &&& ~~~(signalMask ||| flagsMask)) ||| (y &&& (signalMask ||| flagsMask))) =
    { fields x with signal := (fields y).signal, flags := (fields y).flags } := by
  rw [fields_or_words, fields_and_not_signalFlags, fields_and_signalFlags]
  simp only [Fields.map₂, Nat.or_zero, Nat.zero_or]

end Replace

section Merge

variable {x y : Word} (hx : (fields x).AluForm) (hy : (fields y).AluForm)
include hx hy

/-- What the guard of `merge` says about the two words. -/
theorem joinable_of_merge {m : Alu} (h : merge (decode x) (decode y) = some m) :
    (fields x).Joinable (fields y) := by
  rw [decode_of_form rfl hx, decode_of_form rfl hy] at h
  unfold merge at h
  split at h
  · cases h
  rename_i hguard
  simp only [Fields.decoded, not_or] at hguard
  obtain ⟨-, -, ha, hm, hs, hw⟩ := hguard
  have hdisj := disjoint_of_masks (fields y) ((fields y).sources ++ (fields y).targets)
    hx.targets_lt (by
      simp only [List.mem_append]
      exact fun r hr => hr.elim (hy.sources_lt r) (hy.targets_lt r))
    (by
      rw [not_not] at hw
      rw [← hw, regMask_append]
      congr 1
      ext i; simp; grind)
  refine ⟨hx, hy, ?_, ?_, by tauto, fun r hr hr' => hdisj r hr (by simp [hr']),
    fun r hr hr' => hdisj r hr (by simp [hr'])⟩
  · by_contra hc
    rw [not_or] at hc
    simp [hc] at ha
  · by_contra hc
    rw [not_or] at hc
    simp [hc] at hm

/-- Merging joins the words field by field. -/
theorem fields_merge {m : Alu} (h : merge (decode x) (decode y) = some m) :
    fields m.word = (fields x).join (fields y) := by
  have hj := joinable_of_merge hx hy h
  rw [decode_of_form rfl hx, decode_of_form rfl hy] at h
  unfold merge at h
  split at h
  · cases h
  rw [Option.some.injEq] at h
  rw [← h]
  dsimp only [Fields.decoded]
  by_cases ha : (fields y).addIdle <;> by_cases hm : (fields y).mulIdle <;>
    by_cases hs : (fields y).signal = 0 <;>
    simp only [ha, hm, hs, Fields.join, fields_replace_add, fields_replace_mul,
      fields_replace_signal, ne_eq, not_true_eq_false, not_false_eq_true, ↓reduceIte, one_ne_zero]

/-- The merged record is the decoding of the merged word. -/
theorem merge_eq_decode {m : Alu} (h : merge (decode x) (decode y) = some m) : m = decode m.word := by
  have hj := joinable_of_merge hx hy h
  have hf := fields_merge hx hy h
  rw [decode_of_form hf hj.aluForm_join]
  rw [decode_of_form rfl hx, decode_of_form rfl hy] at h
  unfold merge at h
  split at h
  · cases h
  rw [Option.some.injEq] at h
  have hload : loadFifo ((fields x).join (fields y)) = loadFifo (fields x) ||| loadFifo (fields y) := by
    have := hj.signal
    unfold loadFifo
    rw [Fields.join_signal]
    split <;> split <;> split <;> simp_all
  have hreads : loadFifo (fields x) ||| regMask (fields x).sources |||
      (loadFifo (fields y) ||| regMask (fields y).sources) =
      loadFifo ((fields x).join (fields y)) ||| regMask ((fields x).join (fields y)).sources := by
    simp only [Fields.sources, hj.addSources_join, hj.mulSources_join, regMask_append, hload]
    ac_rfl
  have hwrites : loadFifo (fields x) ||| regMask (fields x).targets |||
      (loadFifo (fields y) ||| regMask (fields y).targets) =
      loadFifo ((fields x).join (fields y)) ||| regMask ((fields x).join (fields y)).targets := by
    simp only [Fields.targets, hj.loadTargets_join, hj.addTargets_join, hj.mulTargets_join,
      regMask_append, hload]
    ac_rfl
  have hsignal : (fields x).signal ||| (fields y).signal = ((fields x).join (fields y)).signal := by
    have := hj.signal
    rw [Fields.join_signal]
    split <;> simp_all
  rw [← h]
  simp only [Fields.decoded, Alu.mk.injEq, true_and, and_true]
  refine ⟨hreads, hwrites, ?_, ?_, hsignal⟩
  · by_cases ha : (fields x).addIdle <;> by_cases hb : (fields y).addIdle <;>
      simp [hj.addIdle_join, ha, hb]
  · by_cases ha : (fields x).mulIdle <;> by_cases hb : (fields y).mulIdle <;>
      simp [hj.mulIdle_join, ha, hb]

end Merge

end Pi5Drivers.Qpu
