import Pi5Drivers.Lib.Pins

/-! Where the BCM2712 keeps the function and the pull of a pin. Each is a field of a word that several
pins share; no two pins share a bit. -/

namespace Pi5Drivers.BcmGpio

/-- `BCM_PIN_FIELDS`. There is no pull where the source has `UINT16_MAX`. -/
structure PinFields where
  muxBit : ℕ
  pullBit : Option ℕ
deriving DecidableEq

def mainD0 : List ℕ :=
  [1, 2, 3, 4, 10, 11, 12, 13, 14, 15, 18, 19, 20, 21, 22, 23, 24, 25, 26, 27, 28, 29, 30, 31, 32, 33, 34, 35]

def aonD0 : List ℕ := [0, 1, 2, 3, 4, 5, 6, 8, 9, 12, 13, 14]

/-- Functions follow each other from bit `base` on, and pulls, fifteen to a word, from word `first` on. -/
def packed (base first skip i : ℕ) : PinFields := ⟨base + i * 4, some ((first + (i + skip) / 15) * 32 + (i + skip) % 15 * 2)⟩

/-- `Revision` is one on D0. -/
def bcmPinFields (revision aon : Bool) (pin : ℕ) : Option PinFields :=
  if aon ∧ 32 ≤ pin ∧ pin ≤ 37 then
    let i := pin - 32
    some ⟨if i < 4 then i * 4 else (i - 3) * 32, none⟩
  else if revision = false then
    if (if aon then 17 else 54) ≤ pin then none
    else some (if aon then packed 96 6 10 pin else packed 0 7 7 pin)
  else if aon then (aonD0.idxOf? pin).map (packed 96 5 9)
  else (mainD0.idxOf? pin).map (packed 0 4 5)

/-- The third pin of the AON controller belongs to the voltage of the SD card. -/
def ValidPin (revision aon : Bool) (pin : ℕ) : Prop := (bcmPinFields revision aon pin).isSome ∧ ¬(aon ∧ pin = 3)

instance (revision aon : Bool) (pin : ℕ) : Decidable (ValidPin revision aon pin) :=
  inferInstanceAs (Decidable (_ ∧ _))

def bcmValidPins (revision aon : Bool) : BitVec 64 :=
  (List.range 64).foldl (fun mask pin => if ValidPin revision aon pin then mask ||| pinBit pin else mask) 0

theorem pins_valid (revision aon : Bool) : pins (bcmValidPins revision aon) = { p | p < 64 ∧ ValidPin revision aon p } := by
  have collected (l : List ℕ) (mask : BitVec 64) (small : ∀ p ∈ l, p < 64) :
      pins (l.foldl (fun mask pin => if ValidPin revision aon pin then mask ||| pinBit pin else mask) mask) =
        pins mask ∪ { p | p ∈ l ∧ ValidPin revision aon p } := by
    induction l generalizing mask with
    | nil => simp
    | cons p l ih =>
      rw [List.foldl_cons, ih _ fun q hq => small q (List.mem_cons_of_mem p hq)]
      ext q
      split
      · next valid =>
        rw [pins_or, pins_pinBit (small p List.mem_cons_self)]
        simp only [Set.mem_union, Set.mem_singleton_iff, Set.mem_ofPred_eq, List.mem_cons]
        constructor
        · rintro ((old | rfl) | ⟨mem, ok⟩)
          · exact .inl old
          · exact .inr ⟨.inl rfl, valid⟩
          · exact .inr ⟨.inr mem, ok⟩
        · rintro (old | ⟨rfl | mem, ok⟩)
          · exact .inl (.inl old)
          · exact .inl (.inr rfl)
          · exact .inr ⟨mem, ok⟩
      · next invalid =>
        simp only [Set.mem_union, Set.mem_ofPred_eq, List.mem_cons]
        constructor
        · rintro (old | ⟨mem, ok⟩)
          · exact .inl old
          · exact .inr ⟨.inr mem, ok⟩
        · rintro (old | ⟨rfl | mem, ok⟩)
          · exact .inl old
          · exact absurd ok invalid
          · exact .inr ⟨mem, ok⟩
  rw [bcmValidPins, collected _ _ fun p hp => List.mem_range.mp hp, pins_zero, Set.empty_union]
  simp only [List.mem_range]

/-- The bits of the fields of a pin. -/
def PinFields.Covers (f : PinFields) (x : ℕ) : Prop :=
  f.muxBit ≤ x ∧ x < f.muxBit + 4 ∨ ∃ p ∈ f.pullBit, p ≤ x ∧ x < p + 2

/-- A field ends in the word it starts in, and the pull is elsewhere than the function. -/
def PinFields.Fits (f : PinFields) : Prop :=
  f.muxBit % 32 + 4 ≤ 32 ∧ ∀ p ∈ f.pullBit, p % 32 + 2 ≤ 32 ∧ (f.muxBit + 4 ≤ p ∨ p + 2 ≤ f.muxBit)

/-- The fields share no bit. -/
def PinFields.Apart (f g : PinFields) : Prop :=
  (f.muxBit + 4 ≤ g.muxBit ∨ g.muxBit + 4 ≤ f.muxBit) ∧
    (∀ q ∈ g.pullBit, f.muxBit + 4 ≤ q ∨ q + 2 ≤ f.muxBit) ∧ (∀ p ∈ f.pullBit, g.muxBit + 4 ≤ p ∨ p + 2 ≤ g.muxBit) ∧
      ∀ p ∈ f.pullBit, ∀ q ∈ g.pullBit, p + 2 ≤ q ∨ q + 2 ≤ p

instance (f : PinFields) : Decidable f.Fits := inferInstanceAs (Decidable (_ ∧ _))

instance (f g : PinFields) : Decidable (f.Apart g) := inferInstanceAs (Decidable (_ ∧ _))

theorem packed_fits {base first skip i : ℕ} (aligned : base % 32 = 0) (below : base + i * 4 + 4 ≤ first * 32) :
    (packed base first skip i).Fits := by
  refine ⟨?_, fun p hp => ?_⟩
  · simp only [packed]
    omega
  · cases hp
    simp only [packed]
    omega

theorem packed_apart {base first skip i j : ℕ} (ne : i ≠ j) (below : base + i * 4 + 4 ≤ first * 32)
    (below' : base + j * 4 + 4 ≤ first * 32) : (packed base first skip i).Apart (packed base first skip j) := by
  refine ⟨?_, fun q hq => ?_, fun p hp => ?_, fun p hp q hq => ?_⟩
  · simp only [packed]
    omega
  · cases hq
    simp only [packed]
    omega
  · cases hp
    simp only [packed]
    omega
  · cases hp
    cases hq
    omega

theorem get_of_idxOf {l : List ℕ} {a i : ℕ} (h : l.idxOf? a = some i) : l[i]? = some a := by
  induction l generalizing i with
  | nil => cases h
  | cons b l ih =>
    rw [List.idxOf?_cons] at h
    split at h
    · next same =>
      cases h
      simpa using same
    · obtain ⟨j, hj, rfl⟩ := Option.map_eq_some_iff.mp h
      exact ih hj

/-- The pins of the second bank of the AON controller, which have no pull. -/
def special (pin : ℕ) : PinFields := ⟨if pin - 32 < 4 then (pin - 32) * 4 else (pin - 32 - 3) * 32, none⟩

/-- What the layout of a controller is made of: where functions and pulls start, and how many pins there are. -/
structure Packing where
  base : ℕ
  first : ℕ
  skip : ℕ
  count : ℕ
  aligned : base % 32 = 0
  below : base + count * 4 ≤ first * 32

/-- Every pin is special, or has an index of its own. -/
theorem fields_packed (revision aon : Bool) : ∃ k : Packing, ∃ index : ℕ → Option ℕ,
    (∀ p q i, index p = some i → index q = some i → p = q) ∧ (aon = true → 96 ≤ k.base) ∧
      ∀ p f, bcmPinFields revision aon p = some f →
        (aon = true ∧ 32 ≤ p ∧ p ≤ 37 ∧ f = special p) ∨ ∃ i < k.count, index p = some i ∧ f = packed k.base k.first k.skip i := by
  have listed (l : List ℕ) (p q i : ℕ) (hp : l.idxOf? p = some i) (hq : l.idxOf? q = some i) : p = q :=
    Option.some.inj ((get_of_idxOf hp).symm.trans (get_of_idxOf hq))
  have short {l : List ℕ} {p i : ℕ} (hp : l.idxOf? p = some i) : i < l.length := (List.getElem?_eq_some_iff.mp (get_of_idxOf hp)).1
  cases revision <;> cases aon
  · refine ⟨⟨0, 7, 7, 54, rfl, by decide⟩, some, fun p q i hp hq => by cases hp; cases hq; rfl, nofun, fun p f hf => .inr ?_⟩
    simp only [bcmPinFields, Bool.false_eq_true, false_and, if_false, if_true] at hf
    split at hf
    · cases hf
    · cases hf
      exact ⟨p, show p < 54 by omega, rfl, rfl⟩
  · refine ⟨⟨96, 6, 10, 17, rfl, by decide⟩, some, fun p q i hp hq => by cases hp; cases hq; rfl, fun _ => Nat.le_refl _, fun p f hf => ?_⟩
    simp only [bcmPinFields, true_and, if_true] at hf
    split at hf
    · next inside =>
      cases hf
      exact .inl ⟨rfl, inside.1, inside.2, rfl⟩
    · split at hf
      · cases hf
      · cases hf
        exact .inr ⟨p, show p < 17 by omega, rfl, rfl⟩
  · refine ⟨⟨0, 4, 5, 28, rfl, by decide⟩, mainD0.idxOf?, listed mainD0, nofun, fun p f hf => .inr ?_⟩
    simp only [bcmPinFields, Bool.false_eq_true, false_and, if_false, Bool.true_eq_false] at hf
    obtain ⟨i, hi, rfl⟩ := Option.map_eq_some_iff.mp hf
    exact ⟨i, short hi, hi, rfl⟩
  · refine ⟨⟨96, 5, 9, 12, rfl, by decide⟩, aonD0.idxOf?, listed aonD0, fun _ => Nat.le_refl _, fun p f hf => ?_⟩
    simp only [bcmPinFields, true_and, Bool.true_eq_false, if_false, if_true] at hf
    split at hf
    · next inside =>
      cases hf
      exact .inl ⟨rfl, inside.1, inside.2, rfl⟩
    · obtain ⟨i, hi, rfl⟩ := Option.map_eq_some_iff.mp hf
      exact .inr ⟨i, short hi, hi, rfl⟩

theorem fields_fit {revision aon : Bool} {p : ℕ} {f : PinFields} (h : bcmPinFields revision aon p = some f) : f.Fits := by
  obtain ⟨k, index, -, -, all⟩ := fields_packed revision aon
  rcases all p f h with ⟨-, low, high, rfl⟩ | ⟨i, below, -, rfl⟩
  · refine ⟨?_, nofun⟩
    simp only [special]
    split <;> omega
  · exact packed_fits k.aligned (by have := k.below; omega)

theorem special_apart {base first skip i p : ℕ} (high : 96 ≤ base) (below : base + i * 4 + 4 ≤ first * 32) (low : 32 ≤ p) (top : p ≤ 37) :
    (special p).Apart (packed base first skip i) ∧ (packed base first skip i).Apart (special p) := by
  have bound : (special p).muxBit + 4 ≤ 96 := by
    simp only [special]
    split <;> omega
  refine ⟨⟨.inl ?_, fun q hq => .inl ?_, nofun, nofun⟩, ⟨.inr ?_, nofun, fun q hq => .inl ?_, fun _ _ => nofun⟩⟩
  · simp only [packed]
    omega
  · cases hq
    omega
  · simp only [packed]
    omega
  · cases hq
    omega

/-- No two pins share a bit of a function or of a pull. -/
theorem fields_apart {revision aon : Bool} {p q : ℕ} {f g : PinFields} (hf : bcmPinFields revision aon p = some f)
    (hg : bcmPinFields revision aon q = some g) (ne : p ≠ q) : f.Apart g := by
  obtain ⟨k, index, injective, high, all⟩ := fields_packed revision aon
  have below := k.below
  rcases all p f hf with ⟨aon', low, top, rfl⟩ | ⟨i, hi, index_p, rfl⟩ <;>
    rcases all q g hg with ⟨aon'', low', top', rfl⟩ | ⟨j, hj, index_q, rfl⟩
  · refine ⟨?_, nofun, nofun, nofun⟩
    simp only [special]
    split <;> split <;> omega
  · exact (special_apart (high aon') (by omega) low top).1
  · exact (special_apart (high aon'') (by omega) low' top').2
  · refine packed_apart (fun same => ne (injective p q i index_p (same ▸ index_q))) (by omega) (by omega)

theorem PinFields.Apart.not_covers {f g : PinFields} (h : f.Apart g) {x : ℕ} (covers : f.Covers x) : ¬g.Covers x := by
  obtain ⟨mux, left, right, pulls⟩ := h
  rintro (other | ⟨q, hq, other⟩) <;> rcases covers with own | ⟨p, hp, own⟩
  · omega
  · have := right p hp
    omega
  · have := left q hq
    omega
  · have := pulls p hp q hq
    omega

end Pi5Drivers.BcmGpio
