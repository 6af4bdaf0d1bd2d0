import Pi5Drivers.Encode.Commands

/-! The encoders write inside of their buffer. What they leave there where they succeed is a list of packets, one
after the other, and every address in it is one of the input or one of the list itself. -/

namespace Pi5Drivers.Encode

/-! ### Writers and lists -/

section Lists

variable {w : Writer} {l m : List Item}

theorem items_append (w : Writer) (l m : List Item) : (w.items l).items m = w.items (l ++ m) := List.foldl_append.symm

theorem align_items (w : Writer) (alignment : ℕ) : w.align alignment = w.items [.align alignment] := rfl

/-- What an item takes at most. -/
def Item.most : Item → ℕ
  | .packet _ count _ => count
  | .align alignment => alignment

def most (l : List Item) : ℕ := (l.map Item.most).sum

theorem most_append (l m : List Item) : most (l ++ m) = most l + most m := by
  rw [most, List.map_append, List.sum_append]
  rfl

theorem most_flatMap {α : Type} {f : α → List Item} {k : ℕ} (l : List α) (h : ∀ a ∈ l, most (f a) ≤ k) :
    most (l.flatMap f) ≤ l.length * k := by
  induction l with
  | nil => exact Nat.zero_le _
  | cons a l ih =>
    have here := h a List.mem_cons_self
    have rest := ih fun b mem => h b (List.mem_cons_of_mem a mem)
    rw [List.flatMap_cons, most_append, List.length_cons, Nat.succ_mul]
    omega

theorem most_eachTile {d : Draw} {f : ℕ → ℕ → List Item} {k : ℕ} (h : ∀ x y, most (f x y) ≤ k) :
    most (eachTile d f) ≤ tilesY d * (tilesX d * k) := by
  have rows := most_flatMap (List.range (tilesY d)) fun y _ => most_flatMap (List.range (tilesX d)) fun x _ => h x y
  rwa [List.length_range, List.length_range] at rows

theorem size_most (start : ℕ) {i : Item} (proper : i.Proper) : i.size start ≤ i.most := by
  cases i with
  | packet _ count _ => exact Nat.le_refl count
  | align alignment =>
    have pos : 0 < alignment := proper
    have := Nat.div_mul_le_self (start + alignment - 1) alignment
    simp only [Item.size, Item.most]
    omega

theorem ends_most (start : ℕ) (proper : ∀ i ∈ l, i.Proper) : ends start l ≤ start + most l := by
  induction l generalizing start with
  | nil => exact Nat.le_refl _
  | cons i l ih =>
    have here := size_most start (proper i List.mem_cons_self)
    have rest := ih (start + i.size start) fun j mem => proper j (List.mem_cons_of_mem i mem)
    have sum : most (i :: l) = i.most + most l := List.sum_cons
    change ends (start + i.size start) l ≤ start + most (i :: l)
    omega

end Lists

/-! ### What an encoder leaves -/

/-- The address of the place behind some items. -/
def place (base : BitVec 32) (pre : List Item) : BitVec 32 := base + BitVec.ofNat 32 (ends 0 pre)

/-- A part of the list that ends with a return, from its first packet to the one behind its last. -/
def SubListAt (base : BitVec 32) (l : List Item) (start stop : BitVec 32) : Prop :=
  ∃ pre body, pre ++ (body ++ [plain 18 1]) <+: l ∧ start = place base pre ∧ stop = place base (pre ++ (body ++ [plain 18 1]))

/-- A record of a draw. -/
def RecordAt (base : BitVec 32) (l : List Item) (record : BitVec 32) : Prop :=
  ∃ pre fields, pre ++ [.packet 0 32 fields] <+: l ∧ record = place base pre

/-- The packets without an address, and their lengths. -/
def lengths : List (ℕ × ℕ) :=
  [(4, 1), (6, 1), (13, 1), (18, 1), (19, 1), (21, 2), (23, 3), (25, 1), (26, 1), (27, 1), (36, 10), (54, 5), (56, 2), (71, 2), (83, 2),
    (84, 5), (86, 9), (87, 5), (88, 1), (91, 5), (92, 5), (96, 4), (97, 1), (98, 5), (99, 1), (100, 5), (107, 9), (108, 9), (109, 9),
    (110, 9), (111, 9), (119, 2), (120, 9), (121, 9), (122, 9), (124, 4), (125, 1), (126, 2)]

/-- What addresses may be: those of a list, of a record, and all others. -/
structure Names where
  list : BitVec 32 → BitVec 32 → Prop
  record : BitVec 32 → Prop
  given : BitVec 32 → Prop

/-- What may stand in a list. A call and a list of tiles name a sub-list, a draw names its record and how many attributes that
has, and every other address is one that was given: the target in a tile buffer, the tiles, the programs and uniforms of a record,
and the values of an attribute. -/
inductive Item.Sound (names : Names) : Item → Prop
  | align (alignment : ℕ) (pos : 0 < alignment) : Sound names (.align alignment)
  | other {opcode count : ℕ} (fields : List Field) (known : (opcode, count) ∈ lengths) : Sound names (.packet opcode count fields)
  | call {start stop : BitVec 32} (list : names.list start stop) : Sound names (.packet 17 5 [⟨8, 32, start⟩])
  | list {start stop : BitVec 32} (list : names.list start stop) :
      Sound names (.packet 20 9 [⟨8, 32, start⟩, ⟨40, 32, stop⟩])
  | draw {record n : BitVec 32} (few : n ≤ 4) (known : names.record record) :
      Sound names (.packet 64 5 [⟨8, 32, record ||| n⟩])
  | tileBuffer {opcode : ℕ} {fields : List Field} (kind : opcode = 29 ∨ opcode = 30) (target : ∀ f ∈ fields, f.first = 72 → names.given f.value) :
      Sound names (.packet opcode 13 fields)
  | tiles {address : BitVec 32} (tile : names.given address) : Sound names (.packet 123 5 [⟨8, 32, address⟩])
  | record {fields : List Field} (programs : ∀ f ∈ fields, 64 ≤ f.first → names.given f.value) : Sound names (.packet 0 32 fields)
  | attribute {fields : List Field} (values : ∀ f ∈ fields, f.first = 0 → names.given f.value) : Sound names (.packet 0 16 fields)

theorem Item.Sound.proper {names : Names} {i : Item} (h : i.Sound names) : i.Proper := by
  cases h
  case align pos => exact pos
  all_goals trivial

/-- The addresses of a list that begins at a base. -/
def namesOf (base : BitVec 32) (l : List Item) (given : BitVec 32 → Prop) : Names :=
  ⟨SubListAt base l, fun record => record.toNat % 32 = 0 ∧ RecordAt base l record, given⟩

/-- A list that was encoded: it fills the bytes that are used, they lie in the buffer, no address wraps, and every
address is that of a part of the list or one that was given. -/
structure Encoded (base : BitVec 32) (capacity : ℕ) (given : BitVec 32 → Prop) (r : Result) (l : List Item) : Prop where
  laid : Laid r.bytes 0 l
  fits : ∀ i ∈ l, i.Fits
  sound : ∀ i ∈ l, i.Sound (namesOf base l given)
  inside : ends 0 l ≤ capacity
  whole : base.toNat + ends 0 l < 2 ^ 32
  bytes : r.out.bytes.toNat = ends 0 l
  start : base.toNat ≤ r.out.renderStart.toNat ∧ r.out.renderStart.toNat ≤ r.out.renderEnd.toNat
  renderEnd : r.out.renderEnd.toNat = base.toNat + ends 0 l

/-- Whatever the input, nothing outside of the buffer is written, and a failure leaves nothing in the record. -/
structure Bounded (b : ℕ → BitVec 8) (capacity : ℕ) (r : Result) : Prop where
  outside : ∀ i, capacity ≤ i → r.bytes i = b i
  failed : r.ok = false → r.out = .zero

section Results

variable {b c : ℕ → BitVec 8} {capacity : ℕ} {out : EncodedCommands} {error : Option String} {message : String}

theorem bounded_ok (outside : ∀ i, capacity ≤ i → c i = b i) : Bounded b capacity ⟨true, error, out, c⟩ := ⟨outside, fun no => nomatch no⟩

theorem bounded_fail (outside : ∀ i, capacity ≤ i → c i = b i) : Bounded b capacity (.fail message c) := ⟨outside, fun _ => rfl⟩

end Results

theorem fail_bounded (message : String) (b : ℕ → BitVec 8) (capacity : ℕ) : Bounded b capacity (.fail message b) :=
  bounded_fail fun _ _ => rfl

section Runs

variable {b : ℕ → BitVec 8} {capacity : ℕ} {l m : List Item} {base : BitVec 32}

theorem items_outside (b : ℕ → BitVec 8) (capacity : ℕ) (proper : ∀ i ∈ l, i.Proper) (i : ℕ) (outside : capacity ≤ i) :
    ((Writer.new b capacity).items l).bytes i = b i :=
  (items_grows (Nat.zero_le capacity) proper).kept i (.inr outside)

/-- The first items of a list whose end is reached are all written. -/
theorem prefix_used (valid : ((Writer.new b capacity).items l).valid = true) (proper : ∀ i ∈ l, i.Proper) (first : m <+: l) :
    ((Writer.new b capacity).items m).used = ends 0 m := by
  obtain ⟨rest, rfl⟩ := first
  have head := fun i mem => proper i (List.mem_append_left rest mem)
  have tail := fun i mem => proper i (List.mem_append_right m mem)
  have grown := items_grows (w := Writer.new b capacity) (Nat.zero_le capacity) head
  rw [← items_append] at valid
  exact (items_laid (Nat.zero_le capacity) ((items_grows (grown.capacity ▸ grown.inside) tail).valid valid) head).2.1

theorem prefix_address (valid : ((Writer.new b capacity).items l).valid = true) (proper : ∀ i ∈ l, i.Proper) (first : m <+: l)
    (base : BitVec 32) : ((Writer.new b capacity).items m).address base = place base m := by
  rw [Writer.address, prefix_used valid proper first, place]

theorem most_prefix (first : m <+: l) : most m ≤ most l := by
  obtain ⟨rest, rfl⟩ := first
  rw [most_append]
  exact Nat.le_add_right _ _

/-- A place in a list, without wrap. -/
theorem toNat_place (proper : ∀ i ∈ l, i.Proper) (whole : base.toNat + most l < 2 ^ 32) (first : m <+: l) :
    (place base m).toNat = base.toNat + ends 0 m := by
  have short := ends_most 0 fun i mem => proper i (first.subset mem)
  have := most_prefix first
  rw [place, BitVec.toNat_add, BitVec.toNat_ofNat]
  omega

theorem prefix_ends {n : List Item} (first : m <+: n) : ends 0 m ≤ ends 0 n := by
  obtain ⟨rest, rfl⟩ := first
  rw [ends_append]
  exact le_ends _ rest

/-- An encoder that reaches the end of its list. -/
theorem encoded {given : BitVec 32 → Prop} {error : Option String} {start binStart binEnd tileBytes stateBytes skipped : BitVec 32}
    (valid : ((Writer.new b capacity).items l).valid = true) (sound : ∀ i ∈ l, i.Sound (namesOf base l given))
    (most : base.toNat + most l < 2 ^ 32) (first : m <+: l) (start' : start = ((Writer.new b capacity).items m).address base) :
    Encoded base capacity given
      ⟨true, error,
        ⟨BitVec.ofNat 32 ((Writer.new b capacity).items l).used, binStart, binEnd, start,
          ((Writer.new b capacity).items l).address base, tileBytes, stateBytes, skipped⟩,
        ((Writer.new b capacity).items l).bytes⟩ l := by
  have proper := fun i mem => (sound i mem).proper
  obtain ⟨fits, ended, laid⟩ := items_laid (Nat.zero_le capacity) valid proper
  have inside := (items_grows (w := Writer.new b capacity) (Nat.zero_le capacity) proper).inside
  have short := ends_most 0 proper
  rw [ended] at inside
  have whole : base.toNat + ends 0 l < 2 ^ 32 := by omega
  have stop : (((Writer.new b capacity).items l).address base).toNat = base.toNat + ends 0 l := by
    rw [Writer.address, ended]
    exact toNat_place proper most (List.prefix_refl l)
  refine ⟨laid, fits, sound, inside, whole, ?_, ?_, stop⟩
  · change (BitVec.ofNat 32 ((Writer.new b capacity).items l).used).toNat = ends 0 l
    rw [ended, BitVec.toNat_ofNat]
    exact Nat.mod_eq_of_lt (by change ends 0 l < 2 ^ 32; omega)
  · change base.toNat ≤ start.toNat ∧ start.toNat ≤ (((Writer.new b capacity).items l).address base).toNat
    rw [stop, start', prefix_address valid proper first, toNat_place proper most first]
    have := prefix_ends first
    omega

end Runs

/-! ### The parts of the lists -/

section Parts

variable {names : Names} {d : Draw}

/-- A list in which every item is good. -/
structure Part (names : Names) (k : ℕ) (part : List Item) : Prop where
  sound : ∀ i ∈ part, i.Sound names
  most : most part ≤ k

namespace Part

variable {part rest : List Item} {k n : ℕ} {i : Item}

theorem proper (h : Part names k part) : ∀ i ∈ part, i.Proper := fun i mem => (h.sound i mem).proper

theorem append (h : Part names k part) (h' : Part names n rest) : Part names (k + n) (part ++ rest) := by
  refine ⟨List.forall_mem_append.mpr ⟨h.sound, h'.sound⟩, ?_⟩
  rw [most_append]
  exact Nat.add_le_add h.most h'.most

theorem flatMap {α : Type} {f : α → List Item} {s : List α} (h : ∀ a ∈ s, Part names k (f a)) :
    Part names (s.length * k) (s.flatMap f) := by
  refine ⟨fun i mem => ?_, most_flatMap s fun a mem => (h a mem).most⟩
  obtain ⟨a, there, here⟩ := List.mem_flatMap.mp mem
  exact (h a there).sound i here

theorem mono (h : Part names k part) (le : k ≤ n) : Part names n part := ⟨h.sound, Nat.le_trans h.most le⟩

theorem nil : Part names 0 [] := ⟨fun _ no => absurd no List.not_mem_nil, Nat.le_refl 0⟩

theorem cons (h : i.Sound names) (h' : Part names k part) : Part names (i.most + k) (i :: part) := by
  refine ⟨List.forall_mem_cons.mpr ⟨h, h'.sound⟩, ?_⟩
  rw [Encode.most, List.map_cons, List.sum_cons]
  exact Nat.add_le_add_left h'.most i.most

/-- A packet without an address. -/
theorem other {opcode count : ℕ} {fields : List Field} (h' : Part names k part) (h : (opcode, count) ∈ lengths) :
    Part names (count + k) (.packet opcode count fields :: part) :=
  Part.cons (.other fields h) h'

/-- A part that may be left out. -/
theorem optional {c : Prop} [Decidable c] (h : Part names k part) : Part names k (if c then part else []) := by
  split
  · exact h
  · exact Part.nil.mono (Nat.zero_le k)

end Part

theorem part_tileBuffer (target : names.given d.target) (load empty : Bool) {part : List Item} {k : ℕ} (h : Part names k part) :
    Part names (13 + k) (tileBuffer d load empty :: part) := by
  refine Part.cons (.tileBuffer (by cases load <;> decide) fun f mem at72 => ?_) h
  cases empty
  · simp only [Bool.false_eq_true, if_false, List.mem_cons, List.not_mem_nil, or_false] at mem
    rcases mem with rfl | rfl | rfl | rfl | rfl <;> first | exact target | simp at at72
  · simp only [if_true, List.mem_singleton] at mem
    subst mem
    exact absurd at72 (by decide)

theorem part_dummyTiles (target : names.given d.target) : Part names 40 (dummyTiles d) := by
  refine (Part.flatMap (k := 20) fun i _ => ?_).mono (by decide)
  refine Part.append (n := 1) (Part.append (k := 18) (n := 1) ?_ ?_) (Part.nil.other (by decide))
  · exact (((part_tileBuffer target false true Part.nil).other (by decide)).other (by decide)).mono (by decide)
  · exact ((Part.nil.other (by decide)).mono (by decide)).optional

theorem part_eachTile {f : ℕ → ℕ → List Item} {k : ℕ} (small : tilesX d ≤ 64 ∧ tilesY d ≤ 64)
    (h : ∀ x y, Part names k (f x y)) : Part names (64 * (64 * k)) (eachTile d f) := by
  have tiles := Part.flatMap (s := List.range (tilesY d)) fun y _ => Part.flatMap (s := List.range (tilesX d)) fun x _ => h x y
  rw [List.length_range, List.length_range] at tiles
  exact tiles.mono (Nat.mul_le_mul small.2 (Nat.mul_le_mul_right k small.1))

end Parts

/-! ### Clears -/

section Clears

variable {d : Draw} {base : BitVec 32} {b : ℕ → BitVec 8} {capacity : ℕ}

theorem need_none {good : Bool} {message : String} {rest : Option String} (h : need good message rest = none) :
    good = true ∧ rest = none := by
  unfold need at h
  split at h
  · exact ⟨‹_›, h⟩
  · exact nomatch h

/-- What a surface must be. -/
theorem surface_small (h : surface d = true) : tilesX d ≤ 64 ∧ tilesY d ≤ 64 := by
  obtain ⟨-, -, w, h, -⟩ := of_decide_eq_true h
  have w : d.width.toNat ≤ 4096 := w
  have h : d.height.toNat ≤ 4096 := h
  unfold tilesX tilesY
  omega

theorem part_clearItems {names : Names} (target : names.given d.target) (small : tilesX d ≤ 64 ∧ tilesY d ≤ 64) :
    Part names 90000 (clearItems d) := by
  have head : Part names 27 [frame d, .packet 121 9 (attachment ++ [⟨40, 32, d.clearColor⟩]), .packet 121 9 [⟨8, 4, 1⟩]] :=
    (((Part.nil.other (by decide)).other (by decide)).other (by decide)).mono (by decide)
  have tiles := part_eachTile (d := d) small (k := 20)
    (f := fun x y => [coordinates x y, plain 26 1, tileBuffer d false false, plain 25 1, plain 27 1]) fun x y =>
      (((part_tileBuffer target false false ((Part.nil.other (by decide)).other (by decide))).other
        (by decide)).other (by decide)).mono (by decide)
  have start : Part names 1 [plain 19 1] := (Part.nil.other (by decide)).mono (by decide)
  have stop : Part names 1 [plain 13 1] := (Part.nil.other (by decide)).mono (by decide)
  exact ((((head.append (part_dummyTiles target)).append start).append tiles).append stop).mono (by decide)

/-- What a clear leaves. -/
theorem encodeClear_safe (d : Draw) (base : BitVec 32) (given : Bool) (b : ℕ → BitVec 8) (capacity : ℕ) :
    Bounded b capacity (encodeClear d base given b capacity) ∧ ((encodeClear d base given b capacity).ok = true →
      Encoded base capacity (· = d.target) (encodeClear d base given b capacity) (clearItems d)) := by
  unfold encodeClear
  split
  · exact ⟨fail_bounded _ b capacity, fun no => nomatch no⟩
  · rename_i good
    obtain ⟨stored, good⟩ := need_none good
    obtain ⟨surfaced, good⟩ := need_none good
    obtain ⟨aligned, -⟩ := need_none good
    have low : base.toNat ≤ 0xfffc0000 := (of_decide_eq_true aligned).2.2.1
    have part : Part (namesOf base (clearItems d) (· = d.target)) 90000 (clearItems d) := part_clearItems rfl (surface_small surfaced)
    have outside := items_outside b capacity part.proper
    have most := part.most
    simp only
    split
    · rename_i valid
      have start : base = ((Writer.new b capacity).items []).address base := (BitVec.add_zero base).symm
      exact ⟨bounded_ok outside, fun _ => encoded valid part.sound (by omega) List.nil_prefix start⟩
    · exact ⟨bounded_fail outside, fun no => nomatch no⟩

end Clears

/-! ### Copies -/

section Copies

variable {source d : Draw} {base : BitVec 32} {b : ℕ → BitVec 8} {capacity : ℕ} {names : Names}

theorem part_copyList (fromTarget : names.given source.target) (toTarget : names.given d.target) : Part names 29 (copyList source d) := by
  have tail : Part names 2 [plain 27 1, plain 18 1] := ((Part.nil.other (by decide)).other (by decide)).mono (by decide)
  exact (part_tileBuffer fromTarget true false ((part_tileBuffer toTarget false false tail).other (by decide))).mono (by decide)

theorem part_copyItems {generic stop : BitVec 32} (target : names.given d.target) (small : tilesX d ≤ 64 ∧ tilesY d ≤ 64)
    (list : names.list generic stop) : Part names 90000 (copyItems d generic) := by
  have head : Part names 27 [frame d, .packet 121 9 attachment, .packet 121 9 [⟨8, 4, 1⟩]] :=
    (((Part.nil.other (by decide)).other (by decide)).other (by decide)).mono (by decide)
  have tiles := part_eachTile (d := d) small (k := 9)
    (f := fun x y => [coordinates x y, .packet 17 5 [⟨8, 32, generic⟩]]) fun x y =>
      ((Part.cons (.call list) Part.nil).other (by decide)).mono (Nat.le_refl 9)
  have start : Part names 1 [plain 19 1] := (Part.nil.other (by decide)).mono (by decide)
  have stop : Part names 1 [plain 13 1] := (Part.nil.other (by decide)).mono (by decide)
  exact ((((head.append (part_dummyTiles target)).append start).append tiles).append stop).mono (by decide)

/-- The list of a copy. -/
def copyWhole (source d : Draw) (base : BitVec 32) : List Item :=
  (copyList source d ++ [.align 64]) ++ copyItems d (place base [])

/-- What a copy leaves. -/
theorem encodeCopy_safe (source d : Draw) (base : BitVec 32) (given : Bool) (b : ℕ → BitVec 8) (capacity : ℕ) :
    Bounded b capacity (encodeCopy source d base given b capacity) ∧ ((encodeCopy source d base given b capacity).ok = true →
      Encoded base capacity (fun a => a = source.target ∨ a = d.target) (encodeCopy source d base given b capacity)
        (copyWhole source d base)) := by
  unfold encodeCopy
  split
  · exact ⟨fail_bounded _ b capacity, fun no => nomatch no⟩
  · rename_i good
    obtain ⟨stored, good⟩ := need_none good
    obtain ⟨sized, good⟩ := need_none good
    obtain ⟨surfaced, good⟩ := need_none good
    obtain ⟨_, good⟩ := need_none good
    obtain ⟨aligned, -⟩ := need_none good
    have low : base.toNat ≤ 0xfffc0000 := (of_decide_eq_true aligned).2.2
    have small : tilesX d ≤ 64 ∧ tilesY d ≤ 64 := by
      obtain ⟨-, -, w, h, -⟩ := of_decide_eq_true sized
      have w : d.width.toNat ≤ 4096 := w
      have h : d.height.toNat ≤ 4096 := h
      unfold tilesX tilesY
      omega
    have list : SubListAt base (copyWhole source d base) (place base []) (place base (copyList source d)) :=
      ⟨[], [tileBuffer source true false, plain 26 1, tileBuffer d false false, plain 27 1], ⟨_, List.append_assoc _ _ _ |>.symm⟩, rfl, rfl⟩
    have part : Part (namesOf base (copyWhole source d base) fun a => a = source.target ∨ a = d.target) 91000 (copyWhole source d base) :=
      (((part_copyList (Or.inl rfl) (Or.inr rfl)).append (Part.cons (.align 64 (by decide)) Part.nil)).append
        (part_copyItems (Or.inr rfl) small list)).mono (by decide)
    have outside := items_outside b capacity part.proper
    have most := part.most
    simp only [align_items, items_append]
    have same : copyList source d ++ [.align 64] ++ copyItems d ((Writer.new b capacity).address base) = copyWhole source d base := rfl
    rw [same]
    split
    · rename_i valid
      have most : base.toNat + Encode.most (copyWhole source d base) < 2 ^ 32 := by omega
      have first : copyList source d ++ [.align 64] <+: copyWhole source d base := List.prefix_append _ _
      exact ⟨bounded_ok outside, fun _ => encoded valid part.sound most first rfl⟩
    · exact ⟨bounded_fail outside, fun no => nomatch no⟩

end Copies

/-! ### Groups of tiles -/

section Groups

/-- There are few groups once the groups are about as large as half the frame, which the rounds are enough for. -/
theorem groupTiles_small {x y rounds width height : ℕ} (pos : 0 < width) (near : width ≤ height ∧ height ≤ width + 1)
    (enough : x + y + 2 ≤ rounds + width + height) :
    0 < (groupTiles x y rounds width height).1 ∧ 0 < (groupTiles x y rounds width height).2 ∧
      (x + (groupTiles x y rounds width height).1 - 1) / (groupTiles x y rounds width height).1 < 256 ∧
      (y + (groupTiles x y rounds width height).2 - 1) / (groupTiles x y rounds width height).2 < 256 ∧
      (x + (groupTiles x y rounds width height).1 - 1) / (groupTiles x y rounds width height).1 *
        ((y + (groupTiles x y rounds width height).2 - 1) / (groupTiles x y rounds width height).2) ≤ 256 := by
  induction rounds generalizing width height with
  | zero =>
    have across : (x + width - 1) / width ≤ 2 := Nat.le_of_lt_succ (Nat.div_lt_of_lt_mul (by omega))
    have down : (y + height - 1) / height ≤ 2 := Nat.le_of_lt_succ (Nat.div_lt_of_lt_mul (by omega))
    have all := Nat.mul_le_mul across down
    simp only [groupTiles]
    omega
  | succ rounds ih =>
    simp only [groupTiles]
    split
    · split
      · exact ih (by omega) (by omega) (by omega)
      · exact ih pos (by omega) (by omega)
    · rename_i few
      exact ⟨pos, Nat.lt_of_lt_of_le pos near.1, Nat.lt_of_not_le fun no => few (.inl no), Nat.lt_of_not_le fun no => few (.inr (.inl no)),
        Nat.le_of_not_lt fun no => few (.inr (.inr no))⟩

theorem grid_small (d : Draw) : (grid d).superX * (grid d).superY ≤ 256 :=
  (groupTiles_small Nat.one_pos ⟨Nat.le_refl 1, Nat.le_succ 1⟩ (Nat.le_refl _)).2.2.2.2

theorem length_places (g : Grid) : (places g).length = g.superY * g.superX := by
  rw [places, List.length_flatMap]
  simp only [List.length_map, List.length_range, List.map_const', List.sum_replicate_nat]

end Groups

/-! ### Batches -/

section Batches

variable {draws : List Draw} {d : Draw} {base : BitVec 32} {b : ℕ → BitVec 8} {capacity : ℕ} {l : List Item} {names : Names}

/-- The addresses that a batch names. Those of the programs hold a bit for the threads, and the attributes of a vertex follow
one another from its address on. -/
def Named (draws : List Draw) (a : BitVec 32) : Prop :=
  ∃ d ∈ draws, a = d.target ∨ a = d.tile ∨ a = d.pixelUniforms ∨ a = d.vertexUniforms ∨ a = d.coordinateUniforms ∨
    (∃ bit ≤ 1#32, a = d.pixelCode ||| bit ∨ a = d.vertexCode ||| bit ∨ a = d.coordinateCode ||| bit) ∨
    ∃ i < 4, a = d.vertexAddress + BitVec.ofNat 32 (i * 16)

/-- What is needed of a draw here. -/
theorem drawFailure_none {first : Draw} (h : drawFailure base first d = none) :
    surface d = true ∧ d.vertexScalars.toNat ≤ 16 ∧ base &&& 4095 = 0 ∧ base.toNat ≤ 0xffff0000 := by
  obtain ⟨surfaced, h⟩ := need_none h
  obtain ⟨vertices, h⟩ := need_none h
  obtain ⟨-, h⟩ := need_none h
  obtain ⟨-, h⟩ := need_none h
  obtain ⟨-, h⟩ := need_none h
  obtain ⟨-, h⟩ := need_none h
  obtain ⟨-, h⟩ := need_none h
  obtain ⟨-, h⟩ := need_none h
  obtain ⟨-, h⟩ := need_none h
  obtain ⟨-, h⟩ := need_none h
  obtain ⟨aligned, -⟩ := need_none h
  obtain ⟨-, page, low, -⟩ := of_decide_eq_true aligned
  exact ⟨surfaced, (of_decide_eq_true vertices).2.1, page, low⟩

theorem part_genericList (target : names.given d.target) (coverage load : Bool) : Part names 40 (genericList d coverage load) := by
  have head : Part names 1 [plain 125 1] := (Part.nil.other (by decide)).mono (by decide)
  have loads : Part names 13 (if load then [tileBuffer d true false] else []) := (part_tileBuffer target true false Part.nil).optional
  have stores : Part names 23 [plain 26 1, .packet 56 2 [⟨8, 8, 2⟩], plain 54 5, plain 21 2, tileBuffer d false false] :=
    (((((part_tileBuffer target false false Part.nil).other (by decide)).other (by decide)).other (by decide)).other (by decide)).mono
      (by decide)
  have clears : Part names 1 (if !d.loadTarget || coverage then [plain 25 1] else []) :=
    ((Part.nil.other (by decide)).mono (by decide)).optional
  have stop : Part names 2 [plain 27 1, plain 18 1] := ((Part.nil.other (by decide)).other (by decide)).mono (by decide)
  exact ((((head.append loads).append stores).append clears).append stop).mono (by decide)

theorem bit_small (v : BitVec 32) : v &&& 1 ≤ 1#32 := by
  rw [BitVec.le_def, BitVec.toNat_and]
  exact Nat.and_le_right

theorem part_recordItems (given : ∀ a, Named draws a → names.given a) (mem : d ∈ draws) (few : d.vertexScalars.toNat ≤ 16) : Part names 96 (recordItems d) := by
  have values : Part names (attributes d * 16) ((List.range (attributes d)).map fun i =>
      let values := BitVec.ofNat 32 (min (d.vertexScalars.toNat - i * 4) 4)
      .packet 0 16
        [⟨0, 32, d.vertexAddress + BitVec.ofNat 32 (i * 16)⟩, ⟨32, 2, values &&& 3⟩, ⟨34, 3, 6⟩, ⟨39, 1, 1⟩, ⟨40, 4, values⟩,
          ⟨44, 4, values⟩, ⟨64, 32, d.vertexStride⟩, ⟨96, 32, d.vertexCount - 1⟩]) := by
    have one : ∀ i ∈ List.range (attributes d), Part names 16
        (let values := BitVec.ofNat 32 (min (d.vertexScalars.toNat - i * 4) 4)
        [.packet 0 16
          [⟨0, 32, d.vertexAddress + BitVec.ofNat 32 (i * 16)⟩, ⟨32, 2, values &&& 3⟩, ⟨34, 3, 6⟩, ⟨39, 1, 1⟩, ⟨40, 4, values⟩,
            ⟨44, 4, values⟩, ⟨64, 32, d.vertexStride⟩, ⟨96, 32, d.vertexCount - 1⟩]]) := by
      intro i inside
      refine (Part.cons (.attribute fun f there at0 => ?_) Part.nil).mono (Nat.le_refl 16)
      have low : i < 4 := by
        have := List.mem_range.mp inside
        unfold attributes at this
        omega
      simp only [List.mem_cons, List.not_mem_nil, or_false] at there
      rcases there with rfl | rfl | rfl | rfl | rfl | rfl | rfl | rfl
      · exact given _ ⟨d, mem, .inr (.inr (.inr (.inr (.inr (.inr ⟨i, low, rfl⟩)))))⟩
      all_goals simp at at0
    have all := Part.flatMap one
    rw [List.length_range] at all
    rwa [List.map_eq_flatMap]
  have le : attributes d ≤ 4 := by
    unfold attributes
    omega
  refine (Part.cons (.record fun f there at64 => ?_) values).mono (Nat.add_le_add_left (Nat.mul_le_mul_right 16 le) 32)
  simp only [List.mem_cons, List.not_mem_nil, or_false] at there
  rcases there with rfl | rfl | rfl | rfl | rfl | rfl | rfl | rfl | rfl | rfl | rfl | rfl | rfl
  iterate 7 exact absurd at64 (by simp)
  · exact given _ ⟨d, mem, .inr (.inr (.inr (.inr (.inr (.inl ⟨_, bit_small _, .inl rfl⟩)))))⟩
  · exact given _ ⟨d, mem, .inr (.inr (.inl rfl))⟩
  · exact given _ ⟨d, mem, .inr (.inr (.inr (.inr (.inr (.inl ⟨_, bit_small _, .inr (.inl rfl)⟩)))))⟩
  · exact given _ ⟨d, mem, .inr (.inr (.inr (.inl rfl)))⟩
  · exact given _ ⟨d, mem, .inr (.inr (.inr (.inr (.inr (.inl ⟨_, bit_small _, .inr (.inr rfl)⟩)))))⟩
  · exact given _ ⟨d, mem, .inr (.inr (.inr (.inr (.inl rfl))))⟩

theorem part_maskItems {opcode : ℕ} (known : (opcode, 5) ∈ lengths) (mask : BitVec 32) : Part names 5 (maskItems opcode mask) :=
  (Part.nil.other known).optional

theorem part_blendItems (d : Draw) : Part names 14 (blendItems d) :=
  (((Part.nil.other (by decide)).other (by decide)).mono (by decide)).optional

theorem part_binItems (d : Draw) : Part names 18 (binItems d) :=
  (((((Part.nil.other (by decide)).other (by decide)).other (by decide)).other (by decide)).other (by decide)).mono (by decide)

theorem part_drawItems {record : BitVec 32} (few : d.vertexScalars.toNat ≤ 16) (known : names.record record) : Part names 110 (drawItems d record) := by
  have few : BitVec.ofNat 32 (attributes d) ≤ 4 := by
    rw [BitVec.le_def, BitVec.toNat_ofNat]
    unfold attributes
    change _ ≤ 4
    omega
  have last : Part names 18
      [plain 88 1, .packet 71 2 [⟨8, 8, 0x22⟩], .packet 64 5 [⟨8, 32, record ||| BitVec.ofNat 32 (attributes d)⟩],
        .packet 36 10 [⟨8, 8, 4⟩, ⟨16, 32, d.vertexCount⟩]] :=
    (((Part.cons (.draw few known) (Part.nil.other (by decide))).other (by decide)).other (by decide)).mono (Nat.le_refl 18)
  have state : Part names 6 [.packet 91 5 [⟨8, 4, 15⟩, ⟨24, 16, 0x3f80⟩], plain 97 1] :=
    ((Part.nil.other (by decide)).other (by decide)).mono (by decide)
  have next : Part names 1 [plain 99 1] := (Part.nil.other (by decide)).mono (by decide)
  unfold drawItems
  refine (((((((Part.mono (n := 56) ?_ (Nat.le_refl 56)).append (part_blendItems d)).append state).append
    (part_maskItems (by decide) _)).append next).append (part_maskItems (by decide) _)).append last).mono (by decide)
  exact ((((((((Part.nil.other (by decide)).other (by decide)).other (by decide)).other (by decide)).other (by decide)).other
    (by decide)).other (by decide)).other (by decide)).mono (by decide)

theorem part_renderItems {generic : SubList} (g : Grid) (target : names.given d.target) (tile : names.given d.tile)
    (list : names.list generic.start generic.stop) : Part names 93 (renderItems d g generic) := by
  have head : Part names 43
      [frame d, .packet 121 9 (attachment ++ [⟨40, 32, d.clearColor⟩]), .packet 121 9 [⟨8, 4, 1⟩], .packet 126 2 [⟨10, 1, 1⟩],
        .packet 123 5 [⟨8, 32, d.tile⟩],
        .packet 122 9 [⟨8, 8, BitVec.ofNat 32 (g.superWidth - 1)⟩, ⟨16, 8, BitVec.ofNat 32 (g.superHeight - 1)⟩,
          ⟨24, 8, BitVec.ofNat 32 g.superX⟩, ⟨32, 8, BitVec.ofNat 32 g.superY⟩, ⟨40, 12, BitVec.ofNat 32 (tilesX d)⟩,
          ⟨52, 12, BitVec.ofNat 32 (tilesY d)⟩]] :=
    (((((Part.cons (.tiles tile) (Part.nil.other (by decide))).other (by decide)).other (by decide)).other (by decide)).other
      (by decide)).mono (Nat.le_refl 43)
  have tail : Part names 10 [plain 19 1, listItem generic] := ((Part.cons (.list list) Part.nil).other (by decide)).mono (Nat.le_refl 10)
  exact ((head.append (part_dummyTiles target)).append tail).mono (by decide)

/-- Every group has its list. -/
theorem part_superItems {generic opaqueSub : SubList} (list : names.list generic.start generic.stop)
    (list' : names.list opaqueSub.start opaqueSub.stop) (g : Grid) (coverage : Bool) (s : List (ℕ × ℕ)) (selected : SubList) :
    Part names (s.length * 12) (superItems draws d g coverage generic opaqueSub s selected).1 := by
  induction s generalizing selected with
  | nil => exact Part.nil
  | cons p s ih =>
    obtain ⟨x, y⟩ := p
    rw [List.length_cons, Nat.succ_mul, superItems]
    split
    · exact (ih selected).mono (Nat.le_add_right _ _)
    · simp only
      generalize skips d coverage (inFrame d (superRect g x y)) = skip
      have next : names.list (if skip then opaqueSub else generic).start (if skip then opaqueSub else generic).stop := by
        cases skip
        · exact list
        · exact list'
      have chosen : Part names 9
          (if (if skip then opaqueSub else generic).start ≠ selected.start then [listItem (if skip then opaqueSub else generic)] else []) :=
        (Part.cons (.list next) Part.nil).optional
      have group : Part names 3 [.packet 23 3 [⟨8, 8, BitVec.ofNat 32 x⟩, ⟨16, 8, BitVec.ofNat 32 y⟩]] :=
        (Part.nil.other (by decide)).mono (by decide)
      exact ((chosen.append group).append (ih _)).mono (by omega)

theorem genericList_returns (d : Draw) (coverage load : Bool) : ∃ body, genericList d coverage load = body ++ [plain 18 1] := by
  refine ⟨?_, ?_⟩
  rotate_left
  · rw [genericList, show [plain 27 1, plain 18 1] = [plain 27 1] ++ [plain 18 1] from rfl, ← List.append_assoc]

theorem subListAt_prefix (pre : List Item) {part : List Item} (returns : ∃ body, part = body ++ [plain 18 1]) (first : pre ++ part <+: l) :
    SubListAt base l (place base pre) (place base (pre ++ part)) := by
  obtain ⟨body, rfl⟩ := returns
  exact ⟨pre, body, first, rfl, rfl⟩

/-- The records of the draws. -/
def recordList (draws : List Draw) : List Item := draws.flatMap fun e => .align 32 :: recordItems e

theorem writeRecords_items (base : BitVec 32) (draws : List Draw) (w : Writer) :
    (writeRecords base draws w).2 = w.items (recordList draws) := by
  induction draws generalizing w with
  | nil => rfl
  | cons d draws ih =>
    have rest := ih ((w.align 32).items (recordItems d))
    rw [recordList, List.flatMap_cons, ← items_append]
    exact rest

/-- Every address that was kept is that of a record. -/
theorem writeRecords_at (pre : List Item) (valid : ((Writer.new b capacity).items l).valid = true) (proper : ∀ i ∈ l, i.Proper)
    (page : base.toNat % 4096 = 0) (first : pre ++ recordList draws <+: l) :
    ∀ record ∈ (writeRecords base draws ((Writer.new b capacity).items pre)).1, record.toNat % 32 = 0 ∧ RecordAt base l record := by
  induction draws generalizing pre with
  | nil => exact fun _ no => absurd no List.not_mem_nil
  | cons d draws ih =>
    rw [recordList, List.flatMap_cons] at first
    have rest := ih (pre ++ (.align 32 :: recordItems d)) (by rw [List.append_assoc]; exact first)
    have before : pre ++ [.align 32] <+: l := by
      refine List.IsPrefix.trans ?_ first
      exact ⟨recordItems d ++ recordList draws, by rw [List.append_assoc]; rfl⟩
    have address : (((Writer.new b capacity).items pre).align 32).address base = place base (pre ++ [.align 32]) := by
      rw [align_items, items_append]
      exact prefix_address valid proper before base
    intro record mem
    rw [← items_append] at rest
    rcases List.mem_cons.mp mem with rfl | mem
    · rw [address]
      refine ⟨?_, ?_⟩
      · rw [place, ends_append]
        simp only [ends, Item.size, BitVec.toNat_add, BitVec.toNat_ofNat]
        omega
      · obtain ⟨fields, tail, parts⟩ : ∃ fields tail, recordItems d = .packet 0 32 fields :: tail := ⟨_, _, rfl⟩
        refine ⟨pre ++ [.align 32], fields, List.IsPrefix.trans ⟨tail ++ recordList draws, ?_⟩ first, rfl⟩
        rw [parts]
        simp only [recordList, List.append_assoc, List.cons_append, List.nil_append]
    · exact rest record mem

/-- A list for the tiles that need no load. -/
def opaqueList (d : Draw) (coverage : Bool) : List Item := if coverage then genericList d coverage false else []

/-- The lists that the rest refers to. -/
def batchFront (draws : List Draw) (d : Draw) (coverage : Bool) : List Item :=
  genericList d coverage d.loadTarget ++ opaqueList d coverage ++ recordList draws ++ [.align 64]

/-- As far as the end of the binning. -/
def batchBin (draws : List Draw) (d : Draw) (coverage : Bool) (records : List (BitVec 32)) : List Item :=
  batchFront draws d coverage ++ binItems d ++ ((draws.zip records).flatMap fun e => drawItems e.1 e.2) ++ [plain 4 1]

def batchWhole (draws : List Draw) (d : Draw) (coverage : Bool) (records : List (BitVec 32)) (generic opaqueSub : SubList) : List Item :=
  batchBin draws d coverage records ++ [.align 64] ++ renderItems d (grid d) generic ++
    (superItems draws d (grid d) coverage generic opaqueSub (places (grid d)) generic).1 ++ [plain 13 1]

theorem part_batchWhole {coverage : Bool} {records : List (BitVec 32)} {generic opaqueSub : SubList}
    (given : ∀ a, Named draws a → names.given a) (mem : d ∈ draws) (count : draws.length ≤ 32)
    (few : ∀ e ∈ draws, e.vertexScalars.toNat ≤ 16) (known : ∀ record ∈ records, names.record record)
    (list : names.list generic.start generic.stop) (list' : names.list opaqueSub.start opaqueSub.stop) :
    Part names 12000 (batchWhole draws d coverage records generic opaqueSub) := by
  have target : names.given d.target := given _ ⟨d, mem, .inl rfl⟩
  have tile : names.given d.tile := given _ ⟨d, mem, .inr (.inl rfl)⟩
  have lists : Part names 80 (genericList d coverage d.loadTarget ++ opaqueList d coverage) :=
    (part_genericList target coverage d.loadTarget).append (part_genericList target coverage false).optional
  have written : Part names 4096 (recordList draws) :=
    (Part.flatMap fun e there => Part.cons (.align 32 (by decide)) (part_recordItems given there (few e there))).mono
      (Nat.mul_le_mul_right 128 count)
  have align : Part names 64 [.align 64] := Part.cons (.align 64 (by decide)) Part.nil
  have drawn : Part names (32 * 110) ((draws.zip records).flatMap fun e => drawItems e.1 e.2) := by
    have one : ∀ e ∈ draws.zip records, Part names 110 (drawItems e.1 e.2) := fun e there =>
      part_drawItems (few e.1 (List.of_mem_zip there).1) (known e.2 (List.of_mem_zip there).2)
    have each := Part.flatMap one
    have short : (draws.zip records).length ≤ 32 := by
      rw [List.length_zip]
      exact Nat.le_trans (Nat.min_le_left _ _) count
    exact each.mono (Nat.mul_le_mul_right 110 short)
  have binned : Part names 1 [plain 4 1] := (Part.nil.other (by decide)).mono (by decide)
  have groups : Part names (256 * 12) (superItems draws d (grid d) coverage generic opaqueSub (places (grid d)) generic).1 := by
    have small : (places (grid d)).length ≤ 256 := by
      rw [length_places, Nat.mul_comm]
      exact grid_small d
    exact (part_superItems list list' (grid d) coverage (places (grid d)) generic).mono (Nat.mul_le_mul_right 12 small)
  have stop : Part names 1 [plain 13 1] := (Part.nil.other (by decide)).mono (by decide)
  have front := (lists.append written).append align
  have bin := ((front.append (part_binItems d)).append drawn).append binned
  rw [batchWhole, batchBin, batchFront]
  exact ((((bin.append align).append (part_renderItems (grid d) target tile list)).append groups).append stop).mono (by decide)

section Prefixes

variable (draws : List Draw) (d : Draw) (coverage : Bool) (records : List (BitVec 32)) (generic opaqueSub : SubList)

theorem opaques_front : genericList d coverage d.loadTarget ++ opaqueList d coverage <+: batchFront draws d coverage := by
  rw [batchFront, List.append_assoc _ (recordList draws)]
  exact List.prefix_append _ _

theorem prefix_records :
    genericList d coverage d.loadTarget ++ opaqueList d coverage ++ recordList draws <+: batchFront draws d coverage := by
  rw [batchFront]
  exact List.prefix_append _ _

theorem prefix_front : batchFront draws d coverage <+: batchBin draws d coverage records := by
  rw [batchBin, List.append_assoc, List.append_assoc]
  exact List.prefix_append _ _

theorem prefix_align : batchBin draws d coverage records ++ [.align 64] <+: batchWhole draws d coverage records generic opaqueSub := by
  rw [batchWhole, List.append_assoc, List.append_assoc]
  exact List.prefix_append _ _

end Prefixes

theorem items_optional (w : Writer) (c : Bool) (l m : List Item) :
    (if c = true then w.items (l ++ m) else w.items l) = w.items (l ++ if c = true then m else []) := by
  cases c
  · simp only [Bool.false_eq_true, if_false, List.append_nil]
  · rfl

/-- What is written for a batch that is good. -/
theorem encodeDrawBatch_written {rest : List Draw} {given : Bool} (good : batchFailure (d :: rest) base given capacity = none)
    (b : ℕ → BitVec 8) :
    ∃ (coverage : Bool) (generic opaqueSub : SubList) (records : List (BitVec 32)) (tileBytes stateBytes skipped : BitVec 32),
      let w := Writer.new b capacity
      let front := genericList d coverage d.loadTarget
      let bin := batchBin (d :: rest) d coverage records
      let whole := batchWhole (d :: rest) d coverage records generic opaqueSub
      generic = ⟨(w.items []).address base, (w.items front).address base⟩ ∧
      opaqueSub =
        (if coverage then ⟨(w.items front).address base, (w.items (front ++ opaqueList d coverage)).address base⟩ else generic) ∧
      records = (writeRecords base (d :: rest) (w.items (front ++ opaqueList d coverage))).1 ∧
      encodeDrawBatch (d :: rest) base given b capacity =
        if (w.items whole).valid then
          ⟨true, none,
            ⟨BitVec.ofNat 32 (w.items whole).used, (w.items (batchFront (d :: rest) d coverage)).address base,
              (w.items bin).address base, (w.items (bin ++ [.align 64])).address base, (w.items whole).address base,
              tileBytes, stateBytes, skipped⟩,
            (w.items whole).bytes⟩
        else .fail "command storage or field overflow" (w.items whole).bytes := by
  have written (w : Writer) : writeRecords base (d :: rest) w =
      ((writeRecords base (d :: rest) w).1, w.items (recordList (d :: rest))) :=
    Prod.ext rfl (writeRecords_items base (d :: rest) w)
  unfold encodeDrawBatch
  simp only [good]
  generalize decide (d.loadTarget = true ∧ d.pipeline.flags &&& 32 ≠ 0) = coverage
  let w := Writer.new b capacity
  let front := genericList d coverage d.loadTarget
  let generic : SubList := ⟨(w.items []).address base, (w.items front).address base⟩
  let opaqueSub : SubList :=
    if coverage then ⟨(w.items front).address base, (w.items (front ++ opaqueList d coverage)).address base⟩ else generic
  refine ⟨coverage, generic, opaqueSub, (writeRecords base (d :: rest) (w.items (front ++ opaqueList d coverage))).1,
    ((BitVec.ofNat 32 (tilesX d * tilesY d) * 64 + 4095) &&& ~~~4095) + 8192 + 1024 * 1024,
    (BitVec.ofNat 32 (tilesX d * tilesY d) * 256 + 4095) &&& ~~~4095,
    BitVec.ofNat 32 (superItems (d :: rest) d (grid d) coverage generic opaqueSub (places (grid d)) generic).2, rfl, rfl, rfl, ?_⟩
  rw [written]
  simp only [align_items, items_append, items_optional]
  rfl

/-- The lists of a batch follow one another. -/
def Ordered (base : BitVec 32) (out : EncodedCommands) : Prop :=
  base.toNat ≤ out.binStart.toNat ∧ out.binStart.toNat ≤ out.binEnd.toNat ∧ out.binEnd.toNat ≤ out.renderStart.toNat

/-- What a batch leaves. -/
theorem encodeDrawBatch_safe (draws : List Draw) (base : BitVec 32) (given : Bool) (b : ℕ → BitVec 8) (capacity : ℕ) :
    Bounded b capacity (encodeDrawBatch draws base given b capacity) ∧ ((encodeDrawBatch draws base given b capacity).ok = true →
      Ordered base (encodeDrawBatch draws base given b capacity).out ∧
        ∃ l, Encoded base capacity (Named draws) (encodeDrawBatch draws base given b capacity) l) := by
  rcases draws with _ | ⟨d, rest⟩
  · exact ⟨fail_bounded _ b capacity, fun no => nomatch no⟩
  rcases good : batchFailure (d :: rest) base given capacity with _ | message
  rotate_left
  · unfold encodeDrawBatch
    simp only [good]
    exact ⟨fail_bounded _ b capacity, fun no => nomatch no⟩
  obtain ⟨coverage, generic, opaqueSub, records, tileBytes, stateBytes, skipped, generics, opaques, recorded, result⟩ :=
    encodeDrawBatch_written good b
  obtain ⟨count, checked⟩ := need_none good
  obtain ⟨-, checked⟩ := need_none checked
  have checked := fun e mem => drawFailure_none (List.findSome?_eq_none_iff.mp checked e mem)
  have few := fun e mem => (checked e mem).2.1
  have count : (d :: rest).length ≤ 32 := of_decide_eq_true count
  obtain ⟨-, -, page, low⟩ := checked d List.mem_cons_self
  have everything : Part ⟨fun _ _ => True, fun _ => True, fun _ => True⟩ 12000
      (batchWhole (d :: rest) d coverage records generic opaqueSub) :=
    part_batchWhole (fun _ _ => trivial) List.mem_cons_self count few (fun _ _ => trivial) trivial trivial
  have proper := everything.proper
  have outside := items_outside b capacity proper
  have short := everything.most
  rw [result]
  split
  rotate_left
  · exact ⟨bounded_fail outside, fun no => nomatch no⟩
  rename_i valid
  refine ⟨bounded_ok outside, fun _ => ?_⟩
  -- The places that are named are those before some part of the list.
  have atAlign := prefix_align (d :: rest) d coverage records generic opaqueSub
  have atBin := (List.prefix_append (batchBin (d :: rest) d coverage records) [.align 64]).trans atAlign
  have atFront := (prefix_front (d :: rest) d coverage records).trans atBin
  have atRecords := (prefix_records (d :: rest) d coverage).trans atFront
  have atOpaque := (opaques_front (d :: rest) d coverage).trans atFront
  have atGeneric := (List.prefix_append (genericList d coverage d.loadTarget) (opaqueList d coverage)).trans atOpaque
  have address := fun {m} (first : m <+: batchWhole (d :: rest) d coverage records generic opaqueSub) => prefix_address valid proper first base
  have whole : base.toNat + most (batchWhole (d :: rest) d coverage records generic opaqueSub) < 2 ^ 32 := by omega
  have list : SubListAt base (batchWhole (d :: rest) d coverage records generic opaqueSub) generic.start generic.stop := by
    have start : generic.start = place base [] := (congrArg SubList.start generics).trans (address List.nil_prefix)
    have stop : generic.stop = place base (genericList d coverage d.loadTarget) := (congrArg SubList.stop generics).trans (address atGeneric)
    rw [start, stop]
    exact subListAt_prefix [] (genericList_returns d coverage d.loadTarget) atGeneric
  have list' : SubListAt base (batchWhole (d :: rest) d coverage records generic opaqueSub) opaqueSub.start opaqueSub.stop := by
    cases coverage
    · have same : opaqueSub = generic := opaques
      have start := congrArg SubList.start same
      have stop := congrArg SubList.stop same
      rw [start, stop]
      exact list
    · have start := (congrArg SubList.start opaques).trans (address atGeneric)
      have stop := (congrArg SubList.stop opaques).trans (address atOpaque)
      rw [start, stop]
      exact subListAt_prefix _ (genericList_returns d true false) atOpaque
  have page : base.toNat % 4096 = 0 := by
    have zero := congrArg BitVec.toNat page
    rw [BitVec.toNat_and] at zero
    exact (Nat.and_two_pow_sub_one_eq_mod base.toNat 12).symm.trans zero
  have known := writeRecords_at _ valid proper page atRecords
  rw [← recorded] at known
  have part : Part (namesOf base (batchWhole (d :: rest) d coverage records generic opaqueSub) (Named (d :: rest))) 12000
      (batchWhole (d :: rest) d coverage records generic opaqueSub) :=
    part_batchWhole (fun _ => id) List.mem_cons_self count few known list list'
  refine ⟨?_, batchWhole (d :: rest) d coverage records generic opaqueSub, encoded valid part.sound whole atAlign rfl⟩
  change base.toNat ≤ BitVec.toNat (Writer.address _ base) ∧ BitVec.toNat (Writer.address _ base) ≤ BitVec.toNat (Writer.address _ base) ∧
    BitVec.toNat (Writer.address _ base) ≤ BitVec.toNat (Writer.address _ base)
  rw [address atFront, address atBin, address atAlign, toNat_place proper whole atFront, toNat_place proper whole atBin,
    toNat_place proper whole atAlign]
  have binned := prefix_ends (prefix_front (d :: rest) d coverage records)
  have aligned := prefix_ends (List.prefix_append (batchBin (d :: rest) d coverage records) [.align 64])
  omega

/-- A draw of one triangle whose vertices have 16 numbers. -/
def wrapping : Draw :=
  ⟨64, 64, 256, 0x10000, 0x20000, 0, 0x30000, 0x30100, 0x30200, 0x30300, 0x30400, 0x30500, 0xfffffff0, 64, 3, 0, 0, 0, 0, 16, 7, fun _ => 0,
    true, false, ⟨4, 1, 15, ⟨0, 0, 0, 0⟩, fun i => if i.val % 3 = 0 then 1 else 0, 0, fun _ => 0, ⟨0, 0, 0, 0⟩⟩⟩

/-- The address of its second attribute is that of its vertices and 16, which is 0 in 32 bits. -/
theorem wrapping_attribute :
    (encodeDrawBatch [wrapping] 0x1000 true (fun _ => 0xff) 4096).ok = true ∧ wrapping.vertexAddress.toNat + 16 = 2 ^ 32 ∧
      ((List.range 16).map fun i => (encodeDrawBatch [wrapping] 0x1000 true (fun _ => 0xff) 4096).bytes (112 + i)) =
        [0, 0, 0, 0, 0x98, 0x44, 0, 0, 64, 0, 0, 0, 2, 0, 0, 0] := by
  decide +kernel

end Batches

/-- The encoders stay in their buffer. Where one succeeds, what it leaves is a list whose addresses do not wrap and are those of its
own parts or among what was given. -/
theorem encoders_safe (source d : Draw) (draws : List Draw) (base : BitVec 32) (given : Bool) (b : ℕ → BitVec 8) (capacity : ℕ) :
    (Bounded b capacity (encodeClear d base given b capacity) ∧ ((encodeClear d base given b capacity).ok = true →
      ∃ l, Encoded base capacity (· = d.target) (encodeClear d base given b capacity) l)) ∧
    (Bounded b capacity (encodeCopy source d base given b capacity) ∧ ((encodeCopy source d base given b capacity).ok = true →
      ∃ l, Encoded base capacity (fun a => a = source.target ∨ a = d.target) (encodeCopy source d base given b capacity) l)) ∧
    Bounded b capacity (encodeDrawBatch draws base given b capacity) ∧ ((encodeDrawBatch draws base given b capacity).ok = true →
      Ordered base (encodeDrawBatch draws base given b capacity).out ∧
        ∃ l, Encoded base capacity (Named draws) (encodeDrawBatch draws base given b capacity) l) := by
  have clear := encodeClear_safe d base given b capacity
  have copy := encodeCopy_safe source d base given b capacity
  exact ⟨⟨clear.1, fun ok => ⟨_, clear.2 ok⟩⟩, ⟨copy.1, fun ok => ⟨_, copy.2 ok⟩⟩, encodeDrawBatch_safe draws base given b capacity⟩

end Pi5Drivers.Encode
