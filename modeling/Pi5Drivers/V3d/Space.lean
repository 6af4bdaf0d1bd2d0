import Mathlib.Algebra.BigOperators.Fin
import Pi5Drivers.Lib.Sums
import Pi5Drivers.V3d.Hardware

/-! The address space of a memory session: the objects, the page table and the
placement of a new object between the others. -/

namespace Pi5Drivers.V3d

/-- A buffer in memory: its payload lies between two guard pages. -/
structure Buffer where
  dma : ℕ
  bytes : ℕ
deriving DecidableEq, Repr

/-- The description of locked pages that an import names. -/
structure Mdl where
  pointer : ℕ
  flags : BitVec 32
  byteOffset : ℕ
  byteCount : ℕ
  pages : ℕ → ℕ

structure Object where
  buffer : Option Buffer
  importedMdl : Option Mdl
  handle : ℕ
  address : ℕ
  bytes : ℕ
  flags : BitVec 32

namespace Object

def empty : Object := ⟨none, none, 0, 0, 0, 0⟩

def Live (o : Object) : Prop := o.handle ≠ 0

instance (o : Object) : Decidable o.Live := inferInstanceAs (Decidable (o.handle ≠ 0))

/-- The address of a page of the object in memory. -/
def frame (o : Object) (k : ℕ) : ℕ :=
  match o.importedMdl, o.buffer with
  | some mdl, _ => mdl.pages k * page
  | none, some b => b.dma + page + k * page
  | none, none => 0

def entry (o : Object) (k : ℕ) : BitVec 32 := v3dPte (o.frame k) (o.flags ≠ 0)

/-- The page of the address space is one of the object's. -/
def Covers (o : Object) (k : ℕ) : Prop := o.address / page ≤ k ∧ k < o.address / page + o.bytes / page

instance (o : Object) (k : ℕ) : Decidable (o.Covers k) :=
  inferInstanceAs (Decidable (o.address / page ≤ k ∧ k < o.address / page + o.bytes / page))

end Object

def bufferLimit : ℕ := 256
def bufferMaxBytes : ℕ := 64 * 1024 * 1024
def memoryMaxBytes : ℕ := 256 * 1024 * 1024
def importMaxBytes : ℕ := 256 * 1024 * 1024
def importTotalBytes : ℕ := 512 * 1024 * 1024

/-- Where placement starts, and the end of the addresses it uses. -/
def firstAddress : ℕ := 0x101000
def addressLimit : ℕ := 0xf0000000

structure AddressSpace where
  objects : Fin 256 → Object
  objectSerial : ℕ
  objectBytes : ℕ
  importedBytes : ℕ
  /-- The words of the page table. -/
  table : ℕ → BitVec 32

/-- The slots in the order they are searched. -/
def slots : List (Fin 256) := List.finRange 256

theorem mem_slots (i : Fin 256) : i ∈ slots := List.mem_finRange i

namespace AddressSpace

/-- The object of a handle. -/
def object (a : AddressSpace) (handle : ℕ) : Option (Fin 256) :=
  if handle = 0 then none else slots.find? fun i => (a.objects i).handle = handle

/-- The first slot that holds no object. -/
def vacant (a : AddressSpace) : Option (Fin 256) :=
  slots.find? fun i => (a.objects i).handle = 0

end AddressSpace

/-- A range at the address meets the object, guard pages included. -/
def Object.Meets (o : Object) (address size : ℕ) : Prop :=
  o.Live ∧ address - page < o.address + o.bytes + page ∧ o.address - page < address + size + page

instance (o : Object) (address size : ℕ) : Decidable (o.Meets address size) :=
  inferInstanceAs (Decidable (_ ∧ _ ∧ _))

theorem Object.Meets.ahead {o : Object} {address size : ℕ} (h : o.Meets address size) :
    address < o.address + o.bytes + 2 * page := by
  have := h.2.1
  have : 0 < page := by decide
  omega

namespace AddressSpace

/-- Tries an address, and behind the first object that is in the way the next one. -/
def placeFrom (a : AddressSpace) (size address : ℕ) : Option ℕ :=
  if addressLimit < address + size + page then none
  else
    match h : slots.find? fun i => (a.objects i).Meets address size with
    | none => some address
    | some i => placeFrom a size ((a.objects i).address + (a.objects i).bytes + 2 * page)
termination_by addressLimit - address
decreasing_by
  have meets := List.find?_some h
  have := (of_decide_eq_true meets).ahead
  have : 0 < page := by decide
  omega

/-- A slot and an address for a new object. -/
def objectPlacement (a : AddressSpace) (size : ℕ) : Option (Fin 256 × ℕ) :=
  if a.objectSerial = 2 ^ 32 - 1 then none
  else a.vacant.bind fun i => (a.placeFrom size firstAddress).map fun address => (i, address)

/-- Writes the table entries of a run of pages. -/
def setEntries (table : ℕ → BitVec 32) (first count : ℕ) (entry : ℕ → BitVec 32) (k : ℕ) : BitVec 32 :=
  if first ≤ k ∧ k < first + count then entry (k - first) else table k

/-- The bytes an object counts for among those the driver allocated. -/
def ownBytes (o : Object) : ℕ := if o.Live ∧ o.importedMdl.isNone then o.bytes else 0

/-- The bytes an object counts for among the imported ones. -/
def foreignBytes (o : Object) : ℕ := if o.Live ∧ o.importedMdl.isSome then o.bytes else 0

/-- The new object takes the slot. -/
def insert (a : AddressSpace) (i : Fin 256) (o : Object) : AddressSpace where
  objects := Function.update a.objects i o
  objectSerial := a.objectSerial + 1
  objectBytes := a.objectBytes + ownBytes o
  importedBytes := a.importedBytes + foreignBytes o
  table := setEntries a.table (o.address / page) (o.bytes / page) o.entry

/-- The object leaves the slot. -/
def remove (a : AddressSpace) (i : Fin 256) : AddressSpace where
  objects := Function.update a.objects i Object.empty
  objectSerial := a.objectSerial
  objectBytes := a.objectBytes - ownBytes (a.objects i)
  importedBytes := a.importedBytes - foreignBytes (a.objects i)
  table := setEntries a.table ((a.objects i).address / page) ((a.objects i).bytes / page) fun _ => 0

end AddressSpace

/-! ### What holds of an address space -/

/-- The object has a place, and each page a frame the table can name. -/
structure Object.Placed (o : Object) : Prop where
  first : firstAddress ≤ o.address
  aligned : o.address % page = 0 ∧ o.bytes % page = 0
  size : 0 < o.bytes
  bound : o.address + o.bytes + page ≤ addressLimit
  frames : ∀ k < o.bytes / page, o.frame k % page = 0 ∧ o.frame k < 2 ^ 36
  backing : o.buffer.isSome = o.importedMdl.isNone
  permission : o.flags &&& ~~~1 = 0

namespace AddressSpace

structure Valid (a : AddressSpace) : Prop where
  empty : ∀ i, ¬(a.objects i).Live → a.objects i = Object.empty
  placed : ∀ i, (a.objects i).Live → (a.objects i).Placed
  apart : ∀ i j, i ≠ j → (a.objects i).Live → (a.objects j).Live →
    (a.objects i).address + (a.objects i).bytes + 2 * page ≤ (a.objects j).address ∨
      (a.objects j).address + (a.objects j).bytes + 2 * page ≤ (a.objects i).address
  mapped : ∀ i, (a.objects i).Live → ∀ k < (a.objects i).bytes / page,
    a.table ((a.objects i).address / page + k) = (a.objects i).entry k
  unmapped : ∀ k, (∀ i, (a.objects i).Live → ¬(a.objects i).Covers k) → a.table k = 0
  serial : ∀ i, (a.objects i).handle ≤ a.objectSerial
  unique : ∀ i j, (a.objects i).Live → (a.objects i).handle = (a.objects j).handle → i = j
  objectBytes : a.objectBytes = ∑ i, ownBytes (a.objects i)
  importedBytes : a.importedBytes = ∑ i, foreignBytes (a.objects i)

/-- There is no object. -/
structure Clear (a : AddressSpace) : Prop where
  empty : ∀ i, a.objects i = Object.empty
  objectBytes : a.objectBytes = 0
  importedBytes : a.importedBytes = 0

theorem Clear.valid {a : AddressSpace} (h : a.Clear) (table : ∀ k, a.table k = 0) : a.Valid := by
  have dead (i : Fin 256) : ¬(a.objects i).Live := by simp [h.empty i, Object.empty, Object.Live]
  refine ⟨fun i _ => h.empty i, fun i l => absurd l (dead i), fun i _ _ l => absurd l (dead i),
    fun i l => absurd l (dead i), fun k _ => table k, fun i => ?_, fun i _ l => absurd l (dead i), ?_, ?_⟩
  · simp [h.empty i, Object.empty]
  · simp [h.objectBytes, ownBytes, dead]
  · simp [h.importedBytes, foreignBytes, dead]

/-! ### Placement -/

variable {a : AddressSpace}

/-- A range the placement may return: below the limit, and clear of every object. -/
def Fits (a : AddressSpace) (size address : ℕ) : Prop :=
  address + size + page ≤ addressLimit ∧ ∀ i, ¬(a.objects i).Meets address size

/-- Behind an object that is in the way of an address, the addresses up to the end of
the object and its guard pages are no better. -/
theorem meets_until {o : Object} {size address next : ℕ} (h : o.Meets address size) (le : address ≤ next)
    (lt : next < o.address + o.bytes + 2 * page) : o.Meets next size := by
  obtain ⟨live, low, high⟩ := h
  have : 0 < page := by decide
  exact ⟨live, by omega, by omega⟩

/-- The placement returns the first range that fits, and nothing if none does. -/
theorem placeFrom_spec (a : AddressSpace) (size address : ℕ) :
    match a.placeFrom size address with
    | some found => address ≤ found ∧ a.Fits size found ∧ ∀ x, address ≤ x → x < found → ¬a.Fits size x
    | none => ∀ x, address ≤ x → ¬a.Fits size x := by
  fun_induction placeFrom a size address with
  | case1 address beyond => exact fun x hx fits => by have := fits.1; omega
  | case2 address below clear =>
    refine ⟨le_rfl, ⟨by omega, fun i meets => ?_⟩, fun x hx lt => by omega⟩
    exact List.find?_eq_none.mp clear i (mem_slots i) (decide_eq_true meets)
  | case3 address below i blocked ih =>
    have meets := List.find?_some blocked
    replace meets := of_decide_eq_true meets
    have skip (x : ℕ) (hx : address ≤ x) (lt : x < (a.objects i).address + (a.objects i).bytes + 2 * page) :
        ¬a.Fits size x := fun fits => fits.2 i (meets_until meets hx lt)
    have ahead := meets.ahead
    split
    · next found placed =>
      rw [placed] at ih
      refine ⟨by omega, ih.2.1, fun x hx lt => ?_⟩
      exact (Nat.lt_or_ge x _).elim (skip x hx) fun ge => ih.2.2 x ge lt
    · next placed =>
      rw [placed] at ih
      exact fun x hx => (Nat.lt_or_ge x _).elim (skip x hx) fun ge => ih x ge

/-- The addresses the placement goes through are page addresses. -/
theorem placeFrom_aligned (valid : a.Valid) {size address found : ℕ} (start : address % page = 0)
    (h : a.placeFrom size address = some found) : found % page = 0 := by
  fun_induction placeFrom a size address with
  | case1 address beyond => exact absurd h (by simp)
  | case2 address below clear =>
    cases h
    exact start
  | case3 address below i blocked ih =>
    have meets := List.find?_some blocked
    obtain ⟨first, second⟩ := (valid.placed i (of_decide_eq_true meets).1).aligned
    exact ih (by unfold page at *; omega) h

theorem vacant_none (h : a.vacant = none) (i : Fin 256) : (a.objects i).Live :=
  fun dead => by simpa [dead] using List.find?_eq_none.mp h i (mem_slots i)

theorem vacant_some {i : Fin 256} (h : a.vacant = some i) : ¬(a.objects i).Live := by
  have := List.find?_some h
  simpa [Object.Live] using this

/-- What a placement is worth. -/
structure Room (a : AddressSpace) (size : ℕ) (i : Fin 256) (address : ℕ) : Prop where
  serial : a.objectSerial ≠ 2 ^ 32 - 1
  dead : ¬(a.objects i).Live
  first : firstAddress ≤ address
  aligned : address % page = 0
  fits : a.Fits size address
  least : ∀ x, firstAddress ≤ x → x < address → ¬a.Fits size x

theorem objectPlacement_some (valid : a.Valid) {size : ℕ} {i : Fin 256} {address : ℕ}
    (h : a.objectPlacement size = some (i, address)) : a.Room size i address := by
  unfold objectPlacement at h
  split at h
  · exact absurd h (by simp)
  · next serial =>
    simp only [Option.bind_eq_some_iff, Option.map_eq_some_iff, Prod.mk.injEq] at h
    obtain ⟨j, vacant, x, placed, rfl, rfl⟩ := h
    have spec := a.placeFrom_spec size firstAddress
    rw [placed] at spec
    exact ⟨serial, vacant_some vacant, spec.1, placeFrom_aligned valid (by decide) placed, spec.2.1, spec.2.2⟩

/-- A placement fails when the serial numbers or the slots are used up, or no range fits. -/
theorem objectPlacement_none {size : ℕ} (h : a.objectPlacement size = none) :
    a.objectSerial = 2 ^ 32 - 1 ∨ (∀ i, (a.objects i).Live) ∨ ∀ x, firstAddress ≤ x → ¬a.Fits size x := by
  unfold objectPlacement at h
  split at h
  · exact .inl ‹_›
  · rcases vacant : a.vacant with _ | i
    · exact .inr (.inl (vacant_none vacant))
    · have spec := a.placeFrom_spec size firstAddress
      rcases placed : a.placeFrom size firstAddress with _ | x
      · exact .inr (.inr (by rwa [placed] at spec))
      · simp [vacant, placed] at h

theorem object_some {handle : ℕ} {i : Fin 256} (h : a.object handle = some i) :
    (a.objects i).Live ∧ (a.objects i).handle = handle := by
  unfold object at h
  split at h
  · exact absurd h (by simp)
  · next nonzero =>
    have := List.find?_some h
    simp only [decide_eq_true_eq] at this
    exact ⟨by rw [Object.Live, this]; exact nonzero, this⟩

/-! ### Coming and going -/

/-- Two objects with guard pages between them share no page. -/
theorem not_covers {o p : Object} (ho : o.Placed) (hp : p.Placed)
    (apart : o.address + o.bytes + 2 * page ≤ p.address ∨ p.address + p.bytes + 2 * page ≤ o.address) {k : ℕ}
    (h : o.Covers k) : ¬p.Covers k := by
  intro h'
  obtain ⟨h₁, h₂⟩ := h
  obtain ⟨h₃, h₄⟩ := h'
  have := ho.aligned
  have := hp.aligned
  unfold page at *
  omega

theorem setEntries_of_not_covers {o : Object} {table entry : ℕ → BitVec 32} {k : ℕ} (h : ¬o.Covers k) :
    setEntries table (o.address / page) (o.bytes / page) entry k = table k :=
  if_neg h

/-- A range that fits is apart from every object. -/
theorem Room.apart {size address : ℕ} {i j : Fin 256} (room : a.Room size i address) (valid : a.Valid)
    (live : (a.objects j).Live) :
    address + size + 2 * page ≤ (a.objects j).address ∨
      (a.objects j).address + (a.objects j).bytes + 2 * page ≤ address := by
  have clear := room.fits.2 j
  simp only [Object.Meets, live, true_and] at clear
  have := room.first
  have := (valid.placed j live).first
  unfold page firstAddress at *
  omega

/-- A new object in a vacant slot at a place that fits it. -/
theorem Valid.insert {i : Fin 256} {o : Object} (valid : a.Valid) (room : a.Room o.bytes i o.address)
    (placed : o.Placed) (handle : o.handle = a.objectSerial + 1) : (a.insert i o).Valid := by
  have live : o.Live := by rw [Object.Live, handle]; omega
  have apart (j : Fin 256) (hj : (a.objects j).Live) := room.apart valid hj
  have none : ownBytes (a.objects i) = 0 ∧ foreignBytes (a.objects i) = 0 := by
    simp [ownBytes, foreignBytes, room.dead]
  constructor
  case empty =>
    intro j dead
    by_cases h : j = i
    · subst h
      simp [AddressSpace.insert, live] at dead
    · simp only [AddressSpace.insert, Function.update_of_ne h] at dead ⊢
      exact valid.empty j dead
  case placed =>
    intro j hj
    by_cases h : j = i
    · subst h
      simpa [AddressSpace.insert] using placed
    · simp only [AddressSpace.insert, Function.update_of_ne h] at hj ⊢
      exact valid.placed j hj
  case apart =>
    intro j l ne hj hl
    by_cases h : j = i
    · subst h
      simp only [AddressSpace.insert, Function.update_self, Function.update_of_ne ne.symm] at hl ⊢
      exact apart l hl
    · by_cases h' : l = i
      · subst h'
        simp only [AddressSpace.insert, Function.update_self, Function.update_of_ne h] at hj ⊢
        exact (apart j hj).symm
      · simp only [AddressSpace.insert, Function.update_of_ne h, Function.update_of_ne h'] at hj hl ⊢
        exact valid.apart j l ne hj hl
  case mapped =>
    intro j hj k hk
    by_cases h : j = i
    · subst h
      simp only [AddressSpace.insert, Function.update_self] at hk ⊢
      rw [setEntries, if_pos (by omega)]
      congr 1
      omega
    · simp only [AddressSpace.insert, Function.update_of_ne h] at hj hk ⊢
      have inside : (a.objects j).Covers ((a.objects j).address / page + k) := ⟨by omega, by omega⟩
      rw [setEntries_of_not_covers (not_covers (valid.placed j hj) placed (apart j hj).symm inside)]
      exact valid.mapped j hj k hk
  case unmapped =>
    intro k outside
    have away : ¬o.Covers k := by simpa [AddressSpace.insert] using outside i (by simpa [AddressSpace.insert] using live)
    simp only [AddressSpace.insert]
    rw [setEntries_of_not_covers away]
    refine valid.unmapped k fun j hj => ?_
    have h : j ≠ i := fun h => room.dead (h ▸ hj)
    simpa [AddressSpace.insert, Function.update_of_ne h] using
      outside j (by simpa [AddressSpace.insert, Function.update_of_ne h] using hj)
  case serial =>
    intro j
    by_cases h : j = i
    · subst h
      simp [AddressSpace.insert, handle]
    · simpa [AddressSpace.insert, Function.update_of_ne h] using (valid.serial j).trans (Nat.le_succ _)
  case unique =>
    intro j l hj same
    have below := valid.serial
    by_cases h : j = i <;> by_cases h' : l = i
    · rw [h, h']
    · simp only [AddressSpace.insert, h, Function.update_self, Function.update_of_ne h', handle] at same
      have := below l
      omega
    · simp only [AddressSpace.insert, h', Function.update_self, Function.update_of_ne h, handle] at same
      have := below j
      omega
    · simp only [AddressSpace.insert, Function.update_of_ne h, Function.update_of_ne h'] at hj same
      exact valid.unique j l hj same
  case objectBytes =>
    have := sum_update ownBytes a.objects i o
    simp only [AddressSpace.insert, valid.objectBytes]
    omega
  case importedBytes =>
    have := sum_update foreignBytes a.objects i o
    simp only [AddressSpace.insert, valid.importedBytes]
    omega

/-- An object that goes. -/
theorem Valid.remove {i : Fin 256} (valid : a.Valid) (live : (a.objects i).Live) : (a.remove i).Valid := by
  have dead : ¬(Object.empty).Live := by simp [Object.empty, Object.Live]
  have other {j : Fin 256} (hj : ((a.remove i).objects j).Live) : j ≠ i := by
    rintro rfl
    simp [AddressSpace.remove, dead] at hj
  have same {j : Fin 256} (h : j ≠ i) : (a.remove i).objects j = a.objects j := Function.update_of_ne h _ _
  have none : ownBytes Object.empty = 0 ∧ foreignBytes Object.empty = 0 := by simp [ownBytes, foreignBytes, dead]
  constructor
  case empty =>
    intro j hj
    by_cases h : j = i
    · subst h
      simp [AddressSpace.remove]
    · rw [same h] at hj ⊢
      exact valid.empty j hj
  case placed =>
    intro j hj
    have h := other hj
    rw [same h] at hj ⊢
    exact valid.placed j hj
  case apart =>
    intro j l ne hj hl
    have h := other hj
    have h' := other hl
    rw [same h] at hj ⊢
    rw [same h'] at hl ⊢
    exact valid.apart j l ne hj hl
  case mapped =>
    intro j hj k hk
    have h := other hj
    rw [same h] at hj hk ⊢
    simp only [AddressSpace.remove]
    have inside : (a.objects j).Covers ((a.objects j).address / page + k) := ⟨by omega, by omega⟩
    have away := not_covers (valid.placed j hj) (valid.placed i live) (valid.apart j i h hj live) inside
    rw [setEntries_of_not_covers away]
    exact valid.mapped j hj k hk
  case unmapped =>
    intro k outside
    simp only [AddressSpace.remove, setEntries]
    split_ifs with inside
    · rfl
    · refine valid.unmapped k fun j hj => ?_
      by_cases h : j = i
      · exact h ▸ inside
      · rw [← same h] at hj ⊢
        exact outside j hj
  case serial =>
    intro j
    by_cases h : j = i
    · subst h
      simp [AddressSpace.remove, Object.empty]
    · rw [same h]
      exact valid.serial j
  case unique =>
    intro j l hj eq
    have h := other hj
    rw [same h] at hj eq
    by_cases h' : l = i
    · subst h'
      simp only [AddressSpace.remove, Function.update_self, Object.empty] at eq
      exact absurd eq hj
    · rw [same h'] at eq
      exact valid.unique j l hj eq
  case objectBytes =>
    have := sum_update ownBytes a.objects i Object.empty
    simp only [AddressSpace.remove, valid.objectBytes]
    omega
  case importedBytes =>
    have := sum_update foreignBytes a.objects i Object.empty
    simp only [AddressSpace.remove, valid.importedBytes]
    omega

end AddressSpace

end Pi5Drivers.V3d
