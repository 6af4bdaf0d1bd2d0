import Mathlib.Data.Set.Lattice
import Pi5Drivers.Gpu.Present

/-! What the worker paints. The sub-rectangles of an accepted packet lie in the destination rectangle and
in the destination, and a copy has a source rectangle of the same size in the source; so a byte of the
destination that is painted gets the byte of the color or of the source that the picture has there,
however often it is painted. -/

namespace Pi5Drivers.Gpu.Present

open Effect Recorded

/-- The bytes of an allocation. -/
def Reference.Holds (r : Reference) (offset bytes : ℕ) : Prop :=
  ∃ o, r.offset = some o ∧ o ≤ offset ∧ offset + bytes ≤ o + r.info.bytes

def sourceOf : List Reference → Option Reference
  | [src, _] => some src
  | _ => none

def destinationOf : List Reference → Option Reference
  | [dst] => some dst
  | [_, dst] => some dst
  | _ => none

/-- The worker reads the source and writes the destination. -/
def Allows (refs : List Reference) : Event → Prop
  | .read offset bytes => ∃ src, sourceOf refs = some src ∧ src.Holds offset bytes
  | .wrote offset bytes => ∃ dst, destinationOf refs = some dst ∧ dst.Holds offset bytes

def reader (refs : List Reference) : Observer Event Unit where
  init := ()
  saw := fun _ _ => ()
  Allows := fun _ => Allows refs

/-! ### Accepted packets -/

section Accepted

variable {a : Adapter} {device : ℕ} {p : Packet} {d : Dma} {list : Option (List Entry)} {refs : List Reference} {r : Reference}
  {entry : Option Entry}

/-- A reference to a resident surface. -/
structure Placed (r : Reference) (offset : ℕ) : Prop where
  offset : r.offset = some offset
  surface : r.info.Surface
  rows : r.info.height * r.info.pitch ≤ r.info.bytes

theorem rows_of_validateAllocation {info : AllocationInfo} (h : validateAllocation info = true) :
    info.height * info.pitch ≤ info.bytes := by
  unfold validateAllocation at h
  split at h
  · cases h
  · split at h
    · cases h
    · split at h
      · cases h
      · split at h
        · cases h
        · omega

theorem placed_of_reference {write : Bool} (h : reference a device write true entry = .ok r) : ∃ offset, Placed r offset := by
  unfold reference at h
  rcases entry with _ | ⟨_ | ⟨_ | allocation, owner, readOnly⟩, segmentId, address⟩
  · cases h
  · cases h
  · cases h
  · dsimp only at h
    split at h
    · cases h
    rename_i owned
    split at h
    · cases h
    rename_i valid
    split at h
    · cases h
    cases h
    have resident : segmentId = 1 := by
      by_contra no
      exact owned (.inr (.inr (.inr (.inr ⟨rfl, no⟩))))
    have accepted : validateAllocation allocation.info = true := by
      by_contra no
      exact valid (.inl (Bool.eq_false_iff.mpr no))
    have surface : allocation.info.dimension = 3 := by
      by_contra no
      exact valid (.inr (.inl no))
    exact ⟨address, if_pos resident, surface_of_validateAllocation accepted surface, rows_of_validateAllocation accepted⟩

theorem of_references_succ {f : ℕ → Except Status Reference} {n : ℕ} (h : references f (n + 1) = .ok refs) :
    ∃ first last, references f n = .ok first ∧ f n = .ok last ∧ refs = first ++ [last] := by
  obtain ⟨first, before, h⟩ := of_bind h
  obtain ⟨last, here, h⟩ := of_bind h
  cases h
  exact ⟨first, last, before, here, rfl⟩

theorem parts_of_all {info : AllocationInfo} {b : Unit}
    (h : (if p.rects.all (·.part p.destination info) then Except.ok () else .error Status.invalidParameter) = .ok b) :
    ∀ r ∈ p.rects, r.part p.destination info = true := by
  split at h
  · exact List.all_eq_true.mp ‹_›
  · cases h

/-- The copy of a packet that is no fill: its two allocations, and where they are. -/
structure Copies (p : Packet) (refs : List Reference) (src dst : Reference) (from' to' : ℕ) : Prop where
  refs : refs = [src, dst]
  source : Placed src from'
  destination : Placed dst to'
  apart : from' + src.info.bytes ≤ to' ∨ to' + dst.info.bytes ≤ from'
  inside : p.source.inside src.info = true
  width : p.source.right - p.source.left = p.destination.right - p.destination.left
  height : p.source.bottom - p.source.top = p.destination.bottom - p.destination.top
  parts : ∀ r ∈ p.rects, r.part p.destination dst.info = true

/-- The fill of a packet. -/
structure Fills (p : Packet) (refs : List Reference) (dst : Reference) (to' : ℕ) : Prop where
  refs : refs = [dst]
  destination : Placed dst to'
  parts : ∀ r ∈ p.rects, r.part p.destination dst.info = true

theorem accepted_cases (h : presentReferences a device p d list true = .ok refs) (noFlip : p.flip = false) :
    (p.fill = true ∧ ∃ dst to', Fills p refs dst to') ∨ (p.fill = false ∧ ∃ src dst from' to', Copies p refs src dst from' to') := by
  unfold presentReferences at h
  split at h
  · cases h
  rename_i entries
  obtain ⟨matched, h⟩ := of_check h
  obtain ⟨-, count⟩ := not_or.mp matched
  obtain ⟨refs', collected, h⟩ := of_bind h
  obtain ⟨_, accepted, h⟩ := of_bind h
  cases h
  rw [not_not.mp count, noFlip, Bool.or_false] at collected
  cases kind : p.fill with
  | true =>
    rw [kind, if_pos rfl] at collected
    obtain ⟨_, dst, none, one, rfl⟩ := of_references_succ collected
    cases none
    obtain ⟨to', placed⟩ := placed_of_reference one
    change (if p.flip then .ok () else fits p [dst]) = _ at accepted
    rw [noFlip, if_neg Bool.false_ne_true] at accepted
    exact .inl ⟨rfl, dst, to', rfl, placed, parts_of_all accepted⟩
  | false =>
    rw [kind, if_neg Bool.false_ne_true] at collected
    obtain ⟨_, dst, first, two, rfl⟩ := of_references_succ collected
    obtain ⟨_, src, none, one, rfl⟩ := of_references_succ first
    cases none
    obtain ⟨from', source⟩ := placed_of_reference one
    obtain ⟨to', destination⟩ := placed_of_reference two
    rw [List.nil_append, List.singleton_append, refused, noFlip] at accepted
    obtain ⟨apart, accepted⟩ := of_check accepted
    rw [if_neg Bool.false_ne_true] at accepted
    obtain ⟨same, accepted⟩ := of_check accepted
    refine .inr ⟨rfl, src, dst, from', to', rfl, source, destination, ?_, ?_, ?_, ?_, parts_of_all accepted⟩
    · unfold Reference.overlap at apart
      rw [source.offset, destination.offset] at apart
      have apart := of_decide_eq_false (Bool.eq_false_iff.mpr apart)
      omega
    · by_contra no
      exact same (.inl (Bool.eq_false_iff.mpr no))
    · by_contra no
      exact same (.inr (.inl no))
    · by_contra no
      exact same (.inr (.inr no))

end Accepted

/-! ### What is painted -/

section Painting

variable {refs : List Reference} {picture before : Memory} {limits : Set ℕ} {E : Status → Context → Prop}

/-- Some addresses of the destination are painted. -/
abbrev Painting (refs : List Reference) (picture before : Memory) (limits done : Set ℕ) : Context → Prop :=
  Assert (reader refs) fun m _ => Painted picture done before m ∧ done ⊆ limits

theorem store_rule {offset : ℕ} {b : List (BitVec 8)} (allowed : Allows refs (.wrote offset b.length))
    (same : ∀ k < b.length, b.getD k 0 = picture (offset + k)) (inside : stretch offset b.length ⊆ limits) (done : Set ℕ) :
    Triple (Painting refs picture before limits done) (store offset b)
      (fun _ => Painting refs picture before limits (done ∪ stretch offset b.length)) E := by
  refine Triple.bind (record_rule (B := fun m _ => Painted picture done before m ∧ done ⊆ limits) _ (fun _ _ _ => allowed) fun _ _ h => h)
    fun _ => change_rule _ fun m _ h => ?_
  exact ⟨h.1.put same, Set.union_subset h.2 inside⟩

/-- What is loaded from outside the destination is what was there before. -/
theorem load_rule {offset n : ℕ} (allowed : Allows refs (.read offset n)) (outside : Disjoint (stretch offset n) limits)
    (done : Set ℕ) :
    Triple (Painting refs picture before limits done) (load offset n)
      (fun bytes c => bytes = before.bytesAt offset n ∧ Painting refs picture before limits done c) E := by
  refine Triple.bind (record_rule (B := fun m _ => Painted picture done before m ∧ done ⊆ limits) _ (fun _ _ _ => allowed) fun _ _ h => h)
    fun _ => look_rule fun m => Triple.pure fun c hc => ⟨?_, hc.mono fun _ _ h => h.2⟩
  obtain ⟨-, rfl, painted, small⟩ := hc
  refine List.map_congr_left fun i hi => painted.outside i fun done => ?_
  exact Set.disjoint_left.mp outside (List.mem_range'_1.mp hi) (small done)

/-- Stretches of some length behind each other are painted one after the other. -/
theorem units_rule {unit count start : ℕ} {f : ℕ → Drive Unit} (pos : 0 < unit)
    (round : ∀ i < count, ∀ done, Triple (Painting refs picture before limits done) (f i)
      (fun _ => Painting refs picture before limits (done ∪ stretch (start + i * unit) unit)) E) (done : Set ℕ) :
    Triple (Painting refs picture before limits done) (each f (List.range count))
      (fun _ => Painting refs picture before limits (done ∪ stretch start (unit * count))) E := by
  have grown := Triple.each_grow (l := List.range count) (R := fun i => stretch (start + i * unit) unit)
    (fun i hi => round i (List.mem_range.mp hi)) done
  have whole := stretch_units (a := start) pos (Dvd.intro count rfl)
  rw [Nat.mul_div_cancel_left _ pos] at whole
  rwa [whole] at grown

theorem length_colorBytes (color : BitVec 32) : (colorBytes color).length = 4 := rfl

theorem stretch_subset {a n b m : ℕ} (low : b ≤ a) (high : a + n ≤ b + m) : stretch a n ⊆ stretch b m :=
  fun _ hi => ⟨Nat.le_trans low hi.1, Nat.lt_of_lt_of_le hi.2 high⟩

theorem fillRow_rule {row pixels : ℕ} {color : BitVec 32} {to' : ℕ} {dst : Reference} (target : destinationOf refs = some dst)
    (offset : dst.offset = some to') (low : to' ≤ row) (high : row + 4 * pixels ≤ to' + dst.info.bytes)
    (same : ∀ i < pixels, ∀ k < 4, (colorBytes color).getD k 0 = picture (row + i * 4 + k)) (done : Set ℕ) :
    Triple (Painting refs picture before (stretch to' dst.info.bytes) done) (fillRow row pixels color)
      (fun _ => Painting refs picture before (stretch to' dst.info.bytes) (done ∪ stretch row (4 * pixels))) E := by
  refine units_rule (by decide) (fun i hi done => ?_) done
  exact store_rule (b := colorBytes color) ⟨dst, target, to', offset, by rw [length_colorBytes]; omega⟩ (same i hi)
    (stretch_subset (by omega) (by rw [length_colorBytes]; omega)) done

theorem copy_rule {a : Adapter} {row input bytes : ℕ} {from' to' : ℕ} {src dst : Reference}
    (origin : sourceOf refs = some src) (target : destinationOf refs = some dst) (offset : src.offset = some from')
    (offset' : dst.offset = some to') (apart : from' + src.info.bytes ≤ to' ∨ to' + dst.info.bytes ≤ from')
    (low : to' ≤ row) (high : row + bytes ≤ to' + dst.info.bytes) (low' : from' ≤ input) (high' : input + bytes ≤ from' + src.info.bytes)
    (same : ∀ k < bytes, before (input + k) = picture (row + k)) (done : Set ℕ) :
    Triple (Painting refs picture before (stretch to' dst.info.bytes) done) (copyGraphicsMemory a row input bytes)
      (fun _ => Painting refs picture before (stretch to' dst.info.bytes) (done ∪ stretch row bytes)) E := by
  have unit : 0 < copyUnit a row input bytes ∧ copyUnit a row input bytes ∣ bytes := by
    unfold copyUnit
    split
    · exact ⟨by decide, Nat.dvd_of_mod_eq_zero (by omega)⟩
    · exact ⟨by decide, Nat.one_dvd _⟩
  unfold copyGraphicsMemory
  dsimp only
  generalize copyUnit a row input bytes = unit at *
  obtain ⟨pos, count, rfl⟩ := unit
  rw [Nat.mul_div_cancel_left _ pos]
  refine units_rule pos (fun i hi done => ?_) done
  have within : i * unit + unit ≤ unit * count := by
    rw [← Nat.succ_mul, Nat.mul_comm unit]
    exact Nat.mul_le_mul_right _ hi
  refine Triple.bind (load_rule ⟨src, origin, from', offset, ?_⟩ ?_ done) fun bytes => Triple.assume fun loaded => ?_
  · omega
  · refine Set.disjoint_left.mpr fun k ⟨_, _⟩ ⟨_, _⟩ => ?_
    omega
  · have length : bytes.length = unit := by rw [loaded, length_bytesAt]
    have stored : Triple (Painting refs picture before (stretch to' dst.info.bytes) done) (store (row + i * unit) bytes)
        (fun _ => Painting refs picture before (stretch to' dst.info.bytes) (done ∪ stretch (row + i * unit) bytes.length)) E :=
      store_rule ⟨dst, target, to', offset', by omega⟩ (fun k hk => ?_) (stretch_subset (by omega) (by omega)) done
    · rwa [length] at stored
    · rw [loaded, getD_bytesAt _ (by omega), Nat.add_assoc, Nat.add_assoc]
      exact same _ (by omega)

end Painting

/-! ### Where the pixels are -/

section Pixels

variable {info : AllocationInfo} {destination r : Rect} {y : ℤ} {offset x k n : ℕ}

theorem sizeT_natCast (h : n ≤ 4096) : sizeT n = n := by
  unfold sizeT
  omega

/-- A row of a sub-rectangle: `n` pixels from column `x` of row `k` of the destination. -/
structure RowOf (destination r : Rect) (info : AllocationInfo) (y : ℤ) (x k n : ℕ) : Prop where
  left : r.left = x
  right : r.right = x + n
  row : y = k
  wide : x + n ≤ info.width
  high : k < info.height
  part : destination.left ≤ x ∧ destination.top ≤ k ∧ (x + n : ℤ) ≤ destination.right ∧ k < destination.bottom

theorem mem_rows : y ∈ r.rows ↔ r.top ≤ y ∧ y < r.bottom := by
  unfold Rect.rows
  rw [List.mem_map]
  constructor
  · rintro ⟨j, hj, rfl⟩
    have := List.mem_range.mp hj
    omega
  · rintro ⟨low, high⟩
    exact ⟨(y - r.top).toNat, List.mem_range.mpr (by omega), by omega⟩

theorem row_of_part (part : r.part destination info = true) (hy : y ∈ r.rows) : ∃ x k n, RowOf destination r info y x k n := by
  obtain ⟨low, high⟩ := mem_rows.mp hy
  obtain ⟨inside, left, top, right, bottom⟩ := of_decide_eq_true part
  obtain ⟨left', top', ordered, ordered', right', bottom'⟩ := of_decide_eq_true inside
  exact ⟨r.left.toNat, y.toNat, (r.right - r.left).toNat, by omega, by omega, by omega, by omega, by omega,
    by omega, by omega, by omega, by omega⟩

theorem RowOf.rowAt_eq (row : RowOf destination r info y x k n) (surface : info.Surface) :
    rowAt offset info r y = offset + k * info.pitch + x * 4 := by
  have := surface.width_le
  have := surface.height_le
  have := row.wide
  have := row.high
  rw [rowAt, row.row, row.left, sizeT_natCast (by omega), sizeT_natCast (by omega)]

theorem RowOf.count (row : RowOf destination r info y x k n) : (r.right - r.left).toNat = n := by
  rw [row.right, row.left, add_sub_cancel_left, Int.toNat_natCast]

/-- The pixels of a row are inside the surface. -/
theorem row_inside (surface : info.Surface) (rows : info.height * info.pitch ≤ info.bytes) (wide : x + n ≤ info.width)
    (high : k < info.height) : k * info.pitch + x * 4 + 4 * n ≤ info.bytes := by
  have row := Nat.mul_le_mul_right info.pitch (Nat.succ_le_of_lt high)
  rw [Nat.succ_mul] at row
  have := surface.pitch_le
  omega

theorem row_and_column {pitch c : ℕ} (hc : c < pitch) : (k * pitch + c) / pitch = k ∧ (k * pitch + c) % pitch = c := by
  rw [Nat.add_comm, Nat.add_mul_div_right _ _ (by omega), Nat.add_mul_mod_self_right, Nat.div_eq_of_lt hc, Nat.mod_eq_of_lt hc]
  exact ⟨Nat.zero_add k, rfl⟩

end Pixels

/-! ### The picture -/

section Picture

variable {a : Adapter} {p : Packet} {refs : List Reference} {src dst : Reference} {before : Memory} {from' to' x k c : ℕ}
  {E : Status → Context → Prop} {r : Rect} {y : ℤ}

/-- The color everywhere. -/
def fillPicture (p : Packet) (dst : Reference) (to' : ℕ) : Memory := fun i =>
  (colorBytes p.color).getD ((i - to') % dst.info.pitch % 4) 0

/-- The source, with its corner on the corner of the destination rectangle. -/
def copyPicture (p : Packet) (src dst : Reference) (from' to' : ℕ) (before : Memory) : Memory := fun i =>
  before (from' + (p.source.top + ((i - to') / dst.info.pitch : ℕ) - p.destination.top).toNat * src.info.pitch +
    (4 * p.source.left + ((i - to') % dst.info.pitch : ℕ) - 4 * p.destination.left).toNat)

theorem fillPicture_at (hc : x * 4 + c < dst.info.pitch) :
    fillPicture p dst to' (to' + k * dst.info.pitch + x * 4 + c) = (colorBytes p.color).getD (c % 4) 0 := by
  rw [fillPicture, show to' + k * dst.info.pitch + x * 4 + c - to' = k * dst.info.pitch + (x * 4 + c) by omega, (row_and_column hc).2,
    Nat.add_comm, Nat.add_mul_mod_self_right]

theorem copyPicture_at {x' k' : ℕ} (hx : p.source.left + (x - p.destination.left) = x') (hk : p.source.top + (k - p.destination.top) = k')
    (hc : x * 4 + c < dst.info.pitch) :
    copyPicture p src dst from' to' before (to' + k * dst.info.pitch + x * 4 + c) = before (from' + k' * src.info.pitch + x' * 4 + c) := by
  obtain ⟨row, column⟩ := row_and_column (k := k) hc
  rw [copyPicture, show to' + k * dst.info.pitch + x * 4 + c - to' = k * dst.info.pitch + (x * 4 + c) by omega, row, column, add_sub_assoc,
    hk, Int.toNat_natCast, show 4 * p.source.left + ((x * 4 + c : ℕ) : ℤ) - 4 * p.destination.left = ((x' * 4 + c : ℕ) : ℤ) by omega,
    Int.toNat_natCast, Nat.add_assoc _ (x' * 4)]

/-- Where the pixels of a copy come from. -/
theorem Copies.origin (h : Copies p refs src dst from' to') {n : ℕ} (left : p.destination.left ≤ x) (top : p.destination.top ≤ k)
    (right : (x + n : ℤ) ≤ p.destination.right) (bottom : k < p.destination.bottom) :
    ∃ x' k' : ℕ, p.source.left + (x - p.destination.left) = x' ∧ p.source.top + (k - p.destination.top) = k' ∧
      x' + n ≤ src.info.width ∧ k' < src.info.height := by
  obtain ⟨left', top', ordered, ordered', right', bottom'⟩ := of_decide_eq_true h.inside
  have width := h.width
  have height := h.height
  exact ⟨(p.source.left + (x - p.destination.left)).toNat, (p.source.top + (k - p.destination.top)).toNat,
    by omega, by omega, by omega, by omega⟩

theorem fill_row_rule (h : Fills p refs dst to') (hr : r ∈ p.rects) (hy : y ∈ r.rows) (done : Set ℕ) :
    Triple (Painting refs (fillPicture p dst to') before (stretch to' dst.info.bytes) done) (paintRow a p refs r y)
      (fun _ => Painting refs (fillPicture p dst to') before (stretch to' dst.info.bytes)
        (done ∪ stretch (rowAt to' dst.info r y) (4 * (r.right - r.left).toNat))) E := by
  obtain ⟨x, k, n, row⟩ := row_of_part (h.parts r hr) hy
  have surface := h.destination.surface
  have inside := row_inside surface h.destination.rows row.wide row.high
  have wide := surface.pitch_le
  have wide' := row.wide
  unfold paintRow
  rw [h.refs]
  dsimp only
  rw [h.destination.offset, Option.getD_some, row.count, row.rowAt_eq surface]
  refine fillRow_rule rfl h.destination.offset (by omega) (by omega) (fun i hi c hc => ?_) done
  rw [Nat.add_assoc (_ + x * 4), fillPicture_at (by omega), Nat.add_comm (i * 4), Nat.add_mul_mod_self_right, Nat.mod_eq_of_lt hc]

theorem copy_row_rule (h : Copies p refs src dst from' to') (hr : r ∈ p.rects) (hy : y ∈ r.rows) (done : Set ℕ) :
    Triple (Painting refs (copyPicture p src dst from' to' before) before (stretch to' dst.info.bytes) done) (paintRow a p refs r y)
      (fun _ => Painting refs (copyPicture p src dst from' to' before) before (stretch to' dst.info.bytes)
        (done ∪ stretch (rowAt to' dst.info r y) (4 * (r.right - r.left).toNat))) E := by
  obtain ⟨x, k, n, row⟩ := row_of_part (h.parts r hr) hy
  obtain ⟨left, top, right, bottom⟩ := row.part
  obtain ⟨x', k', hx, hk, wide', high'⟩ := h.origin left top right bottom
  have surface := h.destination.surface
  have surface' := h.source.surface
  have inside := row_inside surface h.destination.rows row.wide row.high
  have inside' := row_inside surface' h.source.rows wide' high'
  have input : inputAt p from' src.info r y = from' + k' * src.info.pitch + x' * 4 := by
    have := surface'.width_le
    have := surface'.height_le
    rw [inputAt, row.row, row.left, add_sub_assoc, add_sub_assoc, hk, hx, sizeT_natCast (by omega), sizeT_natCast (by omega)]
  have size : sizeT (r.right - r.left) * 4 = 4 * n := by
    have := surface.width_le
    have := row.wide
    rw [row.right, row.left, add_sub_cancel_left, sizeT_natCast (by omega), Nat.mul_comm]
  have wide := surface.pitch_le
  have wide'' := row.wide
  unfold paintRow
  rw [h.refs]
  dsimp only
  rw [h.destination.offset, h.source.offset, Option.getD_some, Option.getD_some, row.count, row.rowAt_eq surface, input, size]
  refine copy_rule (show sourceOf [src, dst] = some src from rfl) (show destinationOf [src, dst] = some dst from rfl)
    h.source.offset h.destination.offset h.apart (by omega) (by omega) (by omega) (by omega)
    (fun c hc => ?_) done
  exact (copyPicture_at hx hk (by omega)).symm

end Picture

/-! ### Blits -/

/-- A pixel of some sub-rectangle. -/
def Packet.Covers (p : Packet) (x y : ℤ) : Prop := ∃ r ∈ p.rects, r.left ≤ x ∧ x < r.right ∧ r.top ≤ y ∧ y < r.bottom

/-- Where a resident allocation has a pixel. -/
def Reference.pixelAt (r : Reference) (x y : ℤ) : ℕ := r.offset.getD 0 + y.toNat * r.info.pitch + x.toNat * 4

/-- The pixel of the source that a pixel of the destination comes from. -/
def Packet.origin (p : Packet) (x y : ℤ) : ℤ × ℤ := (p.source.left + (x - p.destination.left), p.source.top + (y - p.destination.top))

/-- What a pixel of the destination becomes. -/
def Packet.pixel (p : Packet) (refs : List Reference) (m : Memory) (x y : ℤ) : List (BitVec 8) :=
  match sourceOf refs with
  | some src => m.bytesAt (src.pixelAt (p.origin x y).1 (p.origin x y).2) 4
  | none => colorBytes p.color

/-- The sub-rectangles are painted, with pixels of the source if there is one, and the rest of memory is as before. -/
structure Blitted (p : Packet) (refs : List Reference) (dst : Reference) (before after : Memory) : Prop where
  inside : ∀ x y, p.Covers x y → dst.Holds (dst.pixelAt x y) 4
  origin : ∀ src, sourceOf refs = some src → ∀ x y, p.Covers x y →
    p.source.left ≤ (p.origin x y).1 ∧ (p.origin x y).1 < p.source.right ∧ p.source.top ≤ (p.origin x y).2 ∧
      (p.origin x y).2 < p.source.bottom ∧ src.Holds (src.pixelAt (p.origin x y).1 (p.origin x y).2) 4
  painted : ∀ x y, p.Covers x y → after.bytesAt (dst.pixelAt x y) 4 = p.pixel refs before x y
  kept : ∀ i, (∀ x y, p.Covers x y → i ∉ stretch (dst.pixelAt x y) 4) → after i = before i

/-- A blit that is done, over the memory that it started with. -/
def Done (p : Packet) (refs : List Reference) (m : Memory) (c : Context) : Prop :=
  (reader refs).InOrder c.trace ∧ ∃ dst, destinationOf refs = some dst ∧ Blitted p refs dst m c.state

section Blits

variable {a : Adapter} {p : Packet} {refs : List Reference} {src dst : Reference} {before after : Memory} {from' to' : ℕ}
  {E : Status → Context → Prop} {x y : ℤ}

/-- The bytes of the sub-rectangles. -/
def region (p : Packet) (dst : Reference) (to' : ℕ) : Set ℕ :=
  { i | ∃ r ∈ p.rects, i ∈ { i | ∃ y ∈ r.rows, i ∈ stretch (rowAt to' dst.info r y) (4 * (r.right - r.left).toNat) } }

/-- A pixel in natural numbers. -/
theorem covered_pixel (placed : Placed dst to') (parts : ∀ r ∈ p.rects, r.part p.destination dst.info = true) (h : p.Covers x y) :
    ∃ x' k : ℕ, x = x' ∧ y = k ∧ x' + 1 ≤ dst.info.width ∧ k < dst.info.height ∧ p.destination.left ≤ x ∧ p.destination.top ≤ y ∧
      x < p.destination.right ∧ y < p.destination.bottom ∧ dst.pixelAt x y = to' + k * dst.info.pitch + x' * 4 ∧
      stretch (dst.pixelAt x y) 4 ⊆ region p dst to' := by
  obtain ⟨r, hr, left, right, top, bottom⟩ := h
  obtain ⟨x₀, k, n, row⟩ := row_of_part (parts r hr) (mem_rows.mpr ⟨top, bottom⟩)
  obtain ⟨left', top', right', bottom'⟩ := row.part
  have here := row.row
  have left₀ := row.left
  have right₀ := row.right
  have wide := row.wide
  have at' : dst.pixelAt x y = to' + k * dst.info.pitch + x.toNat * 4 := by
    rw [Reference.pixelAt, placed.offset, Option.getD_some, here, Int.toNat_natCast]
  refine ⟨x.toNat, k, by omega, here, by omega, row.high, by omega, by omega, by omega, by omega, at', fun i hi => ?_⟩
  refine ⟨r, hr, y, mem_rows.mpr ⟨top, bottom⟩, ?_⟩
  rw [row.rowAt_eq placed.surface, row.count]
  rw [at'] at hi
  obtain ⟨low, high⟩ := hi
  exact ⟨by omega, by omega⟩

/-- A byte of a row belongs to a pixel. -/
theorem pixel_of_region (placed : Placed dst to') (parts : ∀ r ∈ p.rects, r.part p.destination dst.info = true) {i : ℕ}
    (h : i ∈ region p dst to') : ∃ x y, p.Covers x y ∧ i ∈ stretch (dst.pixelAt x y) 4 := by
  obtain ⟨r, hr, y, hy, hi⟩ := h
  obtain ⟨x₀, k, n, row⟩ := row_of_part (parts r hr) hy
  rw [row.rowAt_eq placed.surface, row.count] at hi
  obtain ⟨low, high⟩ := hi
  obtain ⟨top, bottom⟩ := mem_rows.mp hy
  have left₀ := row.left
  have right₀ := row.right
  refine ⟨(x₀ + (i - (to' + k * dst.info.pitch + x₀ * 4)) / 4 : ℕ), y, ⟨r, hr, by omega, by omega, top, bottom⟩, ?_⟩
  rw [Reference.pixelAt, placed.offset, Option.getD_some, row.row, Int.toNat_natCast, Int.toNat_natCast]
  exact ⟨by omega, by omega⟩

/-- All sub-rectangles are painted when all rows are. -/
theorem paint_rule {picture : Memory} {limits : Set ℕ} (to' : ℕ)
    (row : ∀ r ∈ p.rects, ∀ y ∈ r.rows, ∀ done, Triple (Painting refs picture before limits done) (paintRow a p refs r y)
      (fun _ => Painting refs picture before limits (done ∪ stretch (rowAt to' dst.info r y) (4 * (r.right - r.left).toNat))) E) :
    Triple (Painting refs picture before limits ∅) (paint a p refs)
      (fun _ => Painting refs picture before limits (region p dst to')) E := by
  have painted := Triple.each_grow (l := p.rects) (fun r hr => Triple.each_grow (l := r.rows) fun y hy => row r hr y hy) ∅
  rwa [Set.empty_union] at painted

/-- Painted pixel by pixel. -/
theorem bytesAt_of_painted {picture : Memory} {done : Set ℕ} {at' : ℕ} {bytes : List (BitVec 8)} (h : Painted picture done before after)
    (inside : stretch at' 4 ⊆ done) (length : bytes.length = 4) (same : ∀ c < 4, picture (at' + c) = bytes.getD c 0) :
    after.bytesAt at' 4 = bytes := by
  refine List.ext_getElem (by rw [length_bytesAt, length]) fun c hc hc' => ?_
  rw [length] at hc'
  have here := getD_bytesAt after (a := at') hc'
  rw [List.getD_eq_getElem _ _ hc] at here
  rw [here, h.inside _ (inside ⟨by omega, by omega⟩), same c hc', List.getD_eq_getElem]

theorem blitted_fill (h : Fills p refs dst to') (painted : Painted (fillPicture p dst to') (region p dst to') before after) :
    Blitted p refs dst before after where
  inside x y hxy := by
    obtain ⟨x', k, -, -, wide, high, -, -, -, -, at', -⟩ := covered_pixel h.destination h.parts hxy
    have := row_inside h.destination.surface h.destination.rows wide high
    exact ⟨to', h.destination.offset, by omega, by omega⟩
  origin src no := by
    rw [h.refs] at no
    cases no
  painted x y hxy := by
    obtain ⟨x', k, -, -, wide, -, -, -, -, -, at', inside⟩ := covered_pixel h.destination h.parts hxy
    have := h.destination.surface.pitch_le
    rw [Packet.pixel, h.refs]
    change _ = colorBytes p.color
    refine bytesAt_of_painted painted inside rfl fun c hc => ?_
    rw [at', fillPicture_at (by omega), Nat.mod_eq_of_lt hc]
  kept i no := painted.outside i fun hi =>
    have ⟨x, y, hxy, here⟩ := pixel_of_region h.destination h.parts hi
    no x y hxy here

theorem blitted_copy (h : Copies p refs src dst from' to')
    (painted : Painted (copyPicture p src dst from' to' before) (region p dst to') before after) : Blitted p refs dst before after where
  inside x y hxy := by
    obtain ⟨x', k, -, -, wide, high, -, -, -, -, at', -⟩ := covered_pixel h.destination h.parts hxy
    have := row_inside h.destination.surface h.destination.rows wide high
    exact ⟨to', h.destination.offset, by omega, by omega⟩
  origin src' only x y hxy := by
    rw [h.refs] at only
    cases only
    obtain ⟨x', k, rfl, rfl, wide, high, left, top, right, bottom, -, -⟩ := covered_pixel h.destination h.parts hxy
    obtain ⟨x'', k', hx, hk, wide', high'⟩ := h.origin (n := 1) left top (by omega) bottom
    have := row_inside h.source.surface h.source.rows wide' high'
    have width := h.width
    have height := h.height
    refine ⟨?_, ?_, ?_, ?_, from', h.source.offset, ?_⟩
    · change _ ≤ p.source.left + _
      omega
    · change p.source.left + _ < _
      omega
    · change _ ≤ p.source.top + _
      omega
    · change p.source.top + _ < _
      omega
    · rw [Packet.origin, Reference.pixelAt, h.source.offset, hx, hk, Int.toNat_natCast, Int.toNat_natCast, Option.getD_some]
      omega
  painted x y hxy := by
    obtain ⟨x', k, rfl, rfl, wide, -, left, top, right, bottom, at', inside⟩ := covered_pixel h.destination h.parts hxy
    obtain ⟨x'', k', hx, hk, -, -⟩ := h.origin (n := 1) left top (by omega) bottom
    have := h.destination.surface.pitch_le
    rw [Packet.pixel, h.refs]
    change _ = before.bytesAt (src.pixelAt _ _) 4
    refine bytesAt_of_painted painted inside (length_bytesAt _ _ _) fun c hc => ?_
    rw [at', copyPicture_at hx hk (by omega), getD_bytesAt _ hc, Packet.origin, Reference.pixelAt, h.source.offset, hx, hk,
      Int.toNat_natCast, Int.toNat_natCast, Option.getD_some]
  kept i no := painted.outside i fun hi =>
    have ⟨x, y, hxy, here⟩ := pixel_of_region h.destination h.parts hi
    no x y hxy here

end Blits

/-! ### Presents -/

section Presents

variable {a : Adapter} {device : ℕ} {p : Packet} {d : Dma} {args : Args} {list : Option (List Entry)} {refs : List Reference}
  {world : World} {m : Memory} {E : Status → Context → Prop}

/-- Nothing is accessed while memory is brought up to date. -/
theorem syncAll_untouched : Triple (fun c : Context => c.world = world ∧ c.trace = []) (syncAll p refs)
    (fun _ c => c.world = world ∧ c.trace = []) fun _ c => c.world = world ∧ c.trace = [] := by
  refine Triple.each fun x _ => ?_
  refine Triple.bind (Q := fun _ (c : Context) => c.world = world ∧ c.trace = []) (fun c hc => hc) fun f => ?_
  refine Triple.bind (Q := fun _ (c : Context) => c.world = world ∧ c.trace = []) (fun c hc => hc) fun m => ?_
  exact Triple.bind (Triple.ofExcept (fun _ _ hc => hc) fun _ _ hc => hc) fun _ => Triple.modify fun c hc => hc

theorem accepted_of_patched (h : patched a device args list = .ok (p, d)) :
    presentReferences a device p d list true = .ok d.refs := by
  obtain ⟨⟨p', d'⟩, -, h⟩ := of_bind h
  obtain ⟨refs, accepted, h⟩ := of_bind h
  cases h
  exact accepted

/-- What is painted of an accepted packet. -/
theorem paint_exact (accepted : presentReferences a device p d list true = .ok d.refs) (noFlip : p.flip = false) :
    Triple (fun c : Context => c.trace = [] ∧ c.state = m) (paint a p d.refs) (fun _ => Done p d.refs m) E := by
  have start (picture : Memory) (limits : Set ℕ) (c : Context) (hc : c.trace = [] ∧ c.state = m) :
      Painting d.refs picture m limits ∅ c := by
    obtain ⟨trace, rfl⟩ := hc
    rw [Painting, Assert, trace]
    exact ⟨trivial, Painted.refl _ _, Set.empty_subset _⟩
  rcases accepted_cases accepted noFlip with ⟨-, dst, to', h⟩ | ⟨-, src, dst, from', to', h⟩
  · refine (paint_rule to' fun r hr y hy done => fill_row_rule h hr hy done).mono (start _ _) (fun _ c hc => ?_) fun _ _ hc => hc
    exact ⟨hc.1, dst, by rw [h.refs]; rfl, blitted_fill h hc.2.1⟩
  · refine (paint_rule to' fun r hr y hy done => copy_row_rule h hr hy done).mono (start _ _) (fun _ c hc => ?_) fun _ _ hc => hc
    exact ⟨hc.1, dst, by rw [h.refs]; rfl, blitted_copy h hc.2.1⟩

/-- A surface of 16 rows of 16 pixels. -/
def smallSurface : AllocationInfo := ⟨21, 4096, 16, 16, 64, 87, 0, 3, 0, 1, 0, 0, 0, 0⟩

/-- The entries of a copy from the first page to the second. -/
def pages : List Entry :=
  [⟨none, 0, 0⟩, ⟨some ⟨some ⟨smallSurface, 7, 1⟩, 5, true⟩, 1, 0⟩, ⟨some ⟨some ⟨smallSurface, 7, 2⟩, 5, false⟩, 1, 4096⟩]

/-- A copy of which a corner sticks out, and of which two overlapping parts are asked for. -/
def cornerCopy : Args :=
  { dmaSize := some 1072, hasPrivateData := true, multipassOffset := 0, flags := 1, color := 0
    source := ⟨3, 4, 9, 10⟩, destination := ⟨-2, -2, 4, 4⟩, subRects := some [⟨0, 0, 2, 2⟩, ⟨1, 1, 3, 4⟩], subRectCount := 2
    flipInterval := 0, list := some pages, patches := some 2 }

/-- A renderer with nothing to bring to memory. -/
def quiet : World := ⟨fun _ _ _ _ m => .ok m, fun _ => .ok (), fun _ => .ok ()⟩

end Presents

end Pi5Drivers.Gpu.Present
