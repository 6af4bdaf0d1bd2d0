import Mathlib.Algebra.Order.Group.Nat
import Pi5Drivers.Lib.FirstFit

/-! Texture views in the arena of the texture unit (`native/tile-cache.h`). Views stay pinned until the job
retires. Allocation walks forward from the persistent cursor, wrapping only around those pins; copies that are
only cached may be overwritten. -/

namespace Pi5Drivers.Gpu.Views

open FirstFit

/-- A copy of an allocation in the arena. -/
structure Entry where
  identity : BitVec 64
  source : BitVec 64
  first : BitVec 32
  levels : BitVec 32
  arena : BitVec 32
  bytes : BitVec 32
deriving DecidableEq, Repr

structure TileCache where
  entries : Vector Entry 128

structure TextureView where
  identity : BitVec 64
  source : BitVec 64
  kind : BitVec 32
  first : BitVec 32
  count : BitVec 32
  arena : BitVec 32
  bytes : BitVec 32
deriving DecidableEq, Repr

/-- `Overlap`. -/
def overlap (a bytes b other : BitVec 64) : Bool :=
  bytes ≠ 0 && other ≠ 0 && (if a ≤ b then b - a < bytes else a - b < other)

/-- `Locate`. -/
def TileCache.locate (cache : TileCache) (identity source : BitVec 64) (first levels bytes : BitVec 32) :
    Option (BitVec 32) :=
  if identity = 0 then none
  else (cache.entries.toList.find? fun e => e.identity == identity && e.source == source && e.first == first &&
    e.levels == levels && e.bytes == bytes).map Entry.arena

/-- `SameTextureView`. -/
def TextureView.same (a b : TextureView) : Bool :=
  a.identity == b.identity && a.source == b.source && a.kind == b.kind && a.first == b.first && a.count == b.count &&
    a.bytes == b.bytes

/-- Whole pages. -/
def pages (bytes : BitVec 32) : BitVec 32 := (bytes + 4095) &&& ~~~4095

def conflicts (at_ reserved : BitVec 32) (v : TextureView) : Bool :=
  overlap (at_.setWidth 64) (reserved.setWidth 64) (v.arena.setWidth 64) ((pages v.bytes).setWidth 64)

/-- The end of the last view in the way. -/
def behind (at_ reserved : BitVec 32) : List TextureView → (next : BitVec 32) → BitVec 32
  | [], next => next
  | v :: views, next =>
    behind at_ reserved views
      (if conflicts at_ reserved v ∧ next < v.arena + pages v.bytes then v.arena + pages v.bytes else next)

/-- One pass over the arena. -/
def pass (views : List TextureView) (capacity reserved : BitVec 32) : (steps : ℕ) → (at_ : BitVec 32) → Option (BitVec 32)
  | 0, _ => none
  | steps + 1, at_ =>
    if at_ ≤ capacity - reserved then
      if behind at_ reserved views at_ = at_ then some at_
      else pass views capacity reserved steps (behind at_ reserved views at_)
    else none

/-- Where the view is cached, if no pinned view has its place. -/
def cachedPlace (cache : TileCache) (capacity : BitVec 32) (view : TextureView) (cacheable : Bool)
    (views : List TextureView) : Option (BitVec 32) :=
  let found := if cacheable then cache.locate view.identity view.source view.first view.count view.bytes else none
  found.filter fun cached => cached ≤ capacity - pages view.bytes && !views.any (conflicts cached (pages view.bytes))

/-- A pass from the cursor and one from the first page. -/
def freePlace (capacity cursor reserved : BitVec 32) (views : List TextureView) : Option (BitVec 32) :=
  (pass views capacity reserved (views.length + 1) cursor).or (pass views capacity reserved (views.length + 1) 0)

/-- `PlaceTextureView`: the view where it was placed, and the cursor. -/
def placeTextureView (cache : TileCache) (capacity cursor : BitVec 32) (view : TextureView) (cacheable : Bool)
    (live extra : List TextureView) : Option (TextureView × BitVec 32) :=
  let views := live ++ extra
  match views.find? (·.same view) with
  | some v => some ({ view with arena := v.arena }, cursor)
  | none =>
    let reserved := pages view.bytes
    if view.bytes = 0 ∨ capacity < view.bytes ∨ reserved < view.bytes ∨ capacity < reserved then none
    else
      match cachedPlace cache capacity view cacheable views with
      | some cached => some ({ view with arena := cached }, cursor)
      | none =>
        match freePlace capacity cursor reserved views with
        | some at_ => some ({ view with arena := at_ }, at_ + reserved)
        | none => none

/-! ### The arena -/

/-- The bytes of a view in the arena with the rest of their last page. -/
def wholePages (bytes : ℕ) : ℕ := (bytes + 4095) / 4096 * 4096

/-- A view at a page of the arena. -/
structure Pinned (capacity : BitVec 32) (v : TextureView) : Prop where
  aligned : 4096 ∣ v.arena.toNat
  inside : v.arena.toNat + v.bytes.toNat ≤ capacity.toNat

/-- Where the pages of a view begin and end. -/
def span (v : TextureView) : ℕ × ℕ := (v.arena.toNat, v.arena.toNat + wholePages v.bytes.toNat)

/-- The pages of a view. -/
def reservedPages (v : TextureView) : Set ℕ := Set.Ico (span v).1 (span v).2

/-- A page from which `size` bytes of the arena are in no view's pages. -/
def Gap (capacity : BitVec 32) (views : List TextureView) (size a : ℕ) : Prop :=
  4096 ∣ a ∧ a + size ≤ capacity.toNat ∧ ∀ v ∈ views, Disjoint (Set.Ico a (a + size)) (reservedPages v)

section Arena

variable {capacity at_ reserved next : BitVec 32} {v : TextureView} {views : List TextureView}

theorem toNat_pages {bytes : BitVec 32} (h : bytes.toNat + 4095 < 2 ^ 32) : (pages bytes).toNat = wholePages bytes.toNat := by
  have shifted : pages bytes = (bytes + 4095) >>> 12 <<< 12 := by
    apply BitVec.eq_of_getLsbD_eq
    intro i small
    simp only [pages, BitVec.getLsbD_and, BitVec.getLsbD_not, BitVec.getLsbD_shiftLeft, BitVec.getLsbD_ushiftRight, small]
    have low : (4095 : BitVec 32).getLsbD i = decide (i < 12) := by
      revert i
      decide
    rw [low]
    by_cases lt : i < 12
    · simp [lt]
    · simp [lt, Nat.add_sub_cancel' (not_lt.mp lt)]
  have sum : (bytes + 4095).toNat = bytes.toNat + 4095 := by
    rw [BitVec.toNat_add]
    exact Nat.mod_eq_of_lt h
  rw [shifted, BitVec.toNat_shiftLeft, BitVec.toNat_ushiftRight, sum, Nat.shiftRight_eq_div_pow, Nat.shiftLeft_eq, wholePages]
  omega

theorem overlap_iff (a bytes b other : BitVec 64) : overlap a bytes b other = true ↔
    max a.toNat b.toNat < min (a.toNat + bytes.toNat) (b.toNat + other.toNat) := by
  unfold overlap
  by_cases le : a ≤ b
  · have := BitVec.toNat_sub_of_le le
    simp only [le, if_true, Bool.and_eq_true, decide_eq_true_eq, ne_eq]
    bv_omega
  · have le' : b ≤ a := by bv_omega
    have := BitVec.toNat_sub_of_le le'
    simp only [le, if_false, Bool.and_eq_true, decide_eq_true_eq, ne_eq]
    bv_omega

section Pins

variable (whole : 4096 ∣ capacity.toNat)
include whole

theorem Pinned.small (h : Pinned capacity v) : v.bytes.toNat + 4095 < 2 ^ 32 := by
  have := h.inside
  have := capacity.isLt
  omega

theorem Pinned.end_le (h : Pinned capacity v) : (span v).2 ≤ capacity.toNat := by
  have := h.inside
  have := h.aligned
  unfold span wholePages
  omega

theorem Pinned.toNat_end (h : Pinned capacity v) : (v.arena + pages v.bytes).toNat = (span v).2 := by
  have := h.end_le whole
  have := capacity.isLt
  rw [BitVec.toNat_add, toNat_pages (h.small whole)]
  exact Nat.mod_eq_of_lt (by unfold span at *; omega)

theorem conflicts_iff (h : Pinned capacity v) :
    conflicts at_ reserved v = true ↔ Meets reserved.toNat at_.toNat (span v) := by
  unfold conflicts
  rw [overlap_iff]
  simp only [BitVec.toNat_setWidth_of_le (show 32 ≤ 64 by decide), toNat_pages (h.small whole)]
  rfl

variable (pinned : ∀ v ∈ views, Pinned capacity v)
include pinned

/-- The search of the abstract model, in words. -/
theorem toNat_behind : (behind at_ reserved views next).toNat = skip reserved.toNat at_.toNat (views.map span) next.toNat := by
  induction views generalizing next with
  | nil => rfl
  | cons v views ih =>
    have here := pinned v List.mem_cons_self
    have later := here.toNat_end whole
    have taken : (conflicts at_ reserved v = true ∧ next < v.arena + pages v.bytes) ↔
        (Meets reserved.toNat at_.toNat (span v) ∧ next.toNat < (span v).2) := by
      rw [conflicts_iff whole here, ← later]
      rfl
    rw [behind, List.map_cons, skip, ih fun w mem => pinned w (List.mem_cons_of_mem _ mem)]
    simp only [taken, apply_ite BitVec.toNat, later]

theorem pass_eq (reserved : BitVec 32) (steps : ℕ) (at_ : BitVec 32) : (pass views capacity reserved steps at_).map BitVec.toNat =
    search (views.map span) reserved.toNat (capacity - reserved).toNat steps at_.toNat := by
  induction steps generalizing at_ with
  | zero => rfl
  | succ steps ih =>
    have same : behind at_ reserved views at_ = at_ ↔ skip reserved.toNat at_.toNat (views.map span) at_.toNat = at_.toNat := by
      rw [← toNat_behind whole pinned, BitVec.toNat_inj]
    rw [pass, search]
    simp only [BitVec.le_def, same, apply_ite (Option.map BitVec.toNat), ih, toNat_behind whole pinned, Option.map_some,
      Option.map_none]

end Pins

theorem free_iff {a size : ℕ} : Free (views.map span) size a ↔ ∀ v ∈ views, Disjoint (Set.Ico a (a + size)) (reservedPages v) := by
  simp only [Free, List.forall_mem_map, meets_iff, not_not]
  rfl

end Arena

/-! ### Placement -/

/-- A view is placed in the arena, where it was or apart from all others. -/
structure Placed (capacity cursor : BitVec 32) (views : List TextureView) (view placed : TextureView) (cursor' : BitVec 32) :
    Prop where
  same : placed = { view with arena := placed.arena }
  pinned : Pinned capacity placed
  apart : (∃ v ∈ views, v.same view = true ∧ v.arena = placed.arena) ∨
    ∀ v ∈ views, Disjoint (reservedPages placed) (reservedPages v)
  aligned : 4096 ∣ cursor'.toNat
  inside : cursor ≤ capacity → cursor' ≤ capacity

section Placement

variable {capacity cursor reserved at_ : BitVec 32} {cache : TileCache} {view : TextureView} {cacheable : Bool}
  {views live extra : List TextureView}

theorem TextureView.same_bytes {v : TextureView} (h : v.same view = true) : v.bytes = view.bytes := by
  simp only [TextureView.same, Bool.and_eq_true, beq_iff_eq] at h
  exact h.2

theorem locate_mem {identity source : BitVec 64} {first levels bytes cached : BitVec 32}
    (h : cache.locate identity source first levels bytes = some cached) : ∃ e ∈ cache.entries.toList, e.arena = cached := by
  unfold TileCache.locate at h
  split at h
  · exact nomatch h
  · obtain ⟨e, found, rfl⟩ := Option.map_eq_some_iff.mp h
    exact ⟨e, List.mem_of_find?_eq_some found, rfl⟩

/-- The sizes of a view that fits into the arena. -/
theorem reserved_of_fits (whole : 4096 ∣ capacity.toNat)
    (fits : ¬(view.bytes = 0 ∨ capacity < view.bytes ∨ pages view.bytes < view.bytes ∨ capacity < pages view.bytes)) :
    (pages view.bytes).toNat = wholePages view.bytes.toNat ∧ 0 < view.bytes.toNat ∧
      wholePages view.bytes.toNat ≤ capacity.toNat := by
  simp only [not_or, BitVec.not_lt, BitVec.le_def] at fits
  obtain ⟨some, small, -, room⟩ := fits
  have := capacity.isLt
  have size : (pages view.bytes).toNat = wholePages view.bytes.toNat := toNat_pages (by omega)
  refine ⟨size, Nat.pos_of_ne_zero fun none => some (BitVec.eq_of_toNat_eq none), size ▸ room⟩

theorem le_wholePages (bytes : ℕ) : bytes ≤ wholePages bytes := by
  unfold wholePages
  omega

/-- A view that does not fit has more pages than the arena. -/
theorem too_large (whole : 4096 ∣ capacity.toNat)
    (large : capacity < view.bytes ∨ pages view.bytes < view.bytes ∨ capacity < pages view.bytes) :
    capacity.toNat < wholePages view.bytes.toNat := by
  have := capacity.isLt
  have grows := le_wholePages view.bytes.toNat
  by_cases wraps : view.bytes.toNat + 4095 < 2 ^ 32
  · simp only [BitVec.lt_def, toNat_pages wraps] at large
    omega
  · omega

/-- A free page with room is a place for the view. -/
theorem placed_at (aligned : 4096 ∣ at_.toNat) (room : at_.toNat + wholePages view.bytes.toNat ≤ capacity.toNat)
    (free : ∀ v ∈ views, Disjoint (reservedPages { view with arena := at_ }) (reservedPages v)) {cursor' : BitVec 32}
    (next : 4096 ∣ cursor'.toNat ∧ (cursor ≤ capacity → cursor' ≤ capacity)) :
    Placed capacity cursor views view { view with arena := at_ } cursor' where
  same := rfl
  pinned := ⟨aligned, (Nat.add_le_add_left (le_wholePages _) _).trans room⟩
  apart := .inr free
  aligned := next.1
  inside := next.2

section Passes

variable (whole : 4096 ∣ capacity.toNat) (pinned : ∀ v ∈ views, Pinned capacity v)
  (size : (pages view.bytes).toNat = wholePages view.bytes.toNat) (room : wholePages view.bytes.toNat ≤ capacity.toNat)
include whole pinned size room

omit whole pinned in
theorem toNat_last : (capacity - pages view.bytes).toNat = capacity.toNat - wholePages view.bytes.toNat := by
  rw [BitVec.toNat_sub_of_le (by rw [BitVec.le_def, size]; exact room), size]

/-- What a pass finds is a place for the view. -/
theorem pass_placed {steps : ℕ} {found : BitVec 32} (start : 4096 ∣ at_.toNat)
    (h : pass views capacity (pages view.bytes) steps at_ = some found) :
    Placed capacity cursor views view { view with arena := found } (found + pages view.bytes) := by
  have searched := pass_eq whole pinned (pages view.bytes) steps at_
  rw [h, Option.map_some, toNat_last size room, size] at searched
  obtain ⟨free, le, origin⟩ := search_some searched.symm
  have aligned : 4096 ∣ found.toNat := by
    rcases origin with same | ⟨p, mem, last⟩
    · exact same ▸ start
    · obtain ⟨v, here, rfl⟩ := List.mem_map.mp mem
      rw [last]
      exact Nat.dvd_add (pinned v here).aligned (Nat.dvd_mul_left _ _)
  have inside : found.toNat + wholePages view.bytes.toNat ≤ capacity.toNat := by omega
  have next : (found + pages view.bytes).toNat = found.toNat + wholePages view.bytes.toNat := by
    have := capacity.isLt
    rw [BitVec.toNat_add, size]
    exact Nat.mod_eq_of_lt (by omega)
  refine placed_at aligned inside (free_iff.mp free) ⟨?_, fun _ => ?_⟩
  · rw [next]
    exact Nat.dvd_add aligned (Nat.dvd_mul_left _ _)
  · rw [BitVec.le_def, next]
    exact inside

/-- A pass from the first page that finds nothing leaves no gap. -/
theorem pass_none (some : 0 < view.bytes.toNat)
    (h : pass views capacity (pages view.bytes) (views.length + 1) 0 = none) (a : ℕ) :
    ¬Gap capacity views (wholePages view.bytes.toNat) a := by
  rintro ⟨-, inside, free⟩
  have searched := pass_eq whole pinned (pages view.bytes) (views.length + 1) 0
  rw [h, Option.map_none, toNat_last size room, size] at searched
  have last : a ≤ capacity.toNat - wholePages view.bytes.toNat := by omega
  have found := search_isSome (free_iff.mpr free) (Nat.lt_add_of_pos_right (some.trans_le (le_wholePages _)))
    (Nat.zero_le a) last
    (Nat.lt_succ_of_le ((length_ahead_le _ _).trans_eq (List.length_map span)))
  rw [show (0 : ℕ) = (0 : BitVec 32).toNat from rfl, ← searched] at found
  exact nomatch found

end Passes

/-- What is used of the cache is a place for the view. -/
theorem cachedPlace_placed {cached : BitVec 32} (whole : 4096 ∣ capacity.toNat) (start : 4096 ∣ cursor.toNat)
    (entries : ∀ e ∈ cache.entries.toList, 4096 ∣ e.arena.toNat) (pinned : ∀ v ∈ views, Pinned capacity v)
    (size : (pages view.bytes).toNat = wholePages view.bytes.toNat) (room : wholePages view.bytes.toNat ≤ capacity.toNat)
    (h : cachedPlace cache capacity view cacheable views = some cached) :
    Placed capacity cursor views view { view with arena := cached } cursor := by
  obtain ⟨found, free⟩ := Option.filter_eq_some_iff.mp h
  rw [Bool.and_eq_true, decide_eq_true_eq, Bool.not_eq_true', List.any_eq_false, BitVec.le_def, toNat_last size room] at free
  split at found
  · obtain ⟨e, mem, rfl⟩ := locate_mem found
    refine placed_at (entries e mem) (by omega) (fun v here => ?_) ⟨start, id⟩
    have apart := free.2 v here
    rw [conflicts_iff whole (pinned v here), size, meets_iff, not_not] at apart
    exact apart
  · exact nomatch found

/-- **Placement of views.** A view that is placed keeps the range where it is pinned, or gets pages that no pinned
view has; and a view that is not empty is refused only where the arena has no gap for it. -/
theorem placeTextureView_exact (whole : 4096 ∣ capacity.toNat) (start : 4096 ∣ cursor.toNat)
    (entries : ∀ e ∈ cache.entries.toList, 4096 ∣ e.arena.toNat) (pinned : ∀ v ∈ live ++ extra, Pinned capacity v) :
    match placeTextureView cache capacity cursor view cacheable live extra with
    | some (placed, cursor') => Placed capacity cursor (live ++ extra) view placed cursor'
    | none => view.bytes = 0 ∨ ∀ a, ¬Gap capacity (live ++ extra) (wholePages view.bytes.toNat) a := by
  rcases there : (live ++ extra).find? (·.same view) with _ | v
  · by_cases refused : view.bytes = 0 ∨ capacity < view.bytes ∨ pages view.bytes < view.bytes ∨ capacity < pages view.bytes
    · simp only [placeTextureView, there, if_pos refused]
      refine refused.imp_right fun large => ?_
      intro a gap
      exact (too_large whole large).not_ge ((Nat.le_add_left _ _).trans gap.2.1)
    · obtain ⟨size, some, room⟩ := reserved_of_fits whole refused
      rcases old : cachedPlace cache capacity view cacheable (live ++ extra) with _ | cached
      · rcases found : freePlace capacity cursor (pages view.bytes) (live ++ extra) with _ | at_
        · simp only [placeTextureView, there, if_neg refused, old, found]
          exact .inr (pass_none whole pinned size room some (Option.or_eq_none_iff.mp found).2)
        · simp only [placeTextureView, there, if_neg refused, old, found]
          rcases Option.or_eq_some_iff.mp found with found | ⟨-, found⟩
          · exact pass_placed whole pinned size room start found
          · exact pass_placed whole pinned size room (Nat.dvd_zero _) found
      · simp only [placeTextureView, there, if_neg refused, old]
        exact cachedPlace_placed whole start entries pinned size room old
  · have mem := List.mem_of_find?_eq_some there
    have same : v.same view = true := by simpa using List.find?_some there
    simp only [placeTextureView, there]
    refine ⟨rfl, ⟨(pinned v mem).aligned, ?_⟩, .inl ⟨v, mem, same, rfl⟩, start, id⟩
    exact TextureView.same_bytes same ▸ (pinned v mem).inside

end Placement

def noCopies : TileCache := ⟨Vector.replicate 128 ⟨0, 0, 0, 0, 0, 0⟩⟩

/-- A view of one page at the end of an arena of two. -/
def lastPage : TextureView := ⟨1, 0x1000, 87, 0, 1, 4096, 4096⟩

/-- A view that is not placed yet. -/
def newView (bytes : BitVec 32) : TextureView := ⟨2, 0x8000, 87, 0, 1, 0, bytes⟩

/-- From the pinned last page the search comes back to the first one. -/
theorem firstPage_placed : Placed 8192 4096 [lastPage] (newView 100) (newView 100) 4096 := by
  have pinned : ∀ v ∈ [lastPage] ++ [], Pinned 8192 v := by
    intro v mem
    obtain rfl : v = lastPage := List.mem_singleton.mp mem
    exact ⟨by decide, by decide⟩
  have entries : ∀ e ∈ noCopies.entries.toList, 4096 ∣ e.arena.toNat := by
    intro e mem
    rw [noCopies, Vector.toList_replicate] at mem
    rw [List.eq_of_mem_replicate mem]
    decide
  have placed : placeTextureView noCopies 8192 4096 (newView 100) false [lastPage] [] = some (newView 100, 4096) := by decide
  have exactly := @placeTextureView_exact 8192 4096 noCopies (newView 100) false [lastPage] [] (by decide) (by decide) entries
    pinned
  rwa [placed] at exactly

/-- A view without bytes is refused though there is room for it. -/
theorem emptyView_refused : placeTextureView noCopies 4096 0 (newView 0) false [] [] = none ∧
    Gap 4096 [] (wholePages (newView 0).bytes.toNat) 0 :=
  ⟨by decide, by decide, by decide, fun _ mem => nomatch mem⟩

end Pi5Drivers.Gpu.Views
