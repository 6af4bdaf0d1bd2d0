import Pi5Drivers.V3d.Paged

/-! The words a scan looks at: the guard pages of every buffer, and the trap page. Buffers lie apart from
each other and from imported pages, so what is written to the payload of one of them is written to
none of these words. -/

namespace Pi5Drivers.V3d

open AddressSpace

/-- The buffer is whole pages, two of them its guard pages. -/
structure Buffer.Whole (b : Buffer) : Prop where
  start : b.dma % page = 0
  pages : b.bytes % page = 0
  room : 3 * page ≤ b.bytes

/-- A guard word of some buffer. -/
def Driver.Guarded (d : Driver) (w : ℕ) : Prop :=
  ∃ s b, d.buffer s = some b ∧ ∃ j < 1024, w = b.word j ∨ w = b.word (b.tail + j)

/-- A word of the trap page. -/
def Driver.Trap (d : Driver) (w : ℕ) : Prop := ∃ b, d.buffer (.fixed .trap) = some b ∧ ∃ j, 1024 ≤ j ∧ j < 2048 ∧ w = b.word j

/-- What was left out would have found nothing. -/
def Fine (p : Physical) : Prop := ∀ s ∈ p.skipped, s.found = (0, 0) ∧ s.guardFailures = 0 ∧ s.scratchWrites = 0

/-- The buffers of the driver and what is in their guard pages. -/
structure Held (d : Driver) (p : Physical) : Prop where
  whole : ∀ s b, d.buffer s = some b → b.Whole
  common : ∀ s b, d.buffer s = some b → ∀ k < b.bytes / page, p.platform.common (b.dma / page + k) = true
  apart : ∀ s t b b', s ≠ t → d.buffer s = some b → d.buffer t = some b' → b.dma + b.bytes ≤ b'.dma ∨ b'.dma + b'.bytes ≤ b.dma
  guarded : ∀ w, d.Guarded w → p.memory w = guard
  trap : p.trapped = false → ∀ w, d.Trap w → p.memory w = 0
  counters : d.guardsClean = true → d.guardFailures = 0 ∧ d.scratchWrites = 0
  fine : Fine p

section Words

variable {d d' : Driver} {p p' : Physical} {s t : Slot} {b b' : Buffer} {w j : ℕ}

theorem Buffer.Whole.tail_eq (h : b.Whole) : b.tail + 1024 = b.bytes / 4 ∧ 2048 ≤ b.tail := by
  obtain ⟨start, pages, room⟩ := h
  unfold Buffer.tail page at *
  omega

/-- A word inside the buffer, by its number. -/
theorem Buffer.Whole.inside (h : b.Whole) (hj : j < b.tail + 1024) : b.dma ≤ 4 * b.word j ∧ 4 * b.word j + 4 ≤ b.dma + b.bytes := by
  obtain ⟨tail, -⟩ := h.tail_eq
  obtain ⟨start, pages, room⟩ := h
  unfold Buffer.word page at *
  omega

theorem Driver.Guarded.inside (h : d.Guarded w) (whole : ∀ s b, d.buffer s = some b → b.Whole) :
    ∃ s b, d.buffer s = some b ∧ b.dma ≤ 4 * w ∧ 4 * w + 4 ≤ b.dma + b.bytes := by
  obtain ⟨s, b, hb, j, hj, rfl | rfl⟩ := h
  · exact ⟨s, b, hb, (whole s b hb).inside (by omega)⟩
  · exact ⟨s, b, hb, (whole s b hb).inside (by omega)⟩

/-- Words of two buffers are different. -/
theorem Held.word_ne (h : Held d p) (ne : s ≠ t) (hb : d.buffer s = some b) (hb' : d.buffer t = some b') {i : ℕ}
    (hi : i < b.tail + 1024) (hj : j < b'.tail + 1024) : b.word i ≠ b'.word j := by
  have := (h.whole s b hb).inside hi
  have := (h.whole t b' hb').inside hj
  have := h.apart s t b b' ne hb hb'
  omega

/-- The payload of a buffer holds no guard word. -/
theorem Held.payload (h : Held d p) (hb : d.buffer s = some b) {i : ℕ} (first : 1024 ≤ i) (last : i < b.tail) : ¬d.Guarded (b.word i) := by
  rintro ⟨t, b', hb', j, hj, eq⟩
  by_cases same : s = t
  · subst same
    rw [hb] at hb'
    cases hb'
    unfold Buffer.word at eq
    omega
  · have tail := (h.whole t b' hb').tail_eq
    exact eq.elim (h.word_ne same hb hb' (by omega) (by omega)) (h.word_ne same hb hb' (by omega) (by omega))

/-- And no word of the trap page, unless the buffer is the one with the trap page. -/
theorem Held.payload_trap (h : Held d p) (hb : d.buffer s = some b) (other : s ≠ .fixed .trap) {i : ℕ} (last : i < b.tail) :
    ¬d.Trap (b.word i) := by
  rintro ⟨b', hb', j, first, last', eq⟩
  have tail := (h.whole _ b' hb').tail_eq
  exact h.word_ne other hb hb' (by omega) (by omega) eq

/-- Nor do the pages that are nobody's. -/
theorem Held.foreign (h : Held d p) (foreign : p.platform.common (w / 1024) = false) : ¬d.Guarded w ∧ ¬d.Trap w := by
  have outside {s : Slot} {b : Buffer} (hb : d.buffer s = some b) : ¬(b.dma ≤ 4 * w ∧ 4 * w + 4 ≤ b.dma + b.bytes) := by
    rintro ⟨low, high⟩
    obtain ⟨start, pages, room⟩ := h.whole s b hb
    have own := h.common s b hb (w / 1024 - b.dma / page) (by unfold page at *; omega)
    rw [Nat.add_sub_cancel' (by unfold page at *; omega), foreign] at own
    cases own
  refine ⟨fun guarded => ?_, ?_⟩
  · obtain ⟨s, b, hb, inside⟩ := guarded.inside h.whole
    exact outside hb inside
  · rintro ⟨b, hb, j, first, last, rfl⟩
    have tail := (h.whole _ b hb).tail_eq
    exact outside hb ((h.whole _ b hb).inside (by omega))

/-- Fewer buffers are held, and nothing else is known of their guards. -/
theorem Held.less (h : Held d p) (fewer : ∀ s b, d'.buffer s = some b → d.buffer s = some b)
    (counters : d'.guardsClean = true → d'.guardFailures = 0 ∧ d'.scratchWrites = 0) : Held d' p where
  whole s b hb := h.whole s b (fewer s b hb)
  common s b hb := h.common s b (fewer s b hb)
  apart s t b b' ne hb hb' := h.apart s t b b' ne (fewer s b hb) (fewer t b' hb')
  guarded := fun w ⟨s, b, hb, rest⟩ => h.guarded w ⟨s, b, fewer s b hb, rest⟩
  trap := fun calm w ⟨b, hb, rest⟩ => h.trap calm w ⟨b, fewer _ b hb, rest⟩
  counters := counters
  fine := h.fine

/-- Memory changes at words that a scan does not look at. -/
theorem Held.write (h : Held d p) (platform : p'.platform = p.platform) (skipped : p'.skipped = p.skipped)
    (guarded : ∀ w, d.Guarded w → p'.memory w = p.memory w)
    (trap : p'.trapped = false → p.trapped = false ∧ ∀ w, d.Trap w → p'.memory w = p.memory w) : Held d p' where
  whole := h.whole
  common s b hb := platform ▸ h.common s b hb
  apart := h.apart
  guarded w hw := (guarded w hw).trans (h.guarded w hw)
  trap calm w hw := ((trap calm).2 w hw).trans (h.trap (trap calm).1 w hw)
  counters := h.counters
  fine := by
    unfold Fine
    rw [skipped]
    exact h.fine

/-- The CPU writes to a payload that is not the trap page. -/
theorem Held.store (h : Held d p) (hb : d.buffer s = some b) (other : s ≠ .fixed .trap) {first count : ℕ} (low : 1024 ≤ first)
    (high : first + count ≤ b.tail) (value : ℕ → BitVec 32) :
    Held d { p with memory := p.memory.store (b.word first) count value } := by
  have away {w : ℕ} (no : ∀ i, 1024 ≤ i → i < b.tail → w ≠ b.word i) : p.memory.store (b.word first) count value w = p.memory w := by
    refine if_neg fun ⟨low', high'⟩ => ?_
    unfold Buffer.word at *
    exact no (w - b.dma / 4) (by omega) (by omega) (by omega)
  refine h.write rfl rfl (fun w guarded => away ?_) fun calm => ⟨calm, fun w trap => away ?_⟩
  · rintro i first last rfl
    exact h.payload hb first last guarded
  · rintro i first last rfl
    exact h.payload_trap hb other last trap

/-- A scan finds nothing. -/
theorem Held.scan (h : Held d p) (calm : p.trapped = false) : d.scan p.memory = (0, 0) := by
  refine Prod.ext ?_ ?_
  · refine List.sum_eq_zero fun n hn => ?_
    obtain ⟨b, hb, rfl⟩ := List.mem_map.mp hn
    obtain ⟨s, -, hb⟩ := List.mem_filterMap.mp hb
    refine List.countP_eq_zero.mpr fun j hj => ?_
    have fine := h.guarded (b.word j) ⟨s, b, hb, j, List.mem_range.mp hj, .inl rfl⟩
    have fine' := h.guarded (b.word (b.tail + j)) ⟨s, b, hb, j, List.mem_range.mp hj, .inr rfl⟩
    simp [fine, fine']
  · change (d.buffer (.fixed .trap)).elim 0 _ = 0
    cases hb : d.buffer (.fixed .trap) with
    | none => rfl
    | some b =>
      refine List.countP_eq_zero.mpr fun j hj => ?_
      obtain ⟨low, high⟩ := List.mem_range'_1.mp hj
      simp [h.trap calm (b.word j) ⟨b, hb, j, low, by omega, rfl⟩]

theorem mem_everySlot (s : Slot) : s ∈ everySlot := by
  cases s with
  | fixed b => cases b <;> simp [everySlot]
  | object i => exact List.mem_append_right _ (List.mem_map_of_mem (mem_slots i))

theorem Driver.buffer_setBuffer_eq (d : Driver) (s t : Slot) (x : Option Buffer) :
    (d.setBuffer s x).buffer t = if t = s then x else d.buffer t := by
  cases s <;> cases t <;> simp only [Driver.setBuffer, Driver.buffer, Function.update_apply, Slot.fixed.injEq, Slot.object.injEq,
    reduceCtorEq, if_false]
  split <;> rfl

/-- A new buffer, in memory that was not used. -/
theorem Held.allocated (h : Held d p) (whole : b.Whole) (unused : Paged.unused d p.platform b.dma b.bytes = true) (dirty : d.guardsClean = false) :
    Held (d.setBuffer s (some b)) { p with memory := p.memory.store (b.word 0) (b.bytes / 4) b.fresh } := by
  obtain ⟨free, common⟩ := Bool.and_eq_true_iff.mp unused
  have away {t : Slot} {b' : Buffer} (hb' : d.buffer t = some b') : b.dma + b.bytes ≤ b'.dma ∨ b'.dma + b'.bytes ≤ b.dma :=
    of_decide_eq_true (List.all_eq_true.mp free b' (List.mem_filterMap.mpr ⟨t, mem_everySlot t, hb'⟩))
  have old {t : Slot} {b' : Buffer} (ht : (d.setBuffer s (some b)).buffer t = some b') : t = s ∧ b' = b ∨ t ≠ s ∧ d.buffer t = some b' := by
    rw [Driver.buffer_setBuffer_eq] at ht
    split at ht
    · exact .inl ⟨‹_›, (Option.some.inj ht).symm⟩
    · exact .inr ⟨‹_›, ht⟩
  obtain ⟨tail, -⟩ := whole.tail_eq
  have new {j : ℕ} (hj : j < b.bytes / 4) : p.memory.store (b.word 0) (b.bytes / 4) b.fresh (b.word j) = b.fresh j := by
    rw [Words.store, if_pos (by unfold Buffer.word; omega)]
    congr 1
    unfold Buffer.word
    omega
  have same {t : Slot} {b' : Buffer} (hb' : d.buffer t = some b') {j : ℕ} (hj : j < b'.tail + 1024) :
      p.memory.store (b.word 0) (b.bytes / 4) b.fresh (b'.word j) = p.memory (b'.word j) := by
    have := (h.whole t b' hb').inside hj
    have := whole.start
    have := whole.pages
    have := away hb'
    refine if_neg fun inside => ?_
    unfold Buffer.word page at *
    omega
  constructor
  case whole =>
    intro t b' ht
    rcases old ht with ⟨-, rfl⟩ | ⟨-, hb'⟩
    · exact whole
    · exact h.whole t b' hb'
  case common =>
    intro t b' ht k hk
    rcases old ht with ⟨-, rfl⟩ | ⟨-, hb'⟩
    · exact List.all_eq_true.mp common k (List.mem_range.mpr hk)
    · exact h.common t b' hb' k hk
  case apart =>
    intro t u b₁ b₂ ne ht hu
    rcases old ht with ⟨rfl, rfl⟩ | ⟨-, h₁⟩ <;> rcases old hu with ⟨eq, rfl⟩ | ⟨-, h₂⟩
    · exact absurd eq.symm ne
    · exact away h₂
    · exact (away h₁).symm
    · exact h.apart t u b₁ b₂ ne h₁ h₂
  case guarded =>
    rintro w ⟨t, b', ht, j, hj, eq⟩
    rcases old ht with ⟨-, rfl⟩ | ⟨-, hb'⟩
    · rcases eq with rfl | rfl
      · exact (new (by omega)).trans (if_pos (.inl hj))
      · exact (new (by omega)).trans (if_pos (.inr (by omega)))
    · have := (h.whole t b' hb').tail_eq
      rcases eq with rfl | rfl
      · exact (same hb' (by omega)).trans (h.guarded _ ⟨t, b', hb', j, hj, .inl rfl⟩)
      · exact (same hb' (by omega)).trans (h.guarded _ ⟨t, b', hb', j, hj, .inr rfl⟩)
  case trap =>
    rintro calm w ⟨b', ht, j, low, high, rfl⟩
    rcases old ht with ⟨-, rfl⟩ | ⟨-, hb'⟩
    · have := whole.tail_eq
      exact (new (by omega)).trans (if_neg (by omega))
    · have := (h.whole _ b' hb').tail_eq
      exact (same hb' (by omega)).trans (h.trap calm _ ⟨b', hb', j, low, high, rfl⟩)
  case counters =>
    intro clean
    have : (d.setBuffer s (some b)).guardsClean = d.guardsClean := by cases s <;> rfl
    rw [this, dirty] at clean
    cases clean
  case fine => exact h.fine

end Words

/-! ### Sessions -/

/-- A memory session: the table maps the payload of objects and pages of imports. -/
structure InSession (d : Driver) (p : Platform) : Prop where
  valid : d.space.Valid
  table : ∃ b, d.buffer (.fixed .table) = some b ∧ b.bytes = tableBytes + 2 * page
  trap : ∃ b, d.buffer (.fixed .trap) = some b ∧ b.bytes = page + 2 * page
  size : ∀ i b, d.buffer (.object i) = some b → b.bytes = (d.space.objects i).bytes + 2 * page
  foreign : ∀ i mdl, (d.space.objects i).importedMdl = some mdl → ∀ k < (d.space.objects i).bytes / page, p.common (mdl.pages k) = false

section Sessions

variable {d : Driver} {p : Physical} {w w' : ℕ}

/-- What the table lets the GPU write is no word that a scan looks at. -/
theorem Held.reaches (h : Held d p) (session : InSession d p.platform) (reached : d.space.reaches w = some w') :
    ¬d.Guarded w' ∧ ¬d.Trap w' := by
  unfold AddressSpace.reaches at reached
  split at reached
  · next permitted =>
    cases reached
    obtain ⟨i, live, first, last⟩ := session.valid.mapped_iff.mp permitted.1
    have inside : w / 1024 - (d.space.objects i).address / page < (d.space.objects i).bytes / page := by omega
    have target := session.valid.exact.target i live _ inside
    have placed := session.valid.placed i live
    rw [Nat.add_sub_cancel' first] at target
    rw [target]
    unfold Object.frame
    generalize w / 1024 - (d.space.objects i).address / page = k at inside
    cases mdl : (d.space.objects i).importedMdl with
    | some mdl' =>
      have foreign := session.foreign i mdl' mdl k inside
      have page_eq : (mdl'.pages k * page / 4 + w % 1024) / 1024 = mdl'.pages k := by unfold page; omega
      exact h.foreign (page_eq.symm ▸ foreign)
    | none =>
      have backing := placed.backing
      rw [mdl, Option.isNone_none, Option.isSome_iff_exists] at backing
      obtain ⟨b, hb⟩ := backing
      have size := session.size i b hb
      have start := (h.whole (.object i) b hb).start
      have word : (b.dma + page + k * page) / 4 + w % 1024 = b.word (1024 + k * 1024 + w % 1024) := by
        unfold Buffer.word page at *
        omega
      have last : 1024 + k * 1024 + w % 1024 < b.tail := by
        unfold Buffer.tail page at *
        omega
      simp only [hb]
      rw [word]
      exact ⟨h.payload (s := .object i) hb (by omega) last, h.payload_trap (s := .object i) hb (by simp) last⟩
  · cases reached

/-- A write of the GPU. -/
theorem Held.gpuWrite (h : Held d p) (session : InSession d p.platform) (x : ℕ × BitVec 32) : Held d (p.write d x) := by
  unfold Physical.write
  split
  · next w' reached =>
    obtain ⟨notGuarded, notTrap⟩ := h.reaches session reached
    exact h.write rfl rfl (fun w hw => Function.update_of_ne (fun eq : w = w' => notGuarded (eq ▸ hw)) _ _) fun calm =>
      ⟨calm, fun w hw => Function.update_of_ne (fun eq : w = w' => notTrap (eq ▸ hw)) _ _⟩
  · obtain ⟨b, hb, bytes⟩ := session.trap
    have dma : d.trapDma / 4 + x.1 % 1024 = b.word (1024 + x.1 % 1024) := by
      have start := (h.whole _ b hb).start
      have := Nat.mod_lt x.1 (show 0 < 1024 by decide)
      rw [Driver.trapDma, show d.fixed .trap = some b from hb, Option.elim_some]
      unfold Buffer.word page at *
      omega
    have last : 1024 + x.1 % 1024 < b.tail := by
      unfold Buffer.tail page at *
      omega
    refine h.write rfl rfl (fun w hw => Function.update_of_ne (fun eq => ?_) _ _) fun no => absurd no (by simp)
    rw [dma] at eq
    exact h.payload hb (by omega) last (eq ▸ hw)

theorem platform_write (d : Driver) (p : Physical) (x : ℕ × BitVec 32) : (p.write d x).platform = p.platform := by
  unfold Physical.write
  split <;> rfl

/-- All that a job writes. -/
theorem Held.job (h : Held d p) (session : InSession d p.platform) (writes : List (ℕ × BitVec 32)) :
    Held d (writes.foldl (Physical.write d) p) ∧ (writes.foldl (Physical.write d) p).platform = p.platform := by
  induction writes generalizing p with
  | nil => exact ⟨h, rfl⟩
  | cons x writes ih =>
    have same := platform_write d p x
    obtain ⟨held, platform⟩ := ih (h.gpuWrite session x) (same.symm ▸ session)
    exact ⟨held, platform.trans same⟩

end Sessions

end Pi5Drivers.V3d
