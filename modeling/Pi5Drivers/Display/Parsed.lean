import Mathlib.Data.List.Nodup
import Pi5Drivers.Display.Edid

/-! The parser ends, and reads nothing outside of the buffer. Its list has supported modes only, no two of
them are one, and it has a preferred mode. -/

namespace Pi5Drivers.Display

open Effect

/-! ### The timing of a descriptor -/

section Descriptors

variable {b : ℕ → BitVec 8}

/-- The timing of a descriptor in the numbers that its bytes stand for. No number is cut off. -/
structure Exact (b : ℕ → BitVec 8) (t : Timing) : Prop where
  clock : t.clock.toNat = ((b 0).toNat + (b 1).toNat * 256) * 10
  hDisplay : t.hDisplay.toNat = (b 2).toNat + (b 4).toNat / 16 * 256
  hTotal : t.hTotal.toNat = t.hDisplay.toNat + (b 3).toNat + (b 4).toNat % 16 * 256
  hSyncStart : t.hSyncStart.toNat = t.hDisplay.toNat + (b 8).toNat + (b 11).toNat / 64 * 256
  hSyncEnd : t.hSyncEnd.toNat = t.hSyncStart.toNat + (b 9).toNat + (b 11).toNat / 16 % 4 * 256
  vDisplay : t.vDisplay.toNat = (b 5).toNat + (b 7).toNat / 16 * 256
  vTotal : t.vTotal.toNat = t.vDisplay.toNat + (b 6).toNat + (b 7).toNat % 16 * 256
  vSyncStart : t.vSyncStart.toNat = t.vDisplay.toNat + (b 10).toNat / 16 + (b 11).toNat / 4 % 4 * 16
  vSyncEnd : t.vSyncEnd.toNat = t.vSyncStart.toNat + (b 10).toNat % 16 + (b 11).toNat % 4 * 16

theorem and_masks : ∀ n < 256, n &&& 240 = n / 16 * 16 ∧ n &&& 15 = n % 16 ∧ n &&& 192 = n / 64 * 64 ∧
    n &&& 48 = n / 16 % 4 * 16 ∧ n &&& 12 = n / 4 % 4 * 4 ∧ n &&& 3 = n % 4 := by decide +kernel

theorem toNat_byte (y : BitVec 8) : (wide y).toNat = y.toNat := BitVec.toNat_setWidth_of_le (by decide)

/-- Some bits of a byte, moved up. -/
theorem toNat_bits {y : BitVec 8} {c : BitVec 32} {k m n : ℕ} (masked : y.toNat &&& c.toNat = m) (moved : m * 2 ^ k = n)
    (fits : n < 2 ^ 32) : ((wide y &&& c) <<< k).toNat = n := by
  rw [BitVec.toNat_shiftLeft, BitVec.toNat_and, toNat_byte, masked, Nat.shiftLeft_eq, moved, Nat.mod_eq_of_lt fits]

/-- A byte below other bits. -/
theorem or_above {x n : ℕ} (h : x < 256) : x ||| n * 256 = x + n * 256 := by
  rw [Nat.or_comm, Nat.mul_comm n, show 256 = 2 ^ 8 from rfl, ← Nat.two_pow_add_eq_or_of_lt h, Nat.add_comm]

theorem toNat_word (b : ℕ → BitVec 8) : (word b).toNat = (b 0).toNat + (b 1).toNat * 256 := by
  have high : ((b 1).setWidth 16 <<< 8).toNat = (b 1).toNat * 256 := by
    have := (b 1).isLt
    rw [BitVec.toNat_shiftLeft, BitVec.toNat_setWidth, Nat.shiftLeft_eq]
    omega
  rw [word, BitVec.toNat_or, high, BitVec.toNat_setWidth_of_le (by decide), or_above (b 0).isLt]

theorem toNat_nibble (x y : BitVec 8) :
    ((wide x ||| (wide y &&& 0xf0) <<< 4).setWidth 16).toNat = x.toNat + y.toNat / 16 * 256 := by
  have lo := x.isLt
  have hi := y.isLt
  have high : ((wide y &&& 0xf0) <<< 4).toNat = y.toNat / 16 * 256 :=
    toNat_bits (and_masks y.toNat hi).1 (by omega) (by omega)
  rw [BitVec.toNat_setWidth, BitVec.toNat_or, high, toNat_byte, or_above lo]
  omega

/-- A number of twelve bits, or of little more, and two numbers on top of it. -/
theorem toNat_sum {a : BitVec 16} {x y : BitVec 32} {k m n : ℕ} (ha : a.toNat = k) (hx : x.toNat = m) (hy : y.toNat = n)
    (h : k + m + n < 2 ^ 16) : ((wide a + x + y).setWidth 16).toNat = k + m + n := by
  rw [BitVec.toNat_setWidth, BitVec.toNat_add, BitVec.toNat_add, BitVec.toNat_setWidth_of_le (by decide), ha, hx, hy]
  omega

theorem detailed_exact (accepted : word b ≠ 0 ∧ b 17 &&& 0xf9 = 0x18) : Exact b (detailed b) := by
  obtain ⟨clocked, separate⟩ := accepted
  have bound (i : ℕ) : (b i).toNat < 256 := (b i).isLt
  have masks (i : ℕ) := and_masks (b i).toNat (bound i)
  have clock : (wide (word b) * 10).toNat = ((b 0).toNat + (b 1).toNat * 256) * 10 := by
    have := bound 0
    have := bound 1
    rw [BitVec.toNat_mul, BitVec.toNat_setWidth_of_le (by decide), toNat_word, show (10 : BitVec 32).toNat = 10 from rfl]
    omega
  have hDisplay := toNat_nibble (b 2) (b 4)
  have vDisplay := toNat_nibble (b 5) (b 7)
  have above (i : ℕ) : ((wide (b i) &&& 15) <<< 8).toNat = (b i).toNat % 16 * 256 :=
    toNat_bits (masks i).2.1 rfl (by omega)
  have front : ((wide (b 11) &&& 0xc0) <<< 2).toNat = (b 11).toNat / 64 * 256 :=
    toNat_bits (masks 11).2.2.1 (by omega) (by have := bound 11; omega)
  have width : ((wide (b 11) &&& 0x30) <<< 4).toNat = (b 11).toNat / 16 % 4 * 256 :=
    toNat_bits (masks 11).2.2.2.1 (by omega) (by omega)
  have vFront : ((wide (b 11) &&& 12) <<< 2).toNat = (b 11).toNat / 4 % 4 * 16 :=
    toNat_bits (masks 11).2.2.2.2.1 (by omega) (by omega)
  have vWidth : ((wide (b 11) &&& 3) <<< 4).toNat = (b 11).toNat % 4 * 16 :=
    toNat_bits (masks 11).2.2.2.2.2 rfl (by omega)
  have high : (wide (b 10) >>> 4).toNat = (b 10).toNat / 16 := by
    rw [BitVec.toNat_ushiftRight, toNat_byte, Nat.shiftRight_eq_div_pow]
  have low : (wide (b 10) &&& 15).toNat = (b 10).toNat % 16 := by
    rw [BitVec.toNat_and, toNat_byte]
    exact (masks 10).2.1
  have b2 := bound 2
  have b3 := bound 3
  have b4 := bound 4
  have b5 := bound 5
  have b6 := bound 6
  have b7 := bound 7
  have b8 := bound 8
  have b9 := bound 9
  have b10 := bound 10
  have b11 := bound 11
  have hSyncStart := toNat_sum hDisplay (toNat_byte (b 8)) front (by omega)
  have vSyncStart := toNat_sum vDisplay high vFront (by omega)
  rw [detailed, if_neg (not_or.mpr ⟨clocked, not_not.mpr separate⟩)]
  exact ⟨clock, hDisplay, toNat_sum rfl (toNat_byte (b 3)) (above 4) (by rw [hDisplay]; omega),
    toNat_sum rfl (toNat_byte (b 8)) front (by rw [hDisplay]; omega),
    toNat_sum rfl (toNat_byte (b 9)) width (by rw [hSyncStart]; omega), vDisplay,
    toNat_sum rfl (toNat_byte (b 6)) (above 7) (by rw [vDisplay]; omega),
    toNat_sum rfl high vFront (by rw [vDisplay]; omega),
    toNat_sum rfl low vWidth (by rw [vSyncStart]; omega)⟩

/-- The rate of a timing that is taken is not cut off either. -/
theorem detailed_refresh (h : (detailed b).Supported) :
    (detailed b).vRefresh.toNat = refreshOf (detailed b).clock.toNat (detailed b).hTotal.toNat (detailed b).vTotal.toNat := by
  obtain ⟨-, -, slow, wide_, -, tall, -, h1, h2, h3, -, v1, v2, v3, -⟩ := h
  simp only [BitVec.le_def, BitVec.lt_def] at slow wide_ tall h1 h2 h3 v1 v2 v3
  have wider : 640 ≤ (detailed b).hTotal.toNat := by
    have : (640 : BitVec 16).toNat = 640 := rfl
    omega
  have taller : 480 ≤ (detailed b).vTotal.toNat := by
    have : (480 : BitVec 16).toNat = 480 := rfl
    omega
  have slower : (detailed b).clock.toNat ≤ 600000 := slow
  have read : ¬(word b = 0 ∨ b 17 &&& 0xf9 ≠ 0x18) := by
    intro none
    rw [detailed, if_pos none] at wider
    exact absurd wider (by decide)
  have rate : (detailed b).vRefresh =
      if (detailed b).hTotal ≠ 0 ∧ (detailed b).vTotal ≠ 0 then
        BitVec.ofNat 16 (refreshOf (detailed b).clock.toNat (detailed b).hTotal.toNat (detailed b).vTotal.toNat)
      else 0 := by
    rw [detailed, if_neg read]
  have area : 640 * 480 ≤ (detailed b).hTotal.toNat * (detailed b).vTotal.toNat := Nat.mul_le_mul wider taller
  have wide0 : (detailed b).hTotal ≠ 0 := fun no => absurd (no ▸ wider) (by decide)
  have tall0 : (detailed b).vTotal ≠ 0 := fun no => absurd (no ▸ taller) (by decide)
  rw [rate, if_pos ⟨wide0, tall0⟩, BitVec.toNat_ofNat]
  apply Nat.mod_eq_of_lt
  unfold refreshOf
  generalize (detailed b).hTotal.toNat * (detailed b).vTotal.toNat = a at area ⊢
  rw [Nat.div_lt_iff_lt_mul (by omega)]
  omega

end Descriptors

/-! ### Lists of modes -/

namespace Timing

variable {s t : Timing}

/-- What the list takes two modes for one by. -/
def key (t : Timing) :
    BitVec 32 × BitVec 16 × BitVec 16 × BitVec 16 × BitVec 16 × BitVec 16 × BitVec 16 × BitVec 16 × BitVec 16 × BitVec 32 :=
  (t.clock, t.hDisplay, t.hSyncStart, t.hSyncEnd, t.hTotal, t.vDisplay, t.vSyncStart, t.vSyncEnd, t.vTotal, t.flags &&& 7)

theorem same_iff : s.Same t ↔ s.key = t.key := by simp only [Same, key, Prod.mk.injEq]

/-- The video code and the bits of the aspect ratio do not make another mode. -/
theorem key_merged (t s : Timing) : (t.merged s).key = s.key := by
  have kept : (s.flags ||| (t.flags &&& 0xf0)) &&& 7 = s.flags &&& 7 := by
    rw [BitVec.and_or_distrib_right, BitVec.and_assoc, show (0xf0 : BitVec 32) &&& 7 = 0#32 from rfl, BitVec.and_zero, BitVec.or_zero]
  unfold merged
  split
  · simp only [key, kept]
  · rfl

/-- A mode stays supported under other names. -/
theorem Supported.renamed (h : s.Supported) {v : BitVec 16} {f : BitVec 32} (known : f &&& ~~~0x3f3 = 0)
    (aspect : (f >>> 4) &&& 15 ≤ 4) : Supported { s with videoId := v, flags := f } := by
  obtain ⟨h0, h1, h2, h3, h4, h5, h6, h7, h8, h9, h10, h11, h12, h13, h14, h15, h16, h17, h18, -, -, h21⟩ := h
  exact ⟨h0, h1, h2, h3, h4, h5, h6, h7, h8, h9, h10, h11, h12, h13, h14, h15, h16, h17, h18, known, aspect, h21⟩

theorem Supported.known (h : s.Supported) : s.flags &&& ~~~0x3f3 = 0 := by
  obtain ⟨-, -, -, -, -, -, -, -, -, -, -, -, -, -, -, -, -, -, -, known, -⟩ := h
  exact known

theorem Supported.aspect (h : s.Supported) : (s.flags >>> 4) &&& 15 ≤ 4 := by
  obtain ⟨-, -, -, -, -, -, -, -, -, -, -, -, -, -, -, -, -, -, -, -, aspect, -⟩ := h
  exact aspect

/-- A mode without a video code has no aspect ratio, so that it takes that of the other one. -/
theorem Supported.merged (hs : s.Supported) (ht : t.Supported) (plain : s.Plain) : (t.merged s).Supported := by
  unfold Timing.merged
  split
  · rename_i h
    have none := plain h.2
    refine hs.renamed ?_ ?_
    · rw [BitVec.and_or_distrib_right, hs.known, BitVec.and_assoc, BitVec.and_comm 0xf0, ← BitVec.and_assoc, ht.known]
      rfl
    · have : ((s.flags ||| (t.flags &&& 0xf0)) >>> 4) &&& 15#32 = (t.flags >>> 4) &&& 15#32 := by
        have low : (s.flags >>> 4) &&& 15#32 = (s.flags &&& 0xf0) >>> 4 := by
          rw [BitVec.ushiftRight_and_distrib]
          rfl
        rw [BitVec.ushiftRight_or_distrib, BitVec.and_or_distrib_right, low, none, BitVec.ushiftRight_and_distrib, BitVec.and_assoc]
        exact BitVec.zero_or
      exact this.symm ▸ ht.aspect
  · exact hs

theorem Plain.merged (h : s.Plain) : (t.merged s).Plain := by
  unfold Timing.merged
  split
  · exact fun no => absurd no (by simp_all)
  · exact h

theorem key_asDvi (t : Timing) : t.asDvi.key = t.key := by
  have kept : (t.flags ||| 0x200) &&& 7 = t.flags &&& 7 := by
    rw [BitVec.and_or_distrib_right]
    exact BitVec.or_zero
  simp only [key, asDvi, kept]

theorem Supported.asDvi (h : s.Supported) : s.asDvi.Supported := by
  refine h.renamed ?_ ?_
  · rw [BitVec.and_or_distrib_right, h.known]
    rfl
  · have : ((s.flags ||| 0x200) >>> 4) &&& 15#32 = (s.flags >>> 4) &&& 15#32 := by
      rw [BitVec.ushiftRight_or_distrib, BitVec.and_or_distrib_right]
      exact BitVec.or_zero
    exact this.symm ▸ h.aspect

theorem Plain.asDvi (h : s.Plain) : s.asDvi.Plain := by
  intro none
  have := h none
  change (s.flags ||| 0x200) &&& 0xf0 = 0
  rw [BitVec.and_or_distrib_right, this]
  rfl

end Timing

/-- What the driver may rely on in a list of modes. -/
structure WellFormed (modes : List Timing) : Prop where
  supported : ∀ t ∈ modes, t.Supported
  apart : modes.Pairwise fun s t => ¬s.Same t
  few : modes.length ≤ maxModes

section Lists

variable {modes : List Timing} {t : Timing}

theorem apart_iff : (modes.Pairwise fun s t => ¬s.Same t) ↔ (modes.map Timing.key).Nodup := by
  simp only [List.Nodup, List.pairwise_map, Timing.same_iff]

theorem map_modify {f : Timing → Timing} (h : ∀ s, (f s).key = s.key) (modes : List Timing) (i : ℕ) :
    (modes.modify i f).map Timing.key = modes.map Timing.key := by
  apply List.ext_getElem?
  intro j
  rw [List.getElem?_map, List.getElem?_map, List.getElem?_modify]
  cases modes[j]? with
  | none => rfl
  | some s =>
    refine congrArg some ?_
    change Timing.key (if i = j then f s else s) = s.key
    split
    · exact h s
    · rfl

theorem mem_modify {f : Timing → Timing} {i : ℕ} {s : Timing} (h : s ∈ modes.modify i f) :
    s ∈ modes ∨ ∃ r ∈ modes, f r = s := by
  obtain ⟨j, place⟩ := List.mem_iff_getElem?.mp h
  rw [List.getElem?_modify] at place
  obtain ⟨r, there, rfl⟩ := Option.map_eq_some_iff.mp place
  have mem := List.mem_of_getElem? there
  split
  · exact .inr ⟨r, mem, rfl⟩
  · exact .inl mem

/-- A mode like `t` is looked for, and there is none. -/
theorem not_mem_keys (h : (modes.findIdx? fun s => decide (t.Same s)) = none) : t.key ∉ modes.map Timing.key := by
  intro mem
  obtain ⟨s, there, same⟩ := List.mem_map.mp mem
  have := List.findIdx?_eq_none_iff.mp h s there
  exact of_decide_eq_false this (Timing.same_iff.mpr same.symm)

namespace WellFormed

theorem append (h : WellFormed modes) (supported : t.Supported) (fresh : t.key ∉ modes.map Timing.key) (room : modes.length ≠ maxModes) :
    WellFormed (modes ++ [t]) := by
  have keys : (modes ++ [t]).map Timing.key = modes.map Timing.key ++ [t.key] := List.map_append
  refine ⟨fun s mem => ?_, apart_iff.mpr ?_, ?_⟩
  · rcases List.mem_append.mp mem with old | here
    · exact h.supported s old
    · rw [List.mem_singleton.mp here]
      exact supported
  · rw [keys]
    refine List.Nodup.append (apart_iff.mp h.apart) (List.nodup_singleton _) fun _ old here => fresh ?_
    exact List.mem_singleton.mp here ▸ old
  · have := h.few
    rw [List.length_append, List.length_singleton]
    omega

theorem filter (h : WellFormed modes) (pass : Timing → Bool) : WellFormed (modes.filter pass) :=
  ⟨fun t mem => h.supported t (List.mem_of_mem_filter mem), h.apart.filter pass, Nat.le_trans (List.length_filter_le pass modes) h.few⟩

end WellFormed

end Lists

/-! ### What the parser keeps -/

abbrev Never : Fault → Monitor → Prop := fun _ _ => False

/-- What every step of the parser keeps once the list is empty. The preferred mode is one of the list, and
the first one where there is one that has to be preferred. -/
structure Kept (e : ℕ → BitVec 8) (n : ℕ) (first : Option Timing) (m : Monitor) : Prop where
  edid : m.edid = e
  bytes : m.bytes = n
  fits : n ≤ 128 * maxEdidBlocks
  modes : WellFormed m.modes
  plain : ∀ t ∈ m.modes, t.Plain
  preferred : m.preferred = maxModes ∨ m.preferred < m.modes.length
  first : ∀ t ∈ first, m.preferred = 0 ∧ (m.modes.map Timing.key).head? = some t.key

namespace Kept

variable {e : ℕ → BitVec 8} {n : ℕ} {first : Option Timing} {m : Monitor} {t : Timing}

theorem prefer (h : Kept e n first m) (preferred : Bool) {i : ℕ} (hi : i < m.modes.length) :
    Kept e n first (m.prefer preferred i) := by
  unfold Monitor.prefer
  split
  · rename_i free
    refine ⟨h.edid, h.bytes, h.fits, h.modes, h.plain, .inr hi, fun t mem => absurd (h.first t mem).1 ?_⟩
    rw [free.2]
    decide
  · exact h

theorem add (h : Kept e n first m) (plain : t.Plain) (preferred : Bool) : Kept e n first (m.add t preferred).2 := by
  unfold Monitor.add
  split
  · rename_i supported
    split
    · rename_i new
      split
      · exact h
      · rename_i room
        have keys : (m.modes ++ [t]).map Timing.key = m.modes.map Timing.key ++ [t.key] := List.map_append
        have longer : (m.modes ++ [t]).length = m.modes.length + 1 := List.length_append
        refine Kept.prefer (m := { m with modes := m.modes ++ [t] })
          ⟨h.edid, h.bytes, h.fits, h.modes.append supported (not_mem_keys new) room, ?_, ?_, ?_⟩ preferred ?_
        · intro s mem
          rcases List.mem_append.mp mem with old | here
          · exact h.plain s old
          · rw [List.mem_singleton.mp here]
            exact plain
        · exact h.preferred.imp_right fun lt => by
            change m.preferred < (m.modes ++ [t]).length
            omega
        · intro s mem
          obtain ⟨zero, head⟩ := h.first s mem
          refine ⟨zero, ?_⟩
          change ((m.modes ++ [t]).map Timing.key).head? = some s.key
          rw [keys, List.head?_append, head]
          rfl
        · change m.modes.length < (m.modes ++ [t]).length
          omega
    · rename_i i found
      have inside : i < m.modes.length := (List.findIdx?_eq_some_iff_getElem.mp found).1
      have keys := map_modify (Timing.key_merged t) m.modes i
      have length : (m.modes.modify i t.merged).length = m.modes.length := List.length_modify _ _ _
      refine Kept.prefer (m := { m with modes := m.modes.modify i t.merged })
        ⟨h.edid, h.bytes, h.fits, ⟨?_, ?_, ?_⟩, ?_, ?_, ?_⟩ preferred ?_
      · intro s mem
        rcases mem_modify mem with old | ⟨r, old, rfl⟩
        · exact h.modes.supported s old
        · exact (h.modes.supported r old).merged supported (h.plain r old)
      · refine apart_iff.mpr ?_
        rw [keys]
        exact apart_iff.mp h.modes.apart
      · exact le_of_eq_of_le length h.modes.few
      · intro s mem
        rcases mem_modify mem with old | ⟨r, old, rfl⟩
        · exact h.plain s old
        · exact (h.plain r old).merged
      · exact h.preferred.imp_right fun lt => lt_of_lt_of_eq lt length.symm
      · intro s mem
        change m.preferred = 0 ∧ ((m.modes.modify i t.merged).map Timing.key).head? = some s.key
        rw [keys]
        exact h.first s mem
      · exact lt_of_lt_of_eq inside length.symm
  · exact h

/-- A list without HDMI has only modes without it. -/
theorem asDvi (h : Kept e n first m) : Kept e n first { m with modes := m.modes.map Timing.asDvi } := by
  have keys : (m.modes.map Timing.asDvi).map Timing.key = m.modes.map Timing.key := by
    rw [List.map_map]
    exact List.map_congr_left fun t _ => t.key_asDvi
  have length : (m.modes.map Timing.asDvi).length = m.modes.length := List.length_map _
  have preferred := h.preferred.imp_right fun lt => lt_of_lt_of_eq lt length.symm
  refine ⟨h.edid, h.bytes, h.fits, ⟨?_, ?_, le_of_eq_of_le length h.modes.few⟩, ?_, preferred, ?_⟩
  · intro s mem
    obtain ⟨r, old, rfl⟩ := List.mem_map.mp mem
    exact (h.modes.supported r old).asDvi
  · refine apart_iff.mpr ?_
    rw [keys]
    exact apart_iff.mp h.modes.apart
  · intro s mem
    obtain ⟨r, old, rfl⟩ := List.mem_map.mp mem
    exact (h.plain r old).asDvi
  · intro s mem
    change m.preferred = 0 ∧ ((m.modes.map Timing.asDvi).map Timing.key).head? = some s.key
    rw [keys]
    exact h.first s mem

end Kept

/-! ### The rules of the readers -/

section Rules

variable {e : ℕ → BitVec 8} {n : ℕ} {first : Option Timing} {α : Type} {Q : α → Monitor → Prop} {i k : ℕ}

/-- What fixes the buffer. -/
def Fixes (e : ℕ → BitVec 8) (n : ℕ) (P : Monitor → Prop) : Prop := ∀ m, P m → m.edid = e ∧ m.size = n

theorem Kept.holds : Fixes e n (Kept e n first) := fun _ h => ⟨h.edid, by rw [Monitor.size, h.bytes, Nat.min_eq_left h.fits]⟩

variable {P : Monitor → Prop}

/-- A byte of the buffer is read. -/
theorem byte_bind {f : BitVec 8 → Parser α} (holds : Fixes e n P) (h : i < n) (hf : Triple P (f (e i)) Q Never) :
    Triple P (byte i >>= f) Q Never := by
  refine Triple.bind (Q := fun a m => a = e i ∧ P m) ?_ fun a => Triple.assume fun read => read ▸ hf
  refine Triple.get_bind fun m hm => ?_
  obtain ⟨edid, size⟩ := holds m hm
  rw [if_pos (size.symm ▸ h)]
  refine Triple.pure fun m' same => ?_
  rw [same]
  exact ⟨congrFun edid i, hm⟩

theorem field_bind {f : (ℕ → BitVec 8) → Parser α} (holds : Fixes e n P) (h : i + k ≤ n)
    (hf : Triple P (f fun j => e (i + j)) Q Never) : Triple P (field i k >>= f) Q Never := by
  refine Triple.bind (Q := fun b m => (b = fun j => e (i + j)) ∧ P m) ?_ fun a => Triple.assume fun read => read ▸ hf
  refine Triple.get_bind fun m hm => ?_
  obtain ⟨edid, size⟩ := holds m hm
  rw [if_pos (size.symm ▸ h)]
  refine Triple.pure fun m' same => ?_
  rw [same]
  exact ⟨funext fun j => congrFun edid (i + j), hm⟩

theorem advertise_rule {t : Timing} (plain : t.Plain) (preferred : Bool) :
    Triple (Kept e n first) (advertise t preferred) (fun _ => Kept e n first) Never :=
  Triple.modify fun _ h => h.add plain preferred

theorem detailed_plain (b : ℕ → BitVec 8) : (detailed b).Plain := by
  intro _
  unfold detailed
  split
  · rfl
  · simp only
    split <;> split <;> rfl

theorem standardMode_plain {w h rate : BitVec 32} {t : Timing} (found : standardMode w h rate = some t) : t.Plain := by
  apply plain_dmtModes
  unfold standardMode at found
  simp only at found
  split at found
  · rename_i s there
    obtain rfl := Option.some.inj found
    exact List.mem_of_mem_filter (List.mem_of_find?_eq_some there)
  · exact List.mem_of_mem_filter (List.mem_of_mem_head? found)

theorem standard_rule (h : i + 2 ≤ n) (revision : BitVec 8) :
    Triple (Kept e n first) (standard i revision) (fun _ => Kept e n first) Never := by
  refine byte_bind Kept.holds (by omega) ?_
  refine Triple.ite (fun _ => Triple.pure fun _ => id) fun _ => ?_
  refine byte_bind Kept.holds (by omega) ?_
  simp only
  split
  · rename_i t found
    exact advertise_rule (standardMode_plain found) false
  · exact Triple.pure fun _ => id

theorem descriptor_rule (h : i + 18 ≤ n) (long : 128 ≤ n) :
    Triple (Kept e n first) (descriptor i) (fun _ => Kept e n first) Never := by
  refine field_bind Kept.holds (by omega) (Triple.ite (fun _ => ?_) fun _ => ?_)
  · exact field_bind Kept.holds h (advertise_rule (detailed_plain _) _)
  · refine byte_bind Kept.holds (by omega) (Triple.when (fun _ => ?_) fun _ h _ => h)
    refine byte_bind Kept.holds (by omega) (Triple.each fun k mem => ?_)
    have := List.mem_range.mp mem
    exact standard_rule (by omega) _

theorem established_rule (bits : BitVec 32) (h : i < 17) :
    Triple (Kept e n first) (established bits i) (fun _ => Kept e n first) Never := by
  refine Triple.when (fun _ => ?_) fun _ h _ => h
  have there : establishedModes[i]? = some establishedModes[i] := List.getElem?_eq_getElem h
  rw [there]
  exact advertise_rule (plain_establishedModes _ (List.getElem_mem h)) false

theorem video_rule (h : i < n) : Triple (Kept e n first) (video i) (fun _ => Kept e n first) Never := by
  refine byte_bind Kept.holds h ?_
  simp only
  refine Triple.when (fun known => ?_) fun _ h _ => h
  have inside := Nat.lt_of_lt_of_le (Nat.sub_one_lt known.1) known.2
  rw [List.getElem?_eq_getElem inside]
  exact advertise_rule (plain_ctaModes _ (List.getElem_mem inside)) _

theorem vendor_rule (h : i + 3 ≤ n) : Triple (Kept e n first) (vendor i) (fun _ => Kept e n first) Never := by
  refine byte_bind Kept.holds (by omega) (byte_bind Kept.holds (by omega) (byte_bind Kept.holds (by omega) ?_))
  refine Triple.when (fun _ => Triple.modify fun m h => ?_) fun _ h _ => h
  exact ⟨h.edid, h.bytes, h.fits, h.modes, h.plain, h.preferred, h.first⟩

/-- Every round goes on by a byte at least, so that the fuel lasts. -/
theorem dataBlocks_rule {base last : ℕ} (h : base + last ≤ n) (fuel i : ℕ) (enough : last ≤ i + fuel) :
    Triple (Kept e n first) (dataBlocks base last fuel i) (fun _ => Kept e n first) Never := by
  induction fuel generalizing i with
  | zero =>
    unfold dataBlocks
    rw [if_neg (by omega)]
    exact Triple.pure fun _ => id
  | succ fuel ih =>
    unfold dataBlocks
    refine Triple.ite (fun inside => ?_) fun _ => Triple.pure fun _ => id
    refine byte_bind Kept.holds (by omega) ?_
    simp only
    generalize (_ &&& _ : BitVec 8).toNat = length
    refine Triple.ite (fun _ => Triple.pure fun _ => id) fun fits => ?_
    refine Triple.bind (Triple.when (fun _ => Triple.each fun j mem => ?_) fun _ h _ => h) fun _ => ?_
    · have := List.mem_range.mp mem
      exact video_rule (by omega)
    refine Triple.bind (Triple.when (fun found => vendor_rule (by omega)) fun _ h _ => h) fun _ => ?_
    exact ih (i + 1 + length) (by omega)

theorem extension_rule (h : i * 128 + 128 ≤ n) :
    Triple (Kept e n first) (extension i) (fun _ => Kept e n first) Never := by
  refine field_bind Kept.holds h ?_
  refine Triple.when (fun valid => ?_) fun _ h _ => h
  have short : (e (i * 128 + 2)).toNat ≤ 127 := valid.2.2.2.2
  simp only
  generalize (e (i * 128 + 2)).toNat = last at short ⊢
  refine Triple.bind (dataBlocks_rule (by omega) last 4 (by omega)) fun _ => Triple.each fun k mem => ?_
  have := List.mem_range.mp mem
  exact field_bind Kept.holds (by omega) (advertise_rule (detailed_plain _) _)

end Rules

/-! ### What is parsed -/

/-- The timing of the first descriptor of the base block. -/
def Monitor.firstDetailed (m : Monitor) : Timing := detailed fun k => m.edid (54 + k)

/-- A monitor whose list was made by the parser. -/
structure Monitor.Listed (m : Monitor) : Prop where
  modes : WellFormed m.modes
  preferred : m.preferred < m.modes.length
  /-- The first descriptor of the base block is the preferred one if it can be shown. -/
  first : m.firstDetailed.Supported → ∃ t, m.modes[m.preferred]? = some t ∧ t.Same m.firstDetailed

section Parsing

variable {e : ℕ → BitVec 8} {n : ℕ}

/-- The timing that has to be preferred. -/
def wanted (e : ℕ → BitVec 8) : Option Timing :=
  if (detailed fun k => e (54 + k)).Supported then some (detailed fun k => e (54 + k)) else none

/-- The list before the first descriptor. -/
def Fresh (e : ℕ → BitVec 8) (n : ℕ) (m : Monitor) : Prop :=
  m.edid = e ∧ m.bytes = n ∧ m.modes = [] ∧ m.preferred = maxModes ∧ n ≤ 128 * maxEdidBlocks

theorem Fresh.kept {m : Monitor} (h : Fresh e n m) : Kept e n none m := by
  obtain ⟨edid, bytes, modes, preferred, fits⟩ := h
  refine ⟨edid, bytes, fits, ⟨?_, ?_, ?_⟩, ?_, .inl preferred, fun t no => nomatch no⟩ <;> rw [modes]
  · exact fun t no => nomatch no
  · exact List.Pairwise.nil
  · exact Nat.zero_le _
  · exact fun t no => nomatch no

/-- The first timing is put at the head of the list. -/
theorem Fresh.add {m : Monitor} (h : Fresh e n m) {t : Timing} (plain : t.Plain) :
    Kept e n (if t.Supported then some t else none) (m.add t true).2 := by
  have kept := h.kept.add plain true
  obtain ⟨-, -, modes, preferred, -⟩ := h
  refine ⟨kept.edid, kept.bytes, kept.fits, kept.modes, kept.plain, kept.preferred, ?_⟩
  intro s mem
  split at mem
  · rename_i supported
    obtain rfl : t = s := Option.some.inj mem
    have added : (m.add t true).2 = { m with modes := [t], preferred := 0 } := by
      simp only [Monitor.add, if_pos supported, modes, List.findIdx?_nil, List.length_nil, List.nil_append, Monitor.prefer, preferred,
        true_and, if_true]
      rfl
    rw [added]
    exact ⟨rfl, rfl⟩
  · exact nomatch mem

theorem Fresh.holds : Fixes e n (Fresh e n) := fun m h => Kept.holds m h.kept

theorem first_rule (long : 128 ≤ n) :
    Triple (Fresh e n) (descriptor 54) (fun _ => Kept e n (wanted e)) Never := by
  unfold wanted
  by_cases supported : (detailed fun k => e (54 + k)).Supported
  · have clocked : word (fun k => e (54 + k)) ≠ 0 := by
      intro none
      rw [detailed, if_pos (.inl none)] at supported
      exact absurd supported (by decide)
    refine field_bind Fresh.holds (by omega) ?_
    rw [if_pos clocked]
    exact field_bind Fresh.holds (by omega) (Triple.modify fun m h => h.add (detailed_plain _))
  · rw [if_neg supported]
    exact (descriptor_rule (by omega) long).mono (fun _ h => h.kept) (fun _ _ => id) fun _ _ => id

theorem Kept.listed {m : Monitor} (h : Kept e n (wanted e) m) (preferred : m.preferred < m.modes.length) : m.Listed := by
  refine ⟨h.modes, preferred, fun supported => ?_⟩
  have same : m.firstDetailed = detailed fun k => e (54 + k) := by
    rw [Monitor.firstDetailed, h.edid]
  rw [same] at supported ⊢
  obtain ⟨zero, head⟩ := h.first _ (if_pos supported)
  rw [List.head?_map] at head
  obtain ⟨t, there, key⟩ := Option.map_eq_some_iff.mp head
  rw [zero, ← List.head?_eq_getElem?]
  exact ⟨t, there, Timing.same_iff.mpr key⟩

/-- A list that is not empty has a preferred mode. -/
def Preferring (e : ℕ → BitVec 8) (n : ℕ) (m : Monitor) : Prop :=
  Kept e n (wanted e) m ∧ if m.modes = [] then m.preferred = maxModes else m.preferred < m.modes.length

theorem Kept.preferring {m : Monitor} (h : Kept e n (wanted e) m) :
    Preferring e n (if m.modes ≠ [] ∧ m.preferred = maxModes then { m with preferred := 0 } else m) := by
  have short := h.modes.few
  by_cases none : m.modes = []
  · rw [if_neg fun both => both.1 none]
    refine ⟨h, ?_⟩
    rw [if_pos none]
    refine h.preferred.resolve_right ?_
    rw [none]
    exact Nat.not_lt_zero _
  have pos : 0 < m.modes.length := List.length_pos_iff.mpr none
  by_cases free : m.preferred = maxModes
  · rw [if_pos ⟨none, free⟩]
    refine ⟨⟨h.edid, h.bytes, h.fits, h.modes, h.plain, .inr pos, fun t mem => ⟨rfl, (h.first t mem).2⟩⟩, ?_⟩
    rw [if_neg none]
    exact pos
  · rw [if_neg fun both => free both.2]
    refine ⟨h, ?_⟩
    rw [if_neg none]
    exact h.preferred.resolve_left free

/-- The parser reads nothing outside of the buffer, it ends, and it ends with a list that is well formed. -/
theorem parse_rule (e : ℕ → BitVec 8) (n : ℕ) :
    Triple (fun m => m.edid = e ∧ m.bytes = n) parse
      (fun ok m => m.edid = e ∧ m.bytes = n ∧ if ok then m.Listed else m.modes = [] ∧ m.preferred = maxModes) Never := by
  refine Triple.bind (Q := fun _ m => m.edid = e ∧ m.bytes = n ∧ m.modes = [] ∧ m.preferred = maxModes)
    (Triple.modify fun m h => ⟨h.1, h.2, rfl, rfl⟩) fun _ => ?_
  refine Triple.get_bind fun m hm => ?_
  rw [hm.2.1]
  refine Triple.ite (fun _ => Triple.pure fun s same => same ▸ hm) fun sized => ?_
  obtain ⟨long, sized⟩ := not_or.mp sized
  have long : 128 ≤ n := Nat.not_lt.mp long
  have fits : n ≤ 128 * maxEdidBlocks := Nat.not_lt.mp (not_or.mp sized).1
  refine Triple.mono (P := Fresh e n) ?_ (fun s same => same ▸ ⟨hm.1, hm.2.1, hm.2.2.1, hm.2.2.2, fits⟩) (fun _ _ => id) fun _ _ => id
  refine field_bind Fresh.holds (by omega) ?_
  refine Triple.ite (fun _ => Triple.pure fun m h => ⟨h.1, h.2.1, h.2.2.1, h.2.2.2.1⟩) fun _ => ?_
  refine Triple.bind (Triple.bind (first_rule long) fun _ => Triple.each fun i mem => descriptor_rule ?_ long) fun _ => ?_
  · simp only [List.mem_cons, List.not_mem_nil, or_false] at mem
    omega
  refine Triple.bind (Triple.each fun i mem => established_rule _ (List.mem_range.mp mem)) fun _ => ?_
  refine Triple.bind (Triple.each fun k mem => standard_rule (by have := List.mem_range.mp mem; omega) _) fun _ => ?_
  refine Triple.bind (Triple.each fun i mem => extension_rule (by have := List.mem_range'_1.mp mem; omega)) fun _ => ?_
  refine Triple.bind (Triple.modify (Q := fun _ => Kept e n (wanted e)) fun m h => ?_) fun _ => ?_
  · split
    · exact h
    · exact h.asDvi
  refine Triple.bind (Triple.modify (Q := fun _ => Preferring e n) fun m h => h.preferring) fun _ => ?_
  refine Triple.get_bind fun m hm => Triple.pure fun m' same => ?_
  rw [same]
  obtain ⟨kept, preferred⟩ := hm
  refine ⟨kept.edid, kept.bytes, ?_⟩
  by_cases none : m.modes = []
  · rw [if_pos none] at preferred
    rw [if_neg (by simpa using none)]
    exact ⟨none, preferred⟩
  · rw [if_neg none] at preferred
    rw [if_pos (by simpa using none)]
    exact kept.listed preferred

/-- However the buffer looks, the parser returns. -/
theorem parse_total (m : Monitor) : ∃ ok m', parse.run m = (.ok ok, m') ∧ m'.edid = m.edid ∧ m'.bytes = m.bytes ∧
    if ok then m'.Listed else m'.modes = [] ∧ m'.preferred = maxModes := by
  have rule := parse_rule m.edid m.bytes
  rcases run : parse.run m with ⟨f | ok, m'⟩
  · exact (rule.of_error ⟨rfl, rfl⟩ run).elim
  · exact ⟨ok, m', rfl, rule.of_ok ⟨rfl, rfl⟩ run⟩

end Parsing
end Pi5Drivers.Display
