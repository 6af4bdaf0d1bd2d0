import Pi5Drivers.Texture.Texel

/-! The mip chain as a storage format. The regions of the levels lie one below
the other and fill the chain up to its page-aligned base, every region holds the
padded level, and a level's texels are what its encoding wrote whatever other
levels are written before or after it. -/

namespace Pi5Drivers.Texture

variable {width height levels i j : ℕ} {chain : TextureChain} {l l' : TextureLevel}

/-! ### Levels -/

section Levels

variable {w h n : ℕ}

theorem align_four : n ≤ align n 4 ∧ align n 4 % 4 = 0 ∧ align n 4 < n + 4 := by
  unfold align
  omega

theorem align_eight : n ≤ align n 8 ∧ align n 8 % 8 = 0 ∧ align n 8 < n + 8 := by
  unfold align
  omega

theorem align_sixteen : n ≤ align n 16 ∧ align n 16 % 16 = 0 ∧ align n 16 < n + 16 := by
  unfold align
  omega

theorem align_thirtyTwo : n ≤ align n 32 ∧ align n 32 % 32 = 0 ∧ align n 32 < n + 32 := by
  unfold align
  omega

theorem align_page : n ≤ align n pageBytes ∧ align n pageBytes % 4096 = 0 ∧ align n pageBytes < n + 4096 := by
  unfold align pageBytes
  omega

/-- How a level of `w` by `h` texels is padded, by its tiling. Level 0 is UIF
whatever its size and never takes the XOR. -/
inductive Padding (i w h : ℕ) : Tiling × ℕ × ℕ × Bool → Prop
  | linear : i ≠ 0 → w ≤ 4 ∨ h ≤ 4 → Padding i w h (.linear, align w 4, align h 4, false)
  | ubLinear1 : i ≠ 0 → 4 < w → w ≤ 8 → 4 < h → Padding i w h (.ubLinear1, align w 8, align h 8, false)
  | ubLinear2 : i ≠ 0 → 8 < w → w ≤ 16 → 4 < h → Padding i w h (.ubLinear2, align w 16, align h 8, false)
  | uif (pad : ℕ) (xor : Bool) : i ≠ 0 → 16 < w → 4 < h → pad ≤ 5 →
      (xor = true → (align h 8 + pad * 8) / 8 % 32 = 0) →
      Padding i w h (.uif, align w 32, align h 8 + pad * 8, xor)
  | first : i = 0 → Padding i w h (.uif, align w 32, align h 8, false)

theorem padLevel_padding : Padding i w h (padLevel i w h) := by
  unfold padLevel
  split
  · exact .linear (by omega) (by omega)
  · split
    · exact .ubLinear1 (by omega) (by omega) (by omega) (by omega)
    · split
      · exact .ubLinear2 (by omega) (by omega) (by omega) (by omega)
      · split
        · exact .uif _ _ (by omega) (by omega) (by omega) uifPad_le fun aligned => of_decide_eq_true aligned
        · exact .first (by omega)

/-- The padding of level `i` of a texture. -/
theorem levelOf_padding (width height i : ℕ) :
    ∃ p, Padding i (tiledSize width i) (tiledSize height i) p ∧
      levelOf width height i = ⟨0, minify width i, minify height i, p.2.1, p.2.2.1, p.1, p.2.2.2⟩ :=
  ⟨_, padLevel_padding, rfl⟩

theorem levelOf_shaped (width height i : ℕ) : (levelOf width height i).Shaped := by
  obtain ⟨p, padding, level⟩ := levelOf_padding width height i
  have wide : minify width i ≤ tiledSize width i := minify_le_tiledSize
  have high : minify height i ≤ tiledSize height i := minify_le_tiledSize
  have wide_pos : 0 < tiledSize width i := tiledSize_pos
  have high_pos : 0 < tiledSize height i := tiledSize_pos
  have h8 := align_eight (n := tiledSize height i)
  rw [level]
  cases padding with
  | linear _ small =>
    have w4 := align_four (n := tiledSize width i)
    have h4 := align_four (n := tiledSize height i)
    refine ⟨by dsimp only; omega, by dsimp only; omega, fun _ => ⟨w4.2.1, h4.2.1, ?_⟩, nofun, nofun, nofun⟩
    rcases small with small | small
    · exact .inl (by dsimp only; omega)
    · exact .inr (by dsimp only; omega)
  | ubLinear1 _ more less _ =>
    have w8 := align_eight (n := tiledSize width i)
    exact ⟨by dsimp only; omega, by dsimp only; omega, nofun,
      fun _ => ⟨by dsimp only; omega, h8.2.1⟩, nofun, nofun⟩
  | ubLinear2 _ more less _ =>
    have w16 := align_sixteen (n := tiledSize width i)
    exact ⟨by dsimp only; omega, by dsimp only; omega, nofun, nofun,
      fun _ => ⟨by dsimp only; omega, h8.2.1⟩, nofun⟩
  | uif pad xor _ _ _ _ aligned =>
    have w32 := align_thirtyTwo (n := tiledSize width i)
    exact ⟨by dsimp only; omega, by dsimp only; omega, nofun, nofun, nofun,
      fun _ => ⟨w32.2.1, by dsimp only; omega, aligned⟩⟩
  | first _ =>
    have w32 := align_thirtyTwo (n := tiledSize width i)
    exact ⟨by dsimp only; omega, by dsimp only; omega, nofun, nofun, nofun, fun _ => ⟨w32.2.1, h8.2.1, nofun⟩⟩

/-- The bytes a level's tiling is made of: utiles, or blocks of eight by eight texels. -/
def Tiling.granule : Tiling → ℕ
  | .linear => 64
  | .ubLinear1 | .ubLinear2 | .uif => 256

theorem granule_dvd_page (t : Tiling) : t.granule ∣ 4096 := by
  cases t <;> decide

theorem area_dvd {a b m n : ℕ} (hm : m ∣ w) (hn : n ∣ h) (hab : m * n = a) (h4 : a * 4 = b) : b ∣ w * h * 4 := by
  subst hab h4
  exact Nat.mul_dvd_mul (Nat.mul_dvd_mul hm hn) (dvd_refl 4)

/-- A padded level is made of whole granules. -/
theorem granule_dvd_area (shaped : l.Shaped) : l.tiling.granule ∣ l.paddedWidth * l.paddedHeight * 4 := by
  cases tiling : l.tiling with
  | linear =>
    obtain ⟨hw, hh, -⟩ := shaped.linear tiling
    exact area_dvd (Nat.dvd_of_mod_eq_zero hw) (Nat.dvd_of_mod_eq_zero hh) rfl rfl
  | ubLinear1 =>
    obtain ⟨hw, hh⟩ := shaped.ubLinear1 tiling
    exact area_dvd (m := 8) (Nat.dvd_of_mod_eq_zero (by omega)) (Nat.dvd_of_mod_eq_zero hh) rfl rfl
  | ubLinear2 =>
    obtain ⟨hw, hh⟩ := shaped.ubLinear2 tiling
    exact area_dvd (m := 8) (Nat.dvd_of_mod_eq_zero (by omega)) (Nat.dvd_of_mod_eq_zero hh) rfl rfl
  | uif =>
    obtain ⟨hw, hh, -⟩ := shaped.uif tiling
    exact area_dvd (m := 8) (Nat.dvd_of_mod_eq_zero (by omega)) (Nat.dvd_of_mod_eq_zero hh) rfl rfl

/-- Once a level is tiled in utiles, so is every smaller one. -/
theorem linear_of_le (hi : i ≠ 0) (hij : i ≤ j) (linear : (levelOf width height i).tiling = .linear) :
    (levelOf width height j).tiling = .linear := by
  obtain ⟨p, padding, level⟩ := levelOf_padding width height i
  obtain ⟨p', padding', level'⟩ := levelOf_padding width height j
  have narrower : tiledSize width j ≤ tiledSize width i := tiledSize_le_of_le (by omega) hij
  have lower : tiledSize height j ≤ tiledSize height i := tiledSize_le_of_le (by omega) hij
  rw [level] at linear
  rw [level']
  cases padding with
  | linear _ small => cases padding' <;> first | rfl | omega
  | ubLinear1 | ubLinear2 | uif | first => cases linear

end Levels

/-! ### Regions -/

section Regions

theorem area_le_levelSize :
    (levelOf width height i).paddedWidth * (levelOf width height i).paddedHeight * 4 ≤
      levelSize width height i := by
  unfold levelSize
  dsimp only
  split
  · exact align_page.1
  · exact le_rfl

theorem granule_dvd_levelSize {t : Tiling} (h : t.granule ∣ (levelOf width height i).tiling.granule) :
    t.granule ∣ levelSize width height i := by
  unfold levelSize
  dsimp only
  split
  · exact (granule_dvd_page t).trans (Nat.dvd_of_mod_eq_zero align_page.2.1)
  · exact h.trans (granule_dvd_area (levelOf_shaped width height i))

/-- A padded level is at most 4096 texels wide and high. -/
theorem padded_le (hw : width ≤ 4096) (hh : height ≤ 4096) (hw0 : 0 < width) (hh0 : 0 < height) :
    (levelOf width height i).paddedWidth ≤ 4096 ∧ (levelOf width height i).paddedHeight ≤ 4096 := by
  obtain ⟨p, padding, level⟩ := levelOf_padding width height i
  have h8 := align_eight (n := tiledSize height i)
  have w32 := align_thirtyTwo (n := tiledSize width i)
  rw [level]
  cases padding with
  | first zero =>
    rw [zero, tiledSize_zero hh0] at h8
    rw [zero, tiledSize_zero hw0] at w32
    dsimp only
    rw [zero, tiledSize_zero hh0, tiledSize_zero hw0]
    omega
  | linear | ubLinear1 | ubLinear2 | uif =>
    have narrow : tiledSize width i ≤ 2048 := tiledSize_le hw (by omega)
    have low : tiledSize height i ≤ 2048 := tiledSize_le hh (by omega)
    have w4 := align_four (n := tiledSize width i)
    have w8 := align_eight (n := tiledSize width i)
    have w16 := align_sixteen (n := tiledSize width i)
    have h4 := align_four (n := tiledSize height i)
    dsimp only
    omega

theorem levelSize_le (hw : width ≤ 4096) (hh : height ≤ 4096) (hw0 : 0 < width) (hh0 : 0 < height) :
    levelSize width height i ≤ 2 ^ 26 + 4096 := by
  obtain ⟨wide, high⟩ := padded_le (i := i) hw hh hw0 hh0
  have area := Nat.mul_le_mul_right 4 (Nat.mul_le_mul wide high)
  unfold levelSize
  dsimp only
  split
  · have := align_page (n := (levelOf width height i).paddedWidth * (levelOf width height i).paddedHeight * 4)
    omega
  · omega

@[simp] theorem above_zero : above width height 0 = 0 := rfl

theorem above_succ : above width height (i + 1) = above width height i + levelSize width height (i + 1) := by
  simp [above, List.range_succ]

theorem above_mono (h : i ≤ j) : above width height i ≤ above width height j := by
  induction j, h using Nat.le_induction with
  | base => exact le_rfl
  | succ j _ ih => exact ih.trans (by rw [above_succ]; omega)

theorem above_le (hw : width ≤ 4096) (hh : height ≤ 4096) (hw0 : 0 < width) (hh0 : 0 < height) :
    above width height i ≤ i * (2 ^ 26 + 4096) := by
  induction i with
  | zero => simp
  | succ i ih =>
    rw [above_succ, Nat.succ_mul]
    exact Nat.add_le_add ih (levelSize_le hw hh hw0 hh0)

/-- The regions above a level are whole granules of its tiling. -/
theorem granule_dvd_above :
    (levelOf width height i).tiling.granule ∣ above width height i := by
  have each (k : ℕ) (hk : k ≤ i) : (levelOf width height i).tiling.granule ∣ above width height k := by
    induction k with
    | zero => exact dvd_zero _
    | succ k ih =>
      rw [above_succ]
      refine Nat.dvd_add (ih (by omega)) (granule_dvd_levelSize ?_)
      cases larger : (levelOf width height (k + 1)).tiling with
      | linear => rw [linear_of_le (Nat.succ_ne_zero k) hk larger]
      | ubLinear1 | ubLinear2 | uif => cases (levelOf width height i).tiling <;> decide
  exact each i le_rfl

end Regions

/-! ### The chain -/

section Chain

/-- What an accepted size makes of the chain. -/
theorem layoutTextureChain_some (h : layoutTextureChain width height levels = some chain) :
    0 < width ∧ width ≤ 4096 ∧ 0 < height ∧ height ≤ 4096 ∧ (0 < levels ∧ levels ≤ maxLevels) ∧
    chain.levels = levels ∧ chain.base = align (above width height (levels - 1)) pageBytes ∧
    chain.bytes = chain.base + levelSize width height 0 ∧
    ∀ i l, chain.level[i]? = some l ↔
      i < levels ∧ l = { levelOf width height i with offset := chain.base - above width height i } := by
  unfold layoutTextureChain at h
  split at h
  · cases h
  · split at h
    · cases h
    · obtain rfl := Option.some.inj h
      refine ⟨by omega, by omega, by omega, by omega, by omega, rfl, rfl, rfl, fun i l => ?_⟩
      by_cases hi : i < levels
      · simp only [List.getElem?_map, List.getElem?_range hi, Option.map_some, Option.some.injEq, hi,
          true_and, eq_comm]
      · simp [hi]

variable (h : layoutTextureChain width height levels = some chain)
include h

theorem above_le_base (hi : i < levels) : above width height i ≤ chain.base := by
  obtain ⟨-, -, -, -, -, -, base, -, -⟩ := layoutTextureChain_some h
  rw [base]
  exact (above_mono (by omega)).trans align_page.1

/-- No size of a chain wraps in the 32 bits the source computes it in. -/
theorem bytes_lt : chain.bytes < 2 ^ 32 := by
  obtain ⟨hw0, hw, hh0, hh, ⟨-, few⟩, -, base, bytes, -⟩ := layoutTextureChain_some h
  have below := above_le (i := levels - 1) hw hh hw0 hh0
  have top := levelSize_le (i := 0) hw hh hw0 hh0
  have page := align_page (n := above width height (levels - 1))
  unfold maxLevels at few
  rw [bytes, base]
  omega

/-- The bytes set aside for level `i` of the chain: below them lie the smaller
levels, above them the next larger one. -/
theorem region (hl : chain.level[i]? = some l) :
    l.Shaped ∧ l.width = minify width i ∧ l.height = minify height i ∧
    l.offset + levelSize width height i ≤ chain.bytes ∧
    l.paddedWidth * l.paddedHeight * 4 ≤ levelSize width height i ∧
    ∀ j l', chain.level[j]? = some l' → i < j → l'.offset + levelSize width height j ≤ l.offset := by
  obtain ⟨-, -, -, -, -, -, base, bytes, level⟩ := layoutTextureChain_some h
  obtain ⟨hi, rfl⟩ := (level i l).mp hl
  have below := above_le_base h hi
  have shaped := levelOf_shaped width height i
  refine ⟨⟨shaped.1, shaped.2, shaped.3, shaped.4, shaped.5, shaped.6⟩, rfl, rfl, ?_, area_le_levelSize, ?_⟩
  · rw [bytes]
    cases i with
    | zero => simp
    | succ i =>
      rw [above_succ] at below ⊢
      dsimp only
      omega
  · intro j l' hl' hij
    obtain ⟨hj, rfl⟩ := (level j l').mp hl'
    have belowj := above_le_base h hj
    obtain ⟨k, rfl⟩ : ∃ k, j = k + 1 := ⟨j - 1, by omega⟩
    have : above width height i ≤ above width height k := above_mono (by omega)
    rw [above_succ] at belowj ⊢
    dsimp only
    omega

/-- A level starts on a granule of its tiling, and level 0 on a page. -/
theorem offset_aligned (hl : chain.level[i]? = some l) :
    l.tiling.granule ∣ l.offset ∧ (i = 0 → pageBytes ∣ l.offset) := by
  obtain ⟨-, -, -, -, -, -, base, -, level⟩ := layoutTextureChain_some h
  obtain ⟨hi, rfl⟩ := (level i l).mp hl
  have page : pageBytes ∣ chain.base := by
    rw [base]
    exact Nat.dvd_of_mod_eq_zero align_page.2.1
  refine ⟨Nat.dvd_sub ((granule_dvd_page _).trans page) granule_dvd_above, ?_⟩
  rintro rfl
  simpa using page

/-- Two levels share no byte of the chain. -/
theorem region_disjoint (hij : i ≠ j) (hl : chain.level[i]? = some l) (hl' : chain.level[j]? = some l') :
    l.offset + levelSize width height i ≤ l'.offset ∨ l'.offset + levelSize width height j ≤ l.offset := by
  rcases Nat.lt_or_gt_of_ne hij with less | more
  · exact .inr ((region h hl).2.2.2.2.2 j l' hl' less)
  · exact .inl ((region h hl').2.2.2.2.2 i l hl more)

end Chain

/-! ### Writing and reading levels -/

section Encode

variable {x y x' y' : ℕ}

theorem mem_texels {t : ℕ × ℕ} : t ∈ texels width height ↔ t.1 < width ∧ t.2 < height := by
  simp only [texels, List.mem_flatMap, List.mem_range, List.mem_map]
  constructor
  · rintro ⟨y, hy, x, hx, rfl⟩
    exact ⟨hx, hy⟩
  · rintro ⟨hx, hy⟩
    exact ⟨t.2, hy, t.1, hx, rfl⟩

theorem texel_apart (shaped : l.Shaped) {d : ℕ} (hx : x < l.width) (hx' : x' < l.width) (hy : y < l.height)
    (hy' : y' < l.height) (ne : (x, y) ≠ (x', y')) :
    Memory.Apart (d + texelOffset l x y) (d + texelOffset l x' y') := by
  have distinct : texelOffset l x y ≠ texelOffset l x' y' := fun e =>
    ne (Prod.ext_iff.mpr (texelOffset_inj shaped hx hx' hy hy' e))
  have mod := texelOffset_mod (l := l) (x := x) (y := y)
  have mod' := texelOffset_mod (l := l) (x := x') (y := y')
  unfold Memory.Apart
  omega

/-- The source of a level: its words and its pitch. -/
structure Image where
  texel : ℕ → BitVec 32
  pitch : ℕ

/-- Writes the levels of `order` one after the other. -/
def encodeLevels (chain : TextureChain) (image : ℕ → Image) (destination capacity : ℕ) :
    List ℕ → Memory → Option Memory
  | [], m => some m
  | i :: order, m =>
    (encodeTextureLevel chain i (image i).texel (image i).pitch destination capacity m).bind
      (encodeLevels chain image destination capacity order)

variable (h : layoutTextureChain width height levels = some chain) {image : ℕ → Image}
  {destination capacity : ℕ} {m m' : Memory}
include h

theorem encodeTextureLevel_some {source : ℕ → BitVec 32} {pitch : ℕ} (hl : chain.level[i]? = some l)
    (fits : chain.bytes ≤ capacity) (start : destination % 4 = 0)
    (aligned : pitch % 4 = 0) (wide : l.width * 4 ≤ pitch) :
    encodeTextureLevel chain i source pitch destination capacity m =
      some (m.writeAll (fun t => destination + l.offset + texelOffset l t.1 t.2)
        (fun t => source (t.2 * (pitch / 4) + t.1)) (texels l.width l.height)) := by
  obtain ⟨-, -, -, inside, area, -⟩ := region h hl
  rw [encodeTextureLevel, hl]
  exact if_neg (by omega)

/-- Every accepted level can be written, whatever the order. -/
theorem encodeLevels_isSome {order : List ℕ} (fits : chain.bytes ≤ capacity) (start : destination % 4 = 0)
    (ok : ∀ i ∈ order, ∃ l, chain.level[i]? = some l ∧ (image i).pitch % 4 = 0 ∧
      l.width * 4 ≤ (image i).pitch) :
    ∃ m', encodeLevels chain image destination capacity order m = some m' := by
  induction order generalizing m with
  | nil => exact ⟨m, rfl⟩
  | cons i order ih =>
    obtain ⟨l, hl, aligned, wide⟩ := ok i List.mem_cons_self
    rw [encodeLevels, encodeTextureLevel_some h hl fits start aligned wide]
    exact ih fun j hj => ok j (List.mem_cons_of_mem i hj)

/-- Writing a level leaves every texel of another one. -/
theorem load_other_level {order : List ℕ} (hl : chain.level[i]? = some l) (hx : x < l.width)
    (hy : y < l.height) (absent : i ∉ order)
    (written : encodeLevels chain image destination capacity order m = some m') :
    m'.load32 (destination + l.offset + texelOffset l x y) =
      m.load32 (destination + l.offset + texelOffset l x y) := by
  induction order generalizing m with
  | nil => cases written; rfl
  | cons j order ih =>
    rw [List.mem_cons, not_or] at absent
    obtain ⟨m₁, first, rest⟩ := Option.bind_eq_some_iff.mp written
    rw [ih absent.2 rest]
    unfold encodeTextureLevel at first
    cases hl' : chain.level[j]? with
    | none => rw [hl'] at first; cases first
    | some l' =>
      rw [hl'] at first
      dsimp only at first
      split at first
      · cases first
      · obtain rfl := Option.some.inj first
        refine Memory.load32_writeAll_of_apart _ _ _ fun t ht => ?_
        obtain ⟨tx, ty⟩ := mem_texels.mp ht
        obtain ⟨shaped, -, -, -, area, -⟩ := region h hl
        obtain ⟨shaped', -, -, -, area', -⟩ := region h hl'
        have here := texelOffset_lt shaped hx hy
        have there := texelOffset_lt shaped' tx ty
        have apart := region_disjoint h absent.1 hl hl'
        unfold Memory.Apart
        omega

/-- A texel of a level that was written reads back as its source. -/
theorem load_written_level {order : List ℕ} (hl : chain.level[i]? = some l) (hx : x < l.width)
    (hy : y < l.height) (present : i ∈ order)
    (written : encodeLevels chain image destination capacity order m = some m') :
    m'.load32 (destination + l.offset + texelOffset l x y) =
      (image i).texel (y * ((image i).pitch / 4) + x) := by
  induction order generalizing m with
  | nil => cases present
  | cons j order ih =>
    by_cases later : i ∈ order
    · obtain ⟨m₁, -, rest⟩ := Option.bind_eq_some_iff.mp written
      exact ih later rest
    · obtain rfl : i = j := (List.mem_cons.mp present).resolve_right later
      obtain ⟨m₁, first, rest⟩ := Option.bind_eq_some_iff.mp written
      rw [load_other_level h hl hx hy later rest]
      rw [encodeTextureLevel, hl] at first
      dsimp only at first
      split at first
      · cases first
      · obtain rfl := Option.some.inj first
        refine Memory.load32_writeAll (κ := ℕ × ℕ) m _ (fun t => (image i).texel (t.2 * ((image i).pitch / 4) + t.1))
          (k := (x, y)) (mem_texels.mpr ⟨hx, hy⟩) fun t ht ne => ?_
        obtain ⟨tx, ty⟩ := mem_texels.mp ht
        exact texel_apart (region h hl).1 tx hx ty hy ne

end Encode

/-- **The chain is a storage format.** Whatever sizes and level counts are
accepted, the levels start on granules of their tilings, stay inside the chain
and share no byte, the texels of a level have words of their own inside it, and
levels written in any order read back as their sources. -/
theorem layoutTextureChain_faithful (width height levels : ℕ) (chain : TextureChain)
    (h : layoutTextureChain width height levels = some chain) :
    chain.level.length = levels ∧ chain.bytes < 2 ^ 32 ∧
    (∀ (i : ℕ) (l : TextureLevel), chain.level[i]? = some l →
      l.width = minify width i ∧ l.height = minify height i ∧
      l.tiling.granule ∣ l.offset ∧ (i = 0 → pageBytes ∣ l.offset) ∧
      l.offset + l.paddedWidth * l.paddedHeight * 4 ≤ chain.bytes) ∧
    (∀ (i j : ℕ) (l l' : TextureLevel), i ≠ j → chain.level[i]? = some l → chain.level[j]? = some l' →
      l.offset + l.paddedWidth * l.paddedHeight * 4 ≤ l'.offset ∨
      l'.offset + l'.paddedWidth * l'.paddedHeight * 4 ≤ l.offset) ∧
    (∀ (i : ℕ) (l : TextureLevel) (x y : ℕ), chain.level[i]? = some l → x < l.width → y < l.height →
      texelOffset l x y % 4 = 0 ∧ texelOffset l x y + 4 ≤ l.paddedWidth * l.paddedHeight * 4 ∧
      ∀ x' y', x' < l.width → y' < l.height → texelOffset l x y = texelOffset l x' y' → x = x' ∧ y = y') ∧
    (∀ (image : ℕ → Image) (destination capacity : ℕ) (order : List ℕ) (m : Memory),
      chain.bytes ≤ capacity → destination % 4 = 0 → (∀ i, i ∈ order ↔ i < levels) →
      (∀ i < levels, (image i).pitch % 4 = 0 ∧ minify width i * 4 ≤ (image i).pitch) →
      ∃ m', encodeLevels chain image destination capacity order m = some m' ∧
        ∀ (i : ℕ) (l : TextureLevel) (x y : ℕ), chain.level[i]? = some l → x < l.width → y < l.height →
          m'.load32 (destination + l.offset + texelOffset l x y) =
            (image i).texel (y * ((image i).pitch / 4) + x)) := by
  obtain ⟨-, -, -, -, -, -, -, -, level⟩ := layoutTextureChain_some h
  refine ⟨?_, bytes_lt h, fun i l hl => ?_, fun i j l l' hij hl hl' => ?_, fun i l x y hl hx hy => ?_,
    fun image destination capacity order m fits start all pitches => ?_⟩
  · refine Nat.le_antisymm (Nat.le_of_not_lt fun more => ?_) (Nat.le_of_not_lt fun less => ?_)
    · have := ((level levels _).mp (List.getElem?_eq_getElem more)).1
      omega
    · have none := List.getElem?_eq_none_iff.mpr (le_refl chain.level.length)
      rw [((level chain.level.length _).mpr ⟨less, rfl⟩)] at none
      cases none
  · obtain ⟨shaped, wide, high, inside, area, -⟩ := region h hl
    obtain ⟨granule, page⟩ := offset_aligned h hl
    exact ⟨wide, high, granule, page, by omega⟩
  · have area := (region h hl).2.2.2.2.1
    have area' := (region h hl').2.2.2.2.1
    have := region_disjoint h hij hl hl'
    omega
  · have shaped := (region h hl).1
    exact ⟨texelOffset_mod, texelOffset_lt shaped hx hy,
      fun x' y' hx' hy' same => texelOffset_inj shaped hx hx' hy hy' same⟩
  · have ok : ∀ i ∈ order, ∃ l, chain.level[i]? = some l ∧ (image i).pitch % 4 = 0 ∧
        l.width * 4 ≤ (image i).pitch := fun i hi =>
      ⟨_, (level i _).mpr ⟨(all i).mp hi, rfl⟩, pitches i ((all i).mp hi)⟩
    obtain ⟨m', written⟩ := encodeLevels_isSome h fits start ok
    refine ⟨m', written, fun i l x y hl hx hy => ?_⟩
    exact load_written_level h hl hx hy ((all i).mpr ((level i l).mp hl).1) written

/-- Three levels of a texture of 70 by 40 texels, written smallest first but one. -/
theorem threeLevels_faithful :
    ∃ chain, layoutTextureChain 70 40 3 = some chain ∧
      ∃ m', encodeLevels chain (fun i => ⟨fun w => BitVec.ofNat 32 (1000 * i + w), 512⟩) 4096 65536
          [1, 2, 0] (fun _ => 0) = some m' ∧
        m'.load32 (4096 + 2048 + texelOffset ⟨2048, 35, 20, 64, 24, .uif, false⟩ 34 19) = 3466 := by
  refine ⟨_, rfl, ?_⟩
  obtain ⟨-, -, -, -, -, written⟩ := layoutTextureChain_faithful 70 40 3 _ rfl
  obtain ⟨m', order, texel⟩ := written (fun i => ⟨fun w => BitVec.ofNat 32 (1000 * i + w), 512⟩) 4096 65536
    [1, 2, 0] (fun _ => 0) (by decide) (by decide) (by intro i; simp; omega) (by decide)
  exact ⟨m', order, texel 1 ⟨2048, 35, 20, 64, 24, .uif, false⟩ 34 19 (by decide) (by decide) (by decide)⟩

end Pi5Drivers.Texture
