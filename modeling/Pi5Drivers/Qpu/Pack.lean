import Pi5Drivers.Qpu.Machine
import Pi5Drivers.Qpu.Forms

/-! The packing pass at the end of the compiler (`native/shader.cpp`, `Emit`). Words
that were emitted as plain arithmetic are joined with later ones, which move in
front of the plain words between them; every other word is a barrier. Packing
keeps the meaning of a program: the joined halves read the state before both,
and no half reads or overwrites what an earlier half writes. -/

namespace Pi5Drivers.Qpu

/-! ### The pass -/

/-- An emitted word, and whether it was emitted as plain arithmetic. -/
structure Item where
  word : Word
  plain : Bool
  deriving DecidableEq, Repr

/-- `(candidate.writes&(prior.reads|prior.writes))||(candidate.reads&prior.writes)`. -/
def conflicts (candidate prior : Alu) : Bool :=
  candidate.writes &&& (prior.reads ||| prior.writes) ≠ 0#64 ∨ candidate.reads &&& prior.writes ≠ 0#64

/-- The inner loop: join to `first` what can be joined from the words behind it.
`between` are the words passed over, in order, and at most eight words are looked at. -/
def absorb (first : Alu) (between : List Item) : List Item → Alu × List Item
  | [] => (first, between)
  | item :: rest =>
    let candidate := decode item.word
    if between.length ≥ 8 ∨ !item.plain ∨ !candidate.valid then (first, between ++ item :: rest)
    else if between.all fun prior => !conflicts candidate (decode prior.word) then
      match merge first candidate with
      | some first => absorb first between rest
      | none => absorb first (between ++ [item]) rest
    else absorb first (between ++ [item]) rest

theorem absorb_length (first : Alu) (between rest : List Item) :
    (absorb first between rest).2.length ≤ between.length + rest.length := by
  induction rest generalizing first between with
  | nil => simp [absorb]
  | cons item rest ih =>
    simp only [absorb]
    split
    · simp
    · split
      · split
        · have := ih ‹_› between
          simp only [List.length_cons]
          omega
        · have := ih first (between ++ [item])
          simp only [List.length_append, List.length_cons, List.length_nil] at this ⊢
          omega
      · have := ih first (between ++ [item])
        simp only [List.length_append, List.length_cons, List.length_nil] at this ⊢
        omega

/-- The outer loop. -/
def pack : List Item → List Word
  | [] => []
  | item :: rest =>
    let first := decode item.word
    if item.plain ∧ first.valid then
      (absorb first [] rest).1.word :: pack (absorb first [] rest).2
    else item.word :: pack rest
termination_by items => items.length
decreasing_by
  · have := absorb_length (decode item.word) [] rest
    simp only [List.length_nil, List.length_cons] at this ⊢
    omega
  · simp

/-! ### Packable words as commands -/

section Meaning

variable {V F : Type} (sem : Interpretation V F) (uniforms : ℕ → V)

/-- The parts of a machine a packable word may touch, and the rest. -/
inductive Cell where
  | register (reg : ℕ)
  | fifo
  | others
  deriving DecidableEq

def machineCells (V F : Type) : Cells Cell (Machine V F) where
  Value
    | .register _ => V
    | .fifo => List Consumer
    | .others => List (ℕ × V) × V × F × List (Event V)
  get
    | .register r, m => m.file r
    | .fifo, m => m.consumers
    | .others, m => (m.late, m.rtop, m.flags, m.events)
  ext := by
    intro s s' h
    have hothers := h .others
    simp only [Prod.mk.injEq] at hothers
    obtain ⟨h1, h2, h3, h4⟩ := hothers
    exact Machine.ext (funext fun r => h (.register r)) h1 h2 h3 (h .fifo) h4

/-- Registers, and the uniform stream if the word loads a uniform. -/
def Fields.cells (f : Fields) (regs : List ℕ) : Set Cell
  | .register r => r ∈ regs
  | .fifo => f.signal = 12
  | .others => False

/-- What a packable word does to a machine that waits for nothing. -/
def Fields.work (f : Fields) (m : Machine V F) : Machine V F :=
  { m with
    file := fun r =>
      if r ∈ f.loadTargets then uniforms m.consumers.length
      else if r ∈ f.addTargets then f.addResult sem m
      else if r ∈ f.mulTargets then sem.product f.opMul (f.valueC sem m) (f.valueD sem m)
      else m.file r
    consumers := m.consumers ++ f.loadTargets.map .register }

variable {sem uniforms}

section Packable

variable {f : Fields} {m : Machine V F}

theorem condition_of_form (h : f.AluForm) : f.condition = 0 := by
  unfold Fields.condition
  split
  · rfl
  · rename_i hl
    exact h.signal.1 fun h12 => hl (by simp [Fields.loads, h12])

theorem addPart_of_form (h : f.AluForm) (s : Machine V F) : f.addPart sem m s =
    if f.addIdle then s else s.set f.dstAdd (f.addResult sem m) := by
  unfold Fields.addPart
  split
  · rfl
  · rename_i hi
    obtain ⟨hmagic, -, hop, -⟩ := h.add.2 hi
    have h190 : f.opAdd ≠ 190 ∧ f.opAdd ≠ 188 := by
      rcases hop with hop | hop
      · refine ⟨?_, ?_⟩ <;> intro h' <;> rw [h'] at hop <;> exact absurd hop (by decide)
      · rw [hop.1]; decide
    simp [Fields.addStore, condition_of_form h, hmagic, h190]

theorem mulPart_of_form (h : f.AluForm) (s : Machine V F) : f.mulPart sem m s =
    if f.mulIdle then s else s.set f.dstMul (sem.product f.opMul (f.valueC sem m) (f.valueD sem m)) := by
  unfold Fields.mulPart
  split
  · rfl
  · rename_i hi
    obtain ⟨hop, hmagic, -⟩ := h.mul.2 hi
    simp [Fields.mulResult, hop, hmagic]

theorem signalPart_of_form (h : f.AluForm) (s : Machine V F) : f.signalPart sem uniforms m s =
    if f.signal = 12 then (s.set f.flags (uniforms m.consumers.length)).consume (.register f.flags) else s := by
  have hk := h.kind
  unfold Fields.signalPart
  split
  · rfl
  · simp at hk
    have h1 : ¬(f.signal = 4 ∨ f.signal = 16) := by omega
    have h2 : f.signal ≠ 17 := by omega
    have h3 : f.signal ≠ 8 := by omega
    have h4 : f.signal ≠ 18 := by omega
    have h5 : f.signal ≠ 1 := by omega
    simp only [h1, h2, h3, h4, h5, if_false]

/-- A packable word on a machine that waits for nothing. -/
theorem advance_work {w : Word} (h : (fields w).AluForm) (hl : m.late = []) :
    advance sem uniforms m w = (fields w).work sem uniforms m := by
  have hland : m.land = m := by
    unfold Machine.land
    rw [hl, List.foldl_nil, ← hl]
  unfold advance
  simp only [hland, addPart_of_form h, mulPart_of_form h, signalPart_of_form h]
  generalize fields w = f at h
  have hmul := fun hi => (h.mul.2 hi).2.2.2.2.2
  unfold Fields.work Fields.loadTargets Fields.addTargets Fields.mulTargets at *
  by_cases hs : f.signal = 12 <;> by_cases ha : f.addIdle <;> by_cases hm : f.mulIdle <;>
    simp only [hs, ha, hm, if_true, if_false, Machine.set, Machine.consume, List.map_cons, List.map_nil,
      List.append_nil, List.not_mem_nil, List.mem_singleton] at hmul ⊢ <;>
    refine Machine.ext (funext fun r => ?_) rfl rfl rfl rfl rfl <;>
    simp only [Function.update_apply] <;> grind

@[simp] theorem work_late : (f.work sem uniforms m).late = m.late := rfl

/-- The result of the add half depends on its operands only. -/
theorem addResult_congr {m' : Machine V F} (h : f.AluForm) (hi : ¬f.addIdle)
    (heq : ∀ r ∈ f.addSources, m.file r = m'.file r) : f.addResult sem m = f.addResult sem m' := by
  have hop := (h.add.2 hi).2.2.1
  have ha : f.valueA sem m = f.valueA sem m' := by
    unfold Fields.valueA
    split
    · rfl
    · exact heq _ (by simp [Fields.addSources, *])
  unfold Fields.addResult
  rw [ha]
  split
  · rename_i hb
    have hmov : ¬f.mov := fun hm => by rw [hm.1] at hb; exact absurd hb (by decide)
    have hb : f.valueB sem m = f.valueB sem m' := by
      unfold Fields.valueB
      split
      · rfl
      · exact heq _ (by simp [Fields.addSources, *])
    rw [hb]
  · rfl

variable (sem) in
theorem mulValues_congr {m' : Machine V F} (hi : ¬f.mulIdle)
    (heq : ∀ r ∈ f.mulSources, m.file r = m'.file r) :
    f.valueC sem m = f.valueC sem m' ∧ f.valueD sem m = f.valueD sem m' := by
  unfold Fields.valueC Fields.valueD
  constructor
  · split
    · rfl
    · exact heq _ (by simp [Fields.mulSources, *])
  · split
    · rfl
    · exact heq _ (by simp [Fields.mulSources, *])

theorem work_within (h : f.AluForm) :
    (machineCells V F).Within (f.cells f.sources) (f.cells f.targets) (f.work sem uniforms) := by
  constructor
  · intro m i hi
    cases i with
    | register r =>
      have hr : r ∉ f.targets := hi
      simp only [Fields.targets, List.mem_append, not_or] at hr
      simp [machineCells, Fields.work, hr]
    | fifo =>
      have hs : f.signal ≠ 12 := hi
      simp [machineCells, Fields.work, Fields.loadTargets, hs]
    | others => rfl
  · intro m m' heq i hi
    have hfile : ∀ r ∈ f.sources, m.file r = m'.file r := fun r hr => heq (.register r) hr
    have hfifo : f.signal = 12 → m.consumers = m'.consumers := fun hs => heq .fifo hs
    cases i with
    | register r =>
      have hr : r ∈ f.targets := hi
      simp only [Fields.targets, List.mem_append] at hr
      show (f.work sem uniforms m).file r = (f.work sem uniforms m').file r
      unfold Fields.work
      by_cases hload : r ∈ f.loadTargets
      · have hs : f.signal = 12 := by
          by_contra hs
          simp [Fields.loadTargets, hs] at hload
        simp only [hload, if_true, hfifo hs]
      · by_cases hadd : r ∈ f.addTargets
        · have hi : ¬f.addIdle := fun hi => by simp [Fields.addTargets, hi] at hadd
          simp only [hload, hadd, if_true, if_false]
          exact addResult_congr h hi fun x hx => hfile x (by simp [Fields.sources, hx])
        · have hmul : r ∈ f.mulTargets := by tauto
          have hi : ¬f.mulIdle := fun hi => by simp [Fields.mulTargets, hi] at hmul
          simp only [hload, hadd, hmul, if_true, if_false]
          obtain ⟨hc, hd⟩ := mulValues_congr sem hi fun x hx => hfile x (by simp [Fields.sources, hx])
          rw [hc, hd]
    | fifo =>
      have hs : f.signal = 12 := hi
      show m.consumers ++ _ = m'.consumers ++ _
      rw [hfifo hs]
    | others => exact hi.elim

/-! ### Words that do not meet -/

/-- Disjoint masks are disjoint sets of cells. -/
theorem cells_disjoint {g : Fields} {rs ss : List ℕ} (hrs : ∀ r ∈ rs, r < 32) (hss : ∀ r ∈ ss, r < 32)
    (h : (loadFifo f ||| regMask rs) &&& (loadFifo g ||| regMask ss) = 0#64) :
    ∀ i ∈ f.cells rs, i ∉ g.cells ss := by
  intro i hi hi'
  cases i with
  | register r => exact disjoint_of_masks g ss hrs hss h r hi hi'
  | fifo =>
    have hbit := congrArg (fun m => m.getLsbD 32) h
    have hf : f.signal = 12 := hi
    have hg : g.signal = 12 := hi'
    simp [loadFifo, hf, hg, uniformFifo] at hbit
  | others => exact hi

theorem and_or_eq_zero {x y z : BitVec 64} : x &&& (y ||| z) = 0#64 ↔ x &&& y = 0#64 ∧ x &&& z = 0#64 := by
  simp only [BitVec.eq_of_getLsbD_eq_iff, BitVec.getLsbD_and, BitVec.getLsbD_or, BitVec.getLsbD_zero]
  grind

/-- Words without a conflict in either direction are apart. -/
theorem apart_of_conflicts {x y : Word} (hx : (fields x).AluForm) (hy : (fields y).AluForm)
    (h : conflicts (decode x) (decode y) = false) :
    Cells.Apart ((fields x).cells (fields x).sources) ((fields x).cells (fields x).targets)
      ((fields y).cells (fields y).sources) ((fields y).cells (fields y).targets) := by
  rw [decode_of_form rfl hx, decode_of_form rfl hy, conflicts, decide_eq_false_iff_not, not_or, not_not,
    not_not] at h
  obtain ⟨hwrites, hreads⟩ := h
  obtain ⟨hwr, hww⟩ := and_or_eq_zero.mp hwrites
  refine ⟨cells_disjoint hx.targets_lt hy.sources_lt hwr, cells_disjoint hx.targets_lt hy.targets_lt hww,
    fun i hi hi' => ?_⟩
  exact cells_disjoint hx.sources_lt hy.targets_lt hreads i hi' hi

theorem addResult_same {g : Fields} (h : f.SameAdd g) (m : Machine V F) : f.addResult sem m = g.addResult sem m := by
  simp only [Fields.addResult, Fields.valueA, Fields.valueB, h.op, h.a, h.b, h.fourteen, h.fifteen]

theorem mulValues_same {g : Fields} (h : f.SameMul g) (m : Machine V F) :
    sem.product f.opMul (f.valueC sem m) (f.valueD sem m) =
      sem.product g.opMul (g.valueC sem m) (g.valueD sem m) := by
  simp only [Fields.valueC, Fields.valueD, h.op, h.c, h.d, h.thirty, h.thirtyOne]

/-- One of the halves of a joined word, seen at a register. -/
theorem work_file_congr {g k : Fields} {r : ℕ} (m : Machine V F) (hg : r ∉ g.targets)
    (hload : k.loadTargets.Perm (f.loadTargets ++ g.loadTargets))
    (hadd : k.addTargets.Perm (f.addTargets ++ g.addTargets))
    (hmul : k.mulTargets.Perm (f.mulTargets ++ g.mulTargets))
    (hA : ¬f.addIdle → k.SameAdd f) (hM : ¬f.mulIdle → k.SameMul f) :
    (k.work sem uniforms m).file r = (f.work sem uniforms m).file r := by
  simp only [Fields.targets, List.mem_append, not_or] at hg
  obtain ⟨⟨hgl, hga⟩, hgm⟩ := hg
  simp only [Fields.work, hload.mem_iff, hadd.mem_iff, hmul.mem_iff, List.mem_append, hgl, hga, hgm, or_false]
  by_cases ha : r ∈ f.addTargets
  · have hi : ¬f.addIdle := fun hi => by simp [Fields.addTargets, hi] at ha
    simp only [ha, if_true, addResult_same (hA hi) m]
  · by_cases hm : r ∈ f.mulTargets
    · have hi : ¬f.mulIdle := fun hi => by simp [Fields.mulTargets, hi] at hm
      simp only [ha, hm, if_true, if_false, mulValues_same (hM hi) m]
    · simp only [ha, hm, if_false]

/-- The joined word does both halves at once. -/
theorem both_of_joinable {g : Fields} (h : f.Joinable g) :
    Cells.Both (machineCells V F) (f.cells f.targets) (g.cells g.targets) (f.work sem uniforms)
      (g.work sem uniforms) ((f.join g).work sem uniforms) := by
  have hload := h.loadTargets_join
  have hadd := h.addTargets_join
  have hmul := h.mulTargets_join
  have hsignal := h.signal
  constructor
  · intro m i hi
    cases i with
    | register r =>
      refine work_file_congr m (h.targets r hi) (.of_eq hload) (.of_eq hadd) (.of_eq hmul) (fun hi => ?_)
        (fun hi => ?_)
      · exact h.sameAdd_left (h.add.resolve_left hi)
      · exact h.sameMul_left (h.mul.resolve_left hi)
    | fifo =>
      have hs : f.signal = 12 := hi
      have hg : g.loadTargets = [] := by simp only [Fields.loadTargets]; rw [if_neg (by omega)]
      show m.consumers ++ (f.join g).loadTargets.map _ = m.consumers ++ f.loadTargets.map _
      rw [hload, hg, List.append_nil]
    | others => exact hi.elim
  · intro m i hi
    cases i with
    | register r =>
      refine work_file_congr m (fun hf => h.targets r hf hi) (.trans (.of_eq hload) List.perm_append_comm)
        (.trans (.of_eq hadd) List.perm_append_comm) (.trans (.of_eq hmul) List.perm_append_comm)
        (fun hi => h.sameAdd_right hi) (fun hi => h.sameMul_right hi)
    | fifo =>
      have hs : g.signal = 12 := hi
      have hf : f.loadTargets = [] := by simp only [Fields.loadTargets]; rw [if_neg (by omega)]
      show m.consumers ++ (f.join g).loadTargets.map _ = m.consumers ++ g.loadTargets.map _
      rw [hload, hf, List.nil_append]
    | others => exact hi.elim
  · intro m i hf hg
    cases i with
    | register r =>
      have hf : r ∉ f.targets := hf
      have hg : r ∉ g.targets := hg
      simp only [Fields.targets, List.mem_append, not_or] at hf hg
      show ((f.join g).work sem uniforms m).file r = m.file r
      simp [Fields.work, hload, hadd, hmul, hf, hg]
    | fifo =>
      have hf : f.signal ≠ 12 := hf
      have hg : g.signal ≠ 12 := hg
      show m.consumers ++ (f.join g).loadTargets.map _ = m.consumers
      rw [hload]
      simp [Fields.loadTargets, hf, hg]
    | others => rfl

/-- A joined word is executed like the two words. -/
theorem work_join {g : Fields} (h : f.Joinable g) (m : Machine V F) :
    (f.join g).work sem uniforms m = g.work sem uniforms (f.work sem uniforms m) := by
  have hsignal := h.signal
  have hcells : ∀ rs, (∀ r ∈ f.targets, r ∉ rs) → ∀ i ∈ f.cells f.targets, i ∉ g.cells rs := by
    intro rs hrs i hi hi'
    cases i with
    | register r => exact hrs r hi hi'
    | fifo =>
      have hf : f.signal = 12 := hi
      have hg : g.signal = 12 := hi'
      omega
    | others => exact hi
  exact (both_of_joinable h).eq_comp (work_within h.left) (work_within h.right) (hcells _ h.sources)
    (hcells _ h.targets) m

end Packable

/-! ### The pass keeps the meaning -/

/-- Some results of this word arrive after the next instruction. -/
def Fields.delays (f : Fields) : Prop := f.signal = 8 ∨ (¬f.addIdle ∧ f.magicAdd ≠ 1 ∧ f.opAdd = 188)

/-- No plain word follows a word whose results are still on their way. -/
def Spaced (items : List Item) : Prop :=
  items.IsChain fun item next => next.plain → ¬(fields item.word).delays

/-- What is between a word and a candidate it may absorb. -/
def Plain (item : Item) : Prop := item.plain = true ∧ (fields item.word).AluForm

theorem not_delays {f : Fields} (h : f.AluForm) : ¬f.delays := by
  rintro (hs | ⟨hi, -, hop⟩)
  · have := h.kind
    simp [hs] at this
  · rcases (h.add.2 hi).2.2.1 with hb | hm
    · rw [hop] at hb
      exact absurd hb (by decide)
    · have := hm.1
      omega

theorem magic_late (s : Machine V F) (address : ℕ) (value : V) : (s.magic address value).late = s.late := by
  unfold Machine.magic
  split
  · rfl
  · dsimp only
    split <;> rfl

theorem addPart_late {f : Fields} (h : ¬f.delays) (m s : Machine V F) : (f.addPart sem m s).late = s.late := by
  simp only [Fields.delays, not_or, not_and] at h
  have hflags : ∀ s' : Machine V F, (f.addStore sem m s').late = s'.late ∨ f.addIdle := by
    intro s'
    by_cases hi : f.addIdle
    · exact .inr hi
    · refine .inl ?_
      unfold Fields.addStore
      split
      · rfl
      · split
        · exact magic_late _ _ _
        · rename_i hmagic
          rw [if_neg (h.2 hi hmagic)]
          split <;> rfl
  unfold Fields.addPart
  split
  · rfl
  · rename_i hi
    dsimp only
    rw [(hflags _).resolve_right hi]
    split <;> rfl

theorem mulPart_late (f : Fields) (m s : Machine V F) : (f.mulPart sem m s).late = s.late := by
  unfold Fields.mulPart
  split
  · rfl
  · split
    · rfl
    · split
      · exact magic_late _ _ _
      · rfl

theorem signalPart_late {f : Fields} (h : ¬f.delays) (m s : Machine V F) :
    (f.signalPart sem uniforms m s).late = s.late := by
  have h8 : f.signal ≠ 8 := fun h8 => h (.inl h8)
  unfold Fields.signalPart
  rw [if_neg h8]
  repeat' split
  all_goals rfl

/-- Nothing is on its way after any other word. -/
theorem advance_late {w : Word} (h : ¬(fields w).delays) (m : Machine V F) :
    (advance sem uniforms m w).late = [] := by
  unfold advance
  dsimp only
  rw [signalPart_late h, mulPart_late, addPart_late h]
  rfl

/-- A plain word may be taken out. -/
theorem Spaced.remove {between rest : List Item} {item : Item} (hb : ∀ p ∈ between, Plain p)
    (h : Spaced (between ++ item :: rest)) : Spaced (between ++ rest) := by
  unfold Spaced at *
  rw [List.isChain_append] at h ⊢
  obtain ⟨h1, h2, -⟩ := h
  refine ⟨h1, h2.tail, fun p hp q hq _ => not_delays (hb p (List.mem_of_mem_getLast? hp)).2⟩

variable (sem uniforms)

theorem run_cons (w : Word) (code : List Word) (m : Machine V F) :
    run sem uniforms (w :: code) m = run sem uniforms code (advance sem uniforms m w) := rfl

theorem run_append (c d : List Word) (m : Machine V F) :
    run sem uniforms (c ++ d) m = run sem uniforms d (run sem uniforms c m) := List.foldl_append

variable {sem uniforms}

variable (sem uniforms) in
/-- Joining a candidate from behind plain words. -/
theorem run_absorbed {w x y : Word} {between : List Item} {m : Machine V F}
    (hw : (fields w).Joinable (fields x)) (hy : fields y = (fields w).join (fields x))
    (hb : ∀ p ∈ between, Plain p ∧ conflicts (decode x) (decode p.word) = false) (hl : m.late = []) :
    run sem uniforms (w :: (between.map Item.word ++ [x])) m =
      run sem uniforms (y :: between.map Item.word) m := by
  have hform : (fields y).AluForm := hy ▸ hw.aluForm_join
  have hlate : ∀ v : Word, (fields v).AluForm → ∀ s : Machine V F, (advance sem uniforms s v).late = [] :=
    fun v hv s => advance_late (not_delays hv) s
  have hmove := foldl_move (advance sem uniforms) x (between.map Item.word)
    (fun s => s.late = [])
    (by
      simp only [List.mem_map, forall_exists_index, and_imp]
      rintro s _ p hp rfl -
      exact hlate _ (hb p hp).1.2 s)
    (by
      simp only [List.mem_map, forall_exists_index, and_imp]
      rintro s hs _ p hp rfl
      obtain ⟨⟨-, hp⟩, hapart⟩ := hb p hp
      rw [advance_work hw.right (hlate _ hp s), advance_work hp hs, advance_work hp (hlate _ hw.right s),
        advance_work hw.right hs]
      exact ((work_within hw.right).comm (work_within hp) (apart_of_conflicts hw.right hp hapart) s).symm)
    (advance sem uniforms m w) (hlate _ hw.left m) (hlate _ hw.right _)
  rw [run_cons, run_append, run_cons]
  refine hmove.trans ?_
  rw [run_cons, advance_work hw.right (hlate _ hw.left m), advance_work hw.left hl, advance_work hform hl, hy,
    work_join hw]
  rfl

variable (sem uniforms) in
/-- The inner loop. -/
theorem absorb_spec {w : Word} (between : List Item) {rest : List Item} (hw : (fields w).AluForm)
    (hb : ∀ p ∈ between, Plain p) (hs : Spaced (between ++ rest)) :
    ∃ y items, absorb (decode w) between rest = (decode y, items) ∧ (fields y).AluForm ∧ Spaced items ∧
      ∀ m : Machine V F, m.late = [] →
        run sem uniforms (w :: (between ++ rest).map Item.word) m =
          run sem uniforms (y :: items.map Item.word) m := by
  induction rest generalizing w between with
  | nil => exact ⟨w, between, rfl, hw, by simpa using hs, fun m _ => by rw [List.append_nil]⟩
  | cons item rest ih =>
    simp only [absorb]
    split
    · exact ⟨w, _, rfl, hw, hs, fun _ _ => rfl⟩
    rename_i hguard
    simp only [not_or, Bool.not_eq_true', Bool.not_eq_false] at hguard
    obtain ⟨-, hplain, hvalid⟩ := hguard
    have hx := (valid_decode rfl).mp hvalid
    -- Passing over the candidate.
    have hskip : ∃ y items, absorb (decode w) (between ++ [item]) rest = (decode y, items) ∧
        (fields y).AluForm ∧ Spaced items ∧ ∀ m : Machine V F, m.late = [] →
          run sem uniforms (w :: (between ++ item :: rest).map Item.word) m =
            run sem uniforms (y :: items.map Item.word) m := by
      have := ih (between ++ [item]) hw
        (by
          simp only [List.mem_append, List.mem_singleton]
          rintro p (hp | rfl)
          · exact hb p hp
          · exact ⟨hplain, hx⟩)
        (by simpa using hs)
      simpa using this
    split
    · rename_i hready
      split
      · rename_i merged hmerge
        have hjoin := joinable_of_merge hw hx hmerge
        have hfields := fields_merge hw hx hmerge
        obtain ⟨y, items, habsorb, hy, hitems, hrun⟩ := ih (w := merged.word) between
          (by rw [hfields]; exact hjoin.aluForm_join) hb (hs.remove hb)
        refine ⟨y, items, ?_, hy, hitems, fun m hl => ?_⟩
        · rw [merge_eq_decode hw hx hmerge]
          exact habsorb
        · rw [← hrun m hl]
          simp only [List.map_append, List.map_cons]
          have hmove := run_absorbed sem uniforms hjoin hfields
            (fun p hp => ⟨hb p hp, by
              have := List.all_eq_true.mp hready p hp
              simpa using this⟩) hl
          rw [show w :: (between.map Item.word ++ item.word :: rest.map Item.word) =
              w :: (between.map Item.word ++ [item.word]) ++ rest.map Item.word by simp,
            run_append, hmove, ← run_append]
          rfl
      · exact hskip
    · exact hskip

/-- **Packing keeps the meaning of a program.** -/
theorem run_pack {items : List Item} (hs : Spaced items) {m : Machine V F}
    (hl : ∀ item ∈ items.head?, item.plain → m.late = []) :
    run sem uniforms (pack items) m = run sem uniforms (items.map Item.word) m := by
  induction items using pack.induct generalizing m with
  | case1 => rw [pack]; rfl
  | case2 item rest first hfirst ih =>
    obtain ⟨hplain, hvalid⟩ := hfirst
    obtain ⟨y, items, habsorb, hy, hitems, hrun⟩ := absorb_spec sem uniforms [] ((valid_decode rfl).mp hvalid) (by simp) hs.tail
    rw [pack, if_pos ⟨hplain, hvalid⟩]
    rw [habsorb] at ih ⊢
    refine Eq.trans ?_ (hrun m (hl item (by simp) hplain)).symm
    have hword : (decode y).word = y := by rw [decode_of_form rfl hy]; rfl
    rw [hword, run_cons, run_cons]
    exact ih hitems fun _ _ _ => advance_late (not_delays hy) m
  | case3 item rest first hfirst ih =>
    rw [pack, if_neg hfirst, List.map_cons, run_cons, run_cons]
    refine ih hs.tail fun next hnext hplain => advance_late ?_ m
    cases rest with
    | nil => simp at hnext
    | cons next' rest =>
      obtain rfl : next' = next := by simpa using hnext
      exact (List.isChain_cons_cons.mp hs).1 hplain

end Meaning

end Pi5Drivers.Qpu
