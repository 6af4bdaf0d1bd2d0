import Pi5Drivers.Qpu.Forms
import Pi5Drivers.Validate.Program
import Mathlib.Data.List.TakeWhile

/-! Accepted programs are safe. Every shape the checker takes off the front of a
program is executed by the abstract machine of `Qpu/Action.lean`, in step: the
two agree on the defined registers, the uniforms popped, the varyings loaded, the
outputs stored and the lookups made. An accepted program therefore runs to its
thread end and leaves nothing undone. -/

namespace Pi5Drivers.Validate

open Qpu Abi Tracked

/-- The stage a set of rules describes. -/
def ProgramRules.machine (rules : ProgramRules) : Stage where
  pixel := rules.stage = .pixel
  attributes := rules.vertexScalars
  varyings := rules.varyingScalars
  targetReads := rules.targetReads

/-- A lookup's configuration words are adjacent, and the tokens there name a
binding the rules allow. -/
structure TexturePatch.Allowed (rules : ProgramRules) (uniforms : List UWord) (p : TexturePatch) :
    Prop where
  adjacent : p.config1 = p.config0 + 1
  inside : p.config1 < uniforms.length
  tokens : if p.constant then
      rules.constants = true ∧ uniforms[p.config0]? = some constantTextureToken ∧
        uniforms[p.config1]? = some constantSamplerToken
    else
      ∃ h : p.binding < 4, rules.bindingKinds ⟨p.binding, h⟩ ≠ 0 ∧
        (rules.bindingKinds ⟨p.binding, h⟩ = bindingTexture → rules.stage = .pixel) ∧
        uniforms[p.config0]? = some (textureToken ||| BitVec.ofNat 32 p.binding <<< bindingTokenShift) ∧
        uniforms[p.config1]? = some (samplerToken ||| BitVec.ofNat 32 p.binding <<< bindingTokenShift)

/-- The positions of the configuration words. -/
def configurations (patches : List TexturePatch) : List ℕ :=
  patches.flatMap fun p => [p.config0, p.config1]

section Simulation

variable (rules : ProgramRules) (uniforms : List UWord)

/-- The walk and the machine agree. -/
structure Sim (s : State) (o : Outputs) (t : Thread) : Prop where
  defined : ∀ r, r ∈ t.defined ↔ s.defines r = true
  late : t.late = ∅
  switched : t.switched = false
  ended : t.ended = none
  popped : t.popped = s.used
  used : s.used ≤ uniforms.length
  varyings : t.varyings = s.varyings
  noVaryings : rules.stage ≠ .pixel → s.varyings = 0
  payload : rules.stage = .pixel → rules.varyingScalars ≠ 0 → s.defines 0 = true ∧ s.defines 3 = true
  stored : t.stored.Nodup
  written : ∀ i, i ∈ t.stored ↔ i < outputs rules ∧ s.written.getLsbD i = true
  unwritten : rules.stage = .pixel → t.stored = []
  texels : t.texels = 0
  tiles : t.tiles = 0
  locked : t.locked = s.targetRead
  configured : t.configured = configurations o.patches
  allowed : ∀ p ∈ o.patches, p.Allowed rules uniforms
  samples : o.patches.length = s.samples

/-- The machine gets from one point of the program to another. -/
def Runs (t : Thread) (rest : List Word) (t' : Thread) (rest' : List Word) : Prop :=
  ∃ c, rest = c ++ rest' ∧ execute rules.machine uniforms c t = some t'

/-- From `s` to `s'` the walk takes some words, and the machine executes them. -/
def Advances (s : State) (o : Outputs) (s' : State) (o' : Outputs) : Prop :=
  s'.left < s.left ∧ ∀ t, Sim rules uniforms s o t →
    ∃ t', Runs rules uniforms t s.rest t' s'.rest ∧ Sim rules uniforms s' o' t'

end Simulation

/-! ### One word -/

section Words

variable {stage : Stage} {uniforms : List UWord} {t : Thread} {w : Word} {a : Action}

theorem step_eq (ha : (fields w).action = some a) (hr : t.ready a) :
    step stage uniforms t w = (t.write a).access stage uniforms t.switched a.access := by
  simp [step, ha, hr]

/-- An instruction not preceded by a lone thread switch. -/
theorem step_settled (ha : (fields w).action = some a) (hr : t.ready a) (hs : t.switched = false) :
    step stage uniforms t w = (t.write a).access stage uniforms false a.access := by
  rw [step_eq ha hr, hs]

theorem execute_cons (c : List Word) :
    execute stage uniforms (w :: c) t = (step stage uniforms t w).bind (execute stage uniforms c) := rfl

theorem execute_append (c d : List Word) :
    execute stage uniforms (c ++ d) t = (execute stage uniforms c t).bind (execute stage uniforms d) := by
  simp only [execute, List.foldlM_append]
  rfl

@[simp] theorem execute_nil : execute stage uniforms [] t = some t := rfl

/-- Nothing is on its way. -/
structure Quiet (t : Thread) : Prop where
  late : t.late = ∅
  switched : t.switched = false
  ended : t.ended = none

theorem Sim.quiet {rules : ProgramRules} {s : State} {o : Outputs} (h : Sim rules uniforms s o t) :
    Quiet t := ⟨h.late, h.switched, h.ended⟩

theorem action_nop : (fields nop).action = some {} := by decide

theorem step_nop (hq : Quiet t) : step stage uniforms t nop = some t := by
  obtain ⟨h1, h2, h3⟩ := hq
  rw [step_eq action_nop (by simp [Thread.ready, h3])]
  obtain ⟨defined, late, contents, flagged, popped, configured, texels, varyings, stored, tiles,
    switched, locked, ended⟩ := t
  simp only at h1 h2 h3
  subst h1 h2 h3
  simp [Thread.write, Thread.access]

theorem execute_nops (hq : Quiet t) {c : List Word} (hc : ∀ w ∈ c, w = nop) :
    execute stage uniforms c t = some t := by
  induction c with
  | nil => rfl
  | cons w c ih =>
    rw [execute_cons, hc w (by simp), step_nop hq]
    exact ih fun v hv => hc v (by simp [hv])

/-- An instruction that leaves the register file alone. -/
theorem write_idle (hq : Quiet t) (hw : a.writes = []) (hl : a.late = []) (hm : a.merges = [])
    (hf : a.setsFlags = false) : t.write a = t := by
  obtain ⟨h1, h2, h3⟩ := hq
  obtain ⟨defined, late, contents, flagged, popped, configured, texels, varyings, stored, tiles,
    switched, locked, ended⟩ := t
  simp only at h1 h2 h3
  subst h1 h2 h3
  simp [Thread.write, hw, hl, hm, hf]

end Words

/-! ### The defined registers -/

theorem defines_define (m : BitVec 32) {r : ℕ} (hr : r < 32) (x : ℕ) :
    defines (define m r) x = true ↔ x = r ∨ defines m x = true := by
  unfold defines define
  rw [BitVec.getLsbD_or, BitVec.getLsbD_shiftLeft]
  by_cases hx : x = r
  · subst hx; simp [hr]
  · by_cases hlt : x < r
    · simp [hx, hlt]
    · have : x - r ≠ 0 := by omega
      simp [hx, this]

theorem defines_lt {m : BitVec 32} {r : ℕ} (h : defines m r = true) : r < 32 := by
  simp only [defines, Bool.and_eq_true, decide_eq_true_eq] at h
  exact h.1

namespace State

variable {s : State}

@[simp] theorem defines_define {r : ℕ} (hr : r < 32) (x : ℕ) :
    (s.define r).defines x = true ↔ x = r ∨ s.defines x = true :=
  Validate.defines_define s.defined hr x

@[simp] theorem defines_skip (n r : ℕ) : (s.skip n).defines r = s.defines r := rfl

theorem defines_lt {r : ℕ} (h : s.defines r = true) : r < 32 := Validate.defines_lt h

/-- A word of the instruction set is still in the program. -/
theorem left_of_action {a : Action} (h : (fields (s.word 0)).action = some a) : 1 ≤ s.left := by
  unfold left
  rcases hr : s.rest with _ | ⟨w, rest⟩
  · have h0 : (fields 0#64).action = none := by decide
    rw [word, hr, List.getD_nil, h0] at h
    cases h
  · simp

/-- Everything but the program and the registers. -/
def frame (s : State) : ℕ × ℕ × BitVec 32 × Bool × ℕ :=
  (s.used, s.varyings, s.written, s.targetRead, s.samples)

theorem rest_one (h : 1 ≤ s.left) : s.rest = [s.word 0] ++ (s.skip 1).rest := by
  unfold left at h
  rcases hr : s.rest with _ | ⟨w, rest⟩
  · simp [hr] at h
  · simp [word, skip, hr]

theorem rest_two (h : 2 ≤ s.left) : s.rest = [s.word 0, s.word 1] ++ (s.skip 2).rest := by
  unfold left at h
  rcases hr : s.rest with _ | ⟨w, _ | ⟨v, rest⟩⟩
  · simp [hr] at h
  · simp [hr] at h
  · simp [word, skip, hr]

theorem rest_three (h : 3 ≤ s.left) :
    s.rest = [s.word 0, s.word 1, s.word 2] ++ (s.skip 3).rest := by
  unfold left at h
  rcases hr : s.rest with _ | ⟨w, _ | ⟨v, _ | ⟨x, rest⟩⟩⟩
  · simp [hr] at h
  · simp [hr] at h
  · simp [hr] at h
  · simp [word, skip, hr]

theorem rest_four (h : 4 ≤ s.left) :
    s.rest = [s.word 0, s.word 1, s.word 2, s.word 3] ++ (s.skip 4).rest := by
  unfold left at h
  rcases hr : s.rest with _ | ⟨w, _ | ⟨v, _ | ⟨x, _ | ⟨y, rest⟩⟩⟩⟩
  · simp [hr] at h
  · simp [hr] at h
  · simp [hr] at h
  · simp [hr] at h
  · simp [word, skip, hr]

@[simp] theorem left_skip (n : ℕ) : (s.skip n).left = s.left - n := by simp [left, skip]

@[simp] theorem left_define (r : ℕ) : (s.define r).left = s.left := rfl

theorem left_padding : s.padding.left ≤ s.left := (List.dropWhile_sublist _).length_le

end State

theorem advances_words {rules : ProgramRules} {uniforms : List UWord} {s s' : State} {o o' : Outputs}
    {c : List Word} (hc : c ≠ []) (hrest : s.rest = c ++ s'.rest)
    (h : ∀ t, Sim rules uniforms s o t →
      ∃ t', execute rules.machine uniforms c t = some t' ∧ Sim rules uniforms s' o' t') :
    Advances rules uniforms s o s' o' := by
  refine ⟨?_, fun t ht => ?_⟩
  · have := List.length_pos_iff.mpr hc
    simp only [State.left, hrest, List.length_append]
    omega
  · obtain ⟨t', hexec, hsim⟩ := h t ht
    exact ⟨t', ⟨c, hrest, hexec⟩, hsim⟩

/-! ### Instructions that only touch the register file -/

section Registers

variable {rules : ProgramRules} {uniforms : List UWord} {s s' : State} {o : Outputs} {t : Thread}
  {w : Word} {a : Action}

theorem Sim.ready (h : Sim rules uniforms s o t)
    (hreads : ∀ r ∈ a.reads ++ a.merges, s.defines r = true) (hflag : a.merges ≠ [] → t.flagged = true) :
    t.ready a := by
  refine ⟨fun r hr => ⟨(h.defined r).mpr (hreads r hr), by simp [h.late]⟩, by simp [h.late], hflag,
    .inl h.ended⟩

variable (s') in
theorem Sim.write (h : Sim rules uniforms s o t) (hlate : a.late = [])
    (hd : ∀ r, s'.defines r = true ↔ r ∈ a.writes ∨ s.defines r = true) (hf : s'.frame = s.frame) :
    Sim rules uniforms s' o (t.write a) := by
  simp only [State.frame, Prod.mk.injEq] at hf
  obtain ⟨hu, hv, hw, ht, hs⟩ := hf
  constructor
  case defined =>
    intro r
    simp only [Thread.write, h.late, Finset.union_empty, Finset.mem_union, List.mem_toFinset, h.defined,
      hd, or_comm]
  case late => simp [Thread.write, hlate]
  case switched => rfl
  case ended => simp [Thread.write, h.ended]
  case popped => exact h.popped.trans hu.symm
  case used => rw [hu]; exact h.used
  case varyings => exact h.varyings.trans hv.symm
  case noVaryings => rw [hv]; exact h.noVaryings
  case payload =>
    intro hp hn
    exact ⟨(hd 0).mpr (.inr (h.payload hp hn).1), (hd 3).mpr (.inr (h.payload hp hn).2)⟩
  case stored => exact h.stored
  case written => rw [hw]; exact h.written
  case unwritten => exact h.unwritten
  case texels => exact h.texels
  case tiles => exact h.tiles
  case locked => exact h.locked.trans ht.symm
  case configured => exact h.configured
  case allowed => exact h.allowed
  case samples => rw [hs]; exact h.samples

variable (s') in
/-- One instruction without access to a unit. -/
theorem Sim.step_write (h : Sim rules uniforms s o t) (ha : (fields w).action = some a)
    (hacc : a.access = .none) (hlate : a.late = [])
    (hreads : ∀ r ∈ a.reads ++ a.merges, s.defines r = true) (hflag : a.merges ≠ [] → t.flagged = true)
    (hd : ∀ r, s'.defines r = true ↔ r ∈ a.writes ∨ s.defines r = true) (hf : s'.frame = s.frame) :
    step rules.machine uniforms t w = some (t.write a) ∧ Sim rules uniforms s' o (t.write a) := by
  refine ⟨?_, h.write _ hlate hd hf⟩
  rw [step_eq ha (h.ready hreads hflag), hacc]
  rfl

/-- A shape of one such instruction. -/
theorem advances_write (hrest : s.rest = [w] ++ s'.rest) (ha : (fields w).action = some a)
    (hacc : a.access = .none) (hlate : a.late = []) (hmerges : a.merges = [])
    (hreads : ∀ r ∈ a.reads, s.defines r = true)
    (hd : ∀ r, s'.defines r = true ↔ r ∈ a.writes ∨ s.defines r = true) (hf : s'.frame = s.frame) :
    Advances rules uniforms s o s' o := by
  refine advances_words (by simp) hrest fun t h => ?_
  obtain ⟨h1, h2⟩ := h.step_write s' ha hacc hlate (by simpa [hmerges] using hreads)
    (by simp [hmerges]) hd hf
  exact ⟨_, by rw [execute_cons, h1]; rfl, h2⟩

end Registers

/-! ### The shapes of the body -/

section Shapes

variable {rules : ProgramRules} {uniforms : List UWord} {u : ℕ → UWord} {s s' : State} {o o' : Outputs}

/-- What every shape guarantees when it takes words. -/
def Sound (rules : ProgramRules) (uniforms : List UWord) (shape : State → Check (Option State)) : Prop :=
  ∀ s o s' o', (shape s).run (uniforms.getD · 0#32) o = (.ok (some s'), o') →
    Advances rules uniforms s o s' o'

theorem rejectIf_ok {c : Prop} [Decidable c] {a : Unit} :
    (rejectIf c).run u o = (.ok a, o') ↔ ¬c ∧ o = o' := reject_ok

/-- A packable word that loads no uniform. -/
theorem advances_alu (hform : (fields (s.word 0)).AluForm) (hs : (fields (s.word 0)).signal ≠ 12)
    (hreads : ∀ r ∈ (fields (s.word 0)).sources, s.defines r = true) {dst : ℕ} (hdst : dst < 32)
    (htargets : (fields (s.word 0)).targets = [dst]) :
    Advances rules uniforms s o ((s.skip 1).define dst) o := by
  have ha := action_alu hform
  rw [if_neg hs] at ha
  refine advances_write (s.rest_one (s.left_of_action ha)) ha rfl rfl rfl hreads (fun r => ?_) rfl
  rw [State.defines_define hdst, htargets, List.mem_singleton, State.defines_skip]

theorem moveImmediate_sound : Sound rules uniforms moveImmediate := by
  intro s o s' o' h
  simp only [moveImmediate, ite_ok, pure_ok, Option.some.injEq, reduceCtorEq, false_and, and_false,
    or_false] at h
  obtain ⟨⟨hd, hi, hw⟩, rfl, rfl⟩ := h
  have hf : fields (s.word 0) = addOnly 14 0 _ 249 _ 3 :=
    (congrArg fields hw).trans (fields_add_signal (by decide) (by omega) (by omega)
      (by decide) (show 14 < 32 by decide))
  refine advances_alu ?_ (by rw [hf]; simp [addOnly]) ?_ hd (by rw [hf, targets_add (by decide)])
  · rw [hf]
    exact aluForm_add _ (by simp) hd (.inr ⟨rfl, rfl, rfl⟩) (by simpa using hi) (.inl ⟨rfl, rfl, rfl⟩)
  · rw [hf, sources_add]
    simp

/-- The registers of a mask beyond those of another. -/
theorem defines_of_masks {f : Fields} {rs : List ℕ} (hrs : ∀ r ∈ rs, r < 32) {m : BitVec 32}
    (h : (loadFifo f ||| regMask rs).setWidth 32 &&& ~~~m = 0#32) : ∀ r ∈ rs, defines m r = true := by
  intro r hr
  have hlt := hrs r hr
  have hbit := congrArg (fun x => x.getLsbD r) h
  simp only [BitVec.getLsbD_and, BitVec.getLsbD_setWidth, BitVec.getLsbD_not,
    getLsbD_reads hrs hlt] at hbit
  simp [hlt, hr] at hbit
  simp [defines, hlt, hbit]

theorem defines_or_mask {f : Fields} {rs : List ℕ} (hrs : ∀ r ∈ rs, r < 32) (m : BitVec 32) (r : ℕ) :
    defines (m ||| (loadFifo f ||| regMask rs).setWidth 32) r = true ↔ r ∈ rs ∨ defines m r = true := by
  by_cases hlt : r < 32
  · simp only [defines, BitVec.getLsbD_or, BitVec.getLsbD_setWidth, getLsbD_reads hrs hlt]
    simp [hlt, or_comm]
  · have : r ∉ rs := fun hr => hlt (hrs r hr)
    simp [defines, hlt, this]

/-- The next uniform is taken. -/
theorem Sim.taken {t : Thread} (s' : State) (h : Sim rules uniforms s o t)
    (hused : s.used < uniforms.length) (contents : ℕ → Option UWord) (hu : s'.used = s.used + 1) (hd : s'.defined = s.defined)
    (hf : s'.frame.2 = s.frame.2) :
    Sim rules uniforms s' o { t with popped := t.popped + 1, contents := contents } := by
  simp only [State.frame, Prod.mk.injEq] at hf
  obtain ⟨hv, hw, ht, hs⟩ := hf
  have hdef : ∀ r, s'.defines r = s.defines r := fun r => by simp [State.defines, hd]
  constructor
  case defined => intro r; rw [hdef]; exact h.defined r
  case popped => simp [h.popped, hu]
  case used => rw [hu]; exact hused
  case varyings => exact h.varyings.trans hv.symm
  case noVaryings => rw [hv]; exact h.noVaryings
  case payload => simpa only [hdef] using h.payload
  case written => rw [hw]; exact h.written
  case locked => exact h.locked.trans ht.symm
  case samples => rw [hs]; exact h.samples
  all_goals first
    | exact h.late | exact h.switched | exact h.ended | exact h.stored | exact h.unwritten
    | exact h.texels | exact h.tiles | exact h.configured | exact h.allowed

theorem Sim.pop_eq {t : Thread} (h : Sim rules uniforms s o t) (hused : s.used < uniforms.length) :
    t.pop uniforms = some (uniforms.getD s.used 0#32, { t with popped := t.popped + 1 }) := by
  simp [Thread.pop, h.popped, hused]

/-- A uniform load, alone or paired. -/
theorem Sim.pop {t : Thread} (s' : State) (h : Sim rules uniforms s o t)
    (hused : s.used < uniforms.length) (dst : ℕ) (hu : s'.used = s.used + 1) (hd : s'.defined = s.defined)
    (hf : s'.frame.2 = s.frame.2) :
    ∃ t', t.access rules.machine uniforms false (.uniform dst) = some t' ∧
      Sim rules uniforms s' o t' ∧ t'.contents dst = some (uniforms.getD s.used 0#32) :=
  ⟨_, by simp only [Thread.access, h.pop_eq hused]; rfl, h.taken _ hused _ hu hd hf, by simp⟩

/-- A packable word that loads a uniform. -/
theorem advances_uniform (hform : (fields (s.word 0)).AluForm) (hs : (fields (s.word 0)).signal = 12)
    (hreads : ∀ r ∈ (fields (s.word 0)).sources, s.defines r = true)
    (hused : s.used < uniforms.length) (hrest : s'.rest = (s.skip 1).rest)
    (hd : ∀ r, s'.defines r = true ↔ r ∈ (fields (s.word 0)).targets ∨ s.defines r = true)
    (hf : s'.frame = (s.used + 1, s.frame.2)) : Advances rules uniforms s o s' o := by
  have ha := action_alu hform
  rw [if_pos hs] at ha
  refine advances_words (c := [s.word 0]) (by simp) (by rw [hrest]; exact s.rest_one (s.left_of_action ha)) fun t h => ?_
  simp only [State.frame, Prod.mk.injEq] at hf
  have hmid := h.write { s' with used := s.used } (a := ⟨(fields (s.word 0)).sources,
    (fields (s.word 0)).targets, [], [], false, .uniform (fields (s.word 0)).flags⟩) rfl hd
    (by simp [State.frame, hf])
  obtain ⟨t', haccess, hsim, -⟩ := hmid.pop s' hused (fields (s.word 0)).flags hf.1 rfl rfl
  refine ⟨t', ?_, hsim⟩
  rw [execute_cons, step_eq ha (h.ready (by simpa using hreads) (by simp)), h.switched]
  simp only [haccess, Option.bind_some, execute_nil]

theorem paired_sound : Sound rules uniforms (paired uniforms.length) := by
  intro s o s' o' h
  simp only [paired, ite_ok, bind_ok, rejectIf_ok, pure_ok, Option.some.injEq, reduceCtorEq,
    false_and, and_false, or_false] at h
  obtain ⟨⟨hv, -⟩, _, _, ⟨hreads, rfl⟩, _, _, ⟨hused, rfl⟩, rfl, rfl⟩ := h
  have hform := (valid_decode rfl).mp hv
  rw [decode_of_form rfl hform] at hreads hused ⊢
  simp only [Fields.decoded, not_not] at hreads hused ⊢
  have hsources := defines_of_masks hform.sources_lt hreads
  have htargets := defines_or_mask (f := fields (s.word 0)) hform.targets_lt s.defined
  by_cases hs : (fields (s.word 0)).signal = 12
  · simp only [hs, true_and, not_le, ge_iff_le] at hused
    simp only [hs, ↓reduceIte]
    exact advances_uniform hform hs hsources hused rfl htargets rfl
  · simp only [hs, ↓reduceIte]
    have ha := action_alu hform
    rw [if_neg hs] at ha
    exact advances_write (s.rest_one (s.left_of_action ha)) ha rfl rfl rfl hsources htargets rfl

theorem smallImmediate_sound : Sound rules uniforms smallImmediate := by
  intro s o s' o' h
  simp only [smallImmediate, ite_ok, bind_ok, rejectIf_ok, pure_ok, Option.some.injEq, reduceCtorEq,
    false_and, and_false, or_false] at h
  have h6 : ∀ lo, bits (s.word 0) lo 6 < 64 := fun lo => bits_lt _ _ _
  have h5 : bits (s.word 0) 53 5 < 32 := bits_lt _ _ _
  have h8 : bits (s.word 0) 24 8 < 256 := bits_lt _ _ _
  obtain ⟨hs, ⟨⟨hd, ho, hw⟩, _, _, ⟨hr, rfl⟩, rfl, rfl⟩ | ⟨-, hs', -⟩⟩ |
    ⟨-, hs, _, _, ⟨hr, rfl⟩, rfl, rfl⟩ := h
  · have hf := (congrArg fields hw).trans (fields_add_signal h8 (h6 _) (h6 _) (h6 _) h5)
    refine advances_alu ?_ ?_ ?_ hd ?_ <;> rw [hf] <;> rcases hs with hs | hs <;>
      simp only [hs] at hr ⊢
    · simp only [↓reduceIte, not_or, not_not, not_le, ge_iff_le] at hr
      exact aluForm_add _ (by simp) hd (.inl ho) (by simpa using hr.1)
        (.inr (by simpa using State.defines_lt hr.2))
    · simp only [Nat.reduceEqDiff, ↓reduceIte, not_or, not_not, not_le, ge_iff_le] at hr
      exact aluForm_add _ (by simp) hd (.inl ho) (by simpa using State.defines_lt hr.2)
        (.inr (by simpa using hr.1))
    · simp [addOnly]
    · simp [addOnly]
    · simp only [↓reduceIte, not_or, not_not] at hr
      rw [sources_add, if_pos rfl]
      split <;> simp [hr.2]
    · simp only [Nat.reduceEqDiff, ↓reduceIte, not_or, not_not] at hr
      rw [sources_add]
      simp [hr.2]
    · exact targets_add (by decide)
    · exact targets_add (by decide)
  · omega
  · simp only [not_or, not_le, ge_iff_le, not_not] at hr
    obtain ⟨hd, hw, hr⟩ := hr
    have hf := (congrArg fields hw).trans (fields_mul_signal (by decide) (h6 _) (h6 _) (h6 _) h5)
    refine advances_alu ?_ ?_ ?_ hd ?_ <;> rw [hf] <;> rcases hs with hs | hs <;>
      simp only [hs] at hr ⊢
    · simp only [↓reduceIte, not_or, not_not, not_le] at hr
      exact aluForm_mul _ (by simp) hd (by simpa using hr.1) (by simpa using State.defines_lt hr.2)
    · simp only [Nat.reduceEqDiff, ↓reduceIte, not_or, not_not, not_le] at hr
      exact aluForm_mul _ (by simp) hd (by simpa using State.defines_lt hr.2) (by simpa using hr.1)
    · simp [mulOnly]
    · simp [mulOnly]
    · simp only [↓reduceIte, not_or, not_not] at hr
      rw [sources_mul]
      simp [hr.2]
    · simp only [Nat.reduceEqDiff, ↓reduceIte, not_or, not_not] at hr
      rw [sources_mul]
      simp [hr.2]
    · exact targets_mul (by decide)
    · exact targets_mul (by decide)

section Sequences

variable {dst src : ℕ} {reads reads' : List ℕ} (hdst : dst < 32)
include hdst

/-- A flag test and its sole conditional consumer. -/
theorem advances_pair (hleft : 2 ≤ s.left)
    (h0 : (fields (s.word 0)).action = some { reads := reads, writes := [dst], setsFlags := true })
    (h1 : (fields (s.word 1)).action = some { reads := [src], merges := [dst] })
    (hreads : ∀ r ∈ reads, s.defines r = true) (hsrc : src = dst ∨ s.defines src = true) :
    Advances rules uniforms s o ((s.skip 2).define dst) o := by
  refine advances_words (by simp) (s.rest_two hleft) fun t h => ?_
  have hd : ∀ r, (s.define dst).defines r = true ↔ r ∈ [dst] ∨ s.defines r = true := fun r => by
    rw [State.defines_define hdst, List.mem_singleton]
  obtain ⟨hx, hsim⟩ := h.step_write (s.define dst) h0 rfl rfl (by simpa using hreads) (by simp)
    hd rfl
  obtain ⟨hy, hsim'⟩ := hsim.step_write ((s.skip 2).define dst) h1 rfl rfl
    (by simp [hd, hsrc]) (by simp [Thread.write]) (by simp [State.define, State.skip, State.defines]) rfl
  exact ⟨_, by rw [execute_cons, hx, Option.bind_some, execute_cons, hy]; rfl, hsim'⟩

/-- A flag test, a word that clears the destination, and the conditional consumer. -/
theorem advances_triple (hleft : 3 ≤ s.left)
    (h0 : (fields (s.word 0)).action = some { reads := reads, writes := [dst], setsFlags := true })
    (h1 : (fields (s.word 1)).action = some { reads := reads', writes := [dst] })
    (h2 : (fields (s.word 2)).action = some { reads := [src], merges := [dst] })
    (hreads : ∀ r ∈ reads, s.defines r = true)
    (hreads' : ∀ r ∈ reads', r = dst ∨ s.defines r = true)
    (hsrc : src = dst ∨ s.defines src = true) :
    Advances rules uniforms s o ((s.skip 3).define dst) o := by
  refine advances_words (by simp) (s.rest_three hleft) fun t h => ?_
  have hd : ∀ r, (s.define dst).defines r = true ↔ r ∈ [dst] ∨ s.defines r = true := fun r => by
    rw [State.defines_define hdst, List.mem_singleton]
  obtain ⟨hx, hsim⟩ := h.step_write (s.define dst) h0 rfl rfl (by simpa using hreads) (by simp)
    hd rfl
  obtain ⟨hy, hsim'⟩ := hsim.step_write (s.define dst) h1 rfl rfl
    (by simpa [hd] using hreads') (by simp) (by simp [hd]) rfl
  obtain ⟨hz, hsim''⟩ := hsim'.step_write ((s.skip 3).define dst) h2 rfl rfl
    (by simp [hd, hsrc]) (by simp [Thread.write]) (by simp [State.define, State.skip, State.defines]) rfl
  exact ⟨_, by rw [execute_cons, hx, Option.bind_some, execute_cons, hy, Option.bind_some,
    execute_cons, hz]; rfl, hsim''⟩

end Sequences

theorem selectCopy_sound : Sound rules uniforms selectCopy := by
  intro s o s' o' h
  simp only [selectCopy, ite_ok, bind_ok, rejectIf_ok, pure_ok, Option.some.injEq, reduceCtorEq,
    false_and, and_false, or_false, not_or, not_not] at h
  obtain ⟨⟨hd, hw⟩, _, _, ⟨⟨hmask, hvalue, hleft⟩, rfl⟩, _, _, ⟨⟨hne, hsource, hw'⟩, rfl⟩, rfl, rfl⟩ := h
  have hf0 := (congrArg fields hw).trans
    (fields_selectFalse (by omega) (bits_lt _ _ _) (bits_lt _ _ _))
  have hf1 := (congrArg fields hw').trans (fields_copyUnless (by omega) (bits_lt _ _ _))
  exact advances_pair hd (by omega) (by rw [hf0, action_selectFalse hd])
    (by rw [hf1, action_copyUnless hd]) (by simp [hmask, hvalue]) (.inr hsource)

theorem comparison_test {op flag : ℕ} (h : op = 181 ∧ flag = 1 ∨ comparison op flag = true) :
    flag ∈ [1, 2, 3] ∧ op ∈ [60, 120, 181, 182, 183, 197] := by
  simp only [comparison, Bool.or_eq_true, Bool.and_eq_true, beq_iff_eq, decide_eq_true_eq,
    List.mem_cons, List.not_mem_nil, or_false] at h ⊢
  omega

theorem flagPair_sound : Sound rules uniforms flagPair := by
  intro s o s' o' h
  simp only [flagPair, ite_ok, bind_ok, rejectIf_ok, pure_ok, Option.some.injEq, reduceCtorEq,
    false_and, and_false, or_false, not_or, not_not] at h
  obtain ⟨⟨hd, hop, hw⟩, _, _, ⟨⟨ha, hb, -, -, hleft⟩, rfl⟩, _, _, ⟨hlast, rfl⟩, rfl, rfl⟩ := h
  obtain ⟨hflag, htest⟩ := comparison_test hop
  have hf0 := (congrArg fields hw).trans (fields_flagAndZero (bits_lt _ _ _) (by omega)
    (bits_lt _ _ _) (bits_lt _ _ _) (bits_lt _ _ _))
  have h0 := (congrArg Fields.action hf0).trans (action_flagAndZero hd hflag htest)
  have hlast' : s.word 1 = copyUnless (bits (s.word 0) 38 6) (bits (s.word 0) 6 6) ∨
      s.word 1 = invertWhere 0x20#64 (bits (s.word 0) 38 6) ∨
      s.word 1 = invertWhere 0x28#64 (bits (s.word 0) 38 6) := by tauto
  rcases hlast' with hw' | hw' | hw'
  · have hf1 := (congrArg fields hw').trans (fields_copyUnless (by omega) (bits_lt _ _ _))
    exact advances_pair hd (by omega) h0 (by rw [hf1, action_copyUnless hd]) (by simp [ha, hb]) (.inr ha)
  · have hf1 := (congrArg fields hw').trans
      (fields_invertWhere 0x20 (by decide) (by omega))
    exact advances_pair hd (by omega) h0 (by rw [hf1, action_invertWhere hd (by decide)])
      (by simp [ha, hb]) (.inl rfl)
  · have hf1 := (congrArg fields hw').trans
      (fields_invertWhere 0x28 (by decide) (by omega))
    exact advances_pair hd (by omega) h0 (by rw [hf1, action_invertWhere hd (by decide)])
      (by simp [ha, hb]) (.inl rfl)

/-- A XOR in the register file. -/
theorem action_xor {dst a b : ℕ} (hd : dst < 32) (ha : a < 32) (hb : b < 32) :
    (fields (add 183 dst a b)).action = some { reads := [a, b], writes := [dst] } := by
  have hform : (addOnly 0 0 dst 183 a b).AluForm :=
    aluForm_add _ (by simp) hd (.inl (by decide)) (by simpa using ha) (.inr (by simpa using hb))
  rw [fields_add_plain (by decide) (by omega) (by omega) (by omega), action_alu hform, sources_add,
    targets_add (by decide)]
  simp [addOnly]

theorem normalization_sound : Sound rules uniforms normalization := by
  intro s o s' o' h
  simp only [normalization, ite_ok, bind_ok, rejectIf_ok, pure_ok, Option.some.injEq, reduceCtorEq,
    false_and, and_false, or_false, not_or, not_not] at h
  obtain ⟨⟨hd, hw⟩, _, _, ⟨⟨ha, hb, -, -, hleft, hw1, hw2⟩, rfl⟩, rfl, rfl⟩ := h
  have hf0 := (congrArg fields hw).trans (fields_add_flag (by decide) (by omega)
    (bits_lt _ _ _) (bits_lt _ _ _) (show 1 < 128 by decide))
  have hf2 := (congrArg fields hw2).trans (fields_copyUnless (by omega) (bits_lt _ _ _))
  exact advances_triple hd (by omega) (by rw [hf0, action_flagging hd (by decide) (by decide)])
    (by rw [hw1, action_xor hd hd hd]) (by rw [hf2, action_copyUnless hd]) (by simp [ha, hb]) (by simp)
    (.inr ha)

theorem comparisonTriple_sound : Sound rules uniforms comparisonTriple := by
  intro s o s' o' h
  simp only [comparisonTriple, ite_ok, bind_ok, rejectIf_ok, pure_ok, Option.some.injEq, reduceCtorEq,
    false_and, and_false, or_false, not_or, not_not] at h
  obtain ⟨⟨hd, hop, hw⟩, _, _, ⟨⟨ha, hb, -, -, hleft, hw1⟩, rfl⟩, _, _, ⟨hlast, rfl⟩, rfl, rfl⟩ := h
  obtain ⟨hflag, htest⟩ := comparison_test (.inr hop)
  have hf0 := (congrArg fields hw).trans (fields_add_flag (bits_lt _ _ _) (by omega)
    (bits_lt _ _ _) (bits_lt _ _ _) (bits_lt _ _ _))
  have h0 := (congrArg Fields.action hf0).trans (action_flagging hd hflag htest)
  have ha' := State.defines_lt ha
  have h1 := (congrArg (fun w => (fields w).action) hw1).trans (action_xor hd ha' ha')
  have hlast' : s.word 2 = invertWhere 0x20#64 (bits (s.word 0) 32 6) ∨
      s.word 2 = invertWhere 0x28#64 (bits (s.word 0) 32 6) := by tauto
  rcases hlast' with hw2 | hw2
  · have hf2 := (congrArg fields hw2).trans
      (fields_invertWhere 0x20 (by decide) (by omega))
    exact advances_triple hd (by omega) h0 h1 (by rw [hf2, action_invertWhere hd (by decide)])
      (by simp [ha, hb]) (by simp [ha]) (.inl rfl)
  · have hf2 := (congrArg fields hw2).trans
      (fields_invertWhere 0x28 (by decide) (by omega))
    exact advances_triple hd (by omega) h0 h1 (by rw [hf2, action_invertWhere hd (by decide)])
      (by simp [ha, hb]) (by simp [ha]) (.inl rfl)

/-- A result that arrives one instruction later, and the idle instruction after it. -/
theorem advances_late {reads : List ℕ} {dst : ℕ} {access : Access} (hdst : dst < 32)
    (hleft : 2 ≤ s.left)
    (h0 : (fields (s.word 0)).action = some { reads := reads, late := [dst], access := access })
    (h1 : s.word 1 = nop) (hreads : ∀ r ∈ reads, s.defines r = true)
    (hacc : ∀ t, Thread.access rules.machine uniforms false t access = some t) :
    Advances rules uniforms s o ((s.skip 2).define dst) o := by
  refine advances_words (by simp) (s.rest_two hleft) fun t h => ?_
  have hready : t.ready { reads := reads, late := [dst], access := access } :=
    h.ready (by simpa using hreads) (by simp)
  have hready' : (t.write { reads := reads, late := [dst], access := access }).ready {} := by
    simp [Thread.ready, Thread.write, h.ended]
  have hmid : Sim rules uniforms ((s.skip 2).define dst) o (t.write { writes := [dst] }) :=
    h.write _ rfl (fun r => by simp [hdst]) rfl
  refine ⟨(t.write { reads := reads, late := [dst], access := access }).write {}, ?_, ?_⟩
  · rw [execute_cons, step_eq h0 hready, h.switched, hacc, Option.bind_some, execute_cons, h1,
      step_eq action_nop hready']
    rfl
  · constructor
    case defined =>
      intro r
      rw [← hmid.defined]
      simp [Thread.write, h.late]
    case ended => simp [Thread.write, h.ended]
    all_goals first
      | rfl | exact hmid.popped | exact hmid.used | exact hmid.varyings | exact hmid.noVaryings
      | exact hmid.payload | exact hmid.stored | exact hmid.written | exact hmid.unwritten
      | exact hmid.texels | exact hmid.tiles | exact hmid.locked | exact hmid.configured
      | exact hmid.allowed | exact hmid.samples

theorem gap_ok {n : ℕ} {t t' : State} : (gap n t).run u o = (.ok t', o') ↔
    (n ≤ t.left ∧ t.rest.take n = List.replicate n nop) ∧ t' = t.skip n ∧ o' = o := by
  simp only [gap, bind_ok, rejectIf_ok, pure_ok, not_or, not_lt, ne_eq, not_not, gt_iff_lt]
  constructor
  · rintro ⟨_, _, ⟨h, rfl⟩, rfl, rfl⟩
    exact ⟨h, rfl, rfl⟩
  · rintro ⟨h, rfl, rfl⟩
    exact ⟨(), _, ⟨h, rfl⟩, rfl, rfl⟩

/-- One idle instruction after the first word. -/
theorem nop_of_gap (h : 1 ≤ (s.skip 1).left ∧ (s.skip 1).rest.take 1 = [nop]) :
    2 ≤ s.left ∧ s.word 1 = nop := by
  obtain ⟨h1, h2⟩ := h
  simp only [State.left, State.skip, State.word] at *
  rcases hr : s.rest with _ | ⟨w, _ | ⟨v, rest⟩⟩ <;> simp_all

theorem skip_define_skip (dst : ℕ) :
    ((s.skip 1).define dst).skip 1 = (s.skip 2).define dst := by
  simp [State.skip, State.define]

theorem unary_of_selector {stage : ProgramStage} {op b : ℕ} (dst a : ℕ) (h : unarySelector stage op b = true) :
    (addOnly 0 0 dst op a b).unary := by
  unfold unarySelector at h
  simp only [Fields.unary, addOnly]
  split_ifs at h with h1 h2 h3
  · subst h1; simp at h ⊢; tauto
  · subst h2; simp at h ⊢; tauto
  · subst h3; simp at h ⊢; tauto

/-- One instruction and the idle ones it needs. -/
theorem scalar_sound {reg : Option ℕ} {nops : ℕ}
    (h : (scalar rules s).run (uniforms.getD · 0#32) o = (.ok (reg, nops), o'))
    (hgap : nops ≤ (reg.elim (s.skip 1) (s.skip 1).define).left ∧
      (reg.elim (s.skip 1) (s.skip 1).define).rest.take nops = List.replicate nops nop) :
    Advances rules uniforms s o ((reg.elim (s.skip 1) (s.skip 1).define).skip nops) o' := by
  simp only [scalar, ite_ok, bind_ok, rejectIf_ok, pure_ok, Prod.mk.injEq, not_not] at h
  have h6 : ∀ lo, bits (s.word 0) lo 6 < 64 := fun lo => bits_lt _ _ _
  rcases h with ⟨⟨hd, hw⟩, _, _, ⟨ha, rfl⟩, _, _, ⟨hb, rfl⟩, ⟨rfl, rfl⟩, rfl⟩ |
    ⟨-, _, _, ⟨hab, rfl⟩, h⟩
  · have hf := (congrArg fields hw).trans (fields_add_plain (bits_lt _ _ _) (h6 _) (h6 _) (h6 _))
    simp only [Option.elim_some] at hgap ⊢
    by_cases hbin : binary (bits (s.word 0) 24 8) = true
    · have h188 : bits (s.word 0) 24 8 ≠ 188 := fun h => by rw [h] at hbin; exact absurd hbin (by decide)
      simp only [hbin, ↓reduceIte, Bool.not_eq_true', Bool.not_eq_false] at hb
      have hform := aluForm_add 0 (by simp) hd (.inl hbin) (by simpa using State.defines_lt ha)
        (.inr (by simpa using State.defines_lt hb))
      simp only [h188, ↓reduceIte]
      refine advances_alu (by rw [hf]; exact hform) (by rw [hf]; simp [addOnly]) ?_ hd
        (by rw [hf]; exact targets_add (by decide))
      rw [hf, sources_add]
      simp [ha]
      tauto
    · simp only [hbin, Bool.false_eq_true, ↓reduceIte, Bool.not_eq_true', Bool.not_eq_false] at hb
      have hunary := unary_of_selector (bits (s.word 0) 32 6) (bits (s.word 0) 6 6) hb
      have haction := (congrArg Fields.action hf).trans (action_unary hd hunary)
      by_cases h188 : bits (s.word 0) 24 8 = 188
      · simp only [h188, ↓reduceIte] at haction hgap ⊢
        obtain ⟨hleft, hnop⟩ := nop_of_gap hgap
        rw [skip_define_skip]
        exact advances_late hd hleft haction hnop (by simpa using ha) (fun t => rfl)
      · simp only [h188, ↓reduceIte] at haction hgap ⊢
        exact advances_write (s.rest_one (s.left_of_action haction)) haction rfl rfl rfl (by simpa using ha)
          (fun r => by
            rw [List.mem_singleton]
            exact State.defines_define (s := s) hd r) rfl
  · rw [not_or, not_not, not_not] at hab
    rcases h with ⟨h10, _, _, ⟨hw, rfl⟩, ⟨rfl, rfl⟩, rfl⟩ | ⟨-, _, _, ⟨hop, rfl⟩, ⟨rfl, rfl⟩, rfl⟩
    · have hf := (congrArg fields hw).trans (fields_multop (h6 _) (h6 _))
      obtain ⟨hleft, hnop⟩ := nop_of_gap hgap
      have hskip : ((none : Option ℕ).elim (s.skip 1) (s.skip 1).define).skip 1 = s.skip 2 := by
        simp [State.skip]
      rw [hskip]
      refine advances_words (by simp) (s.rest_two hleft) fun t h => ?_
      have haction := (congrArg Fields.action hf).trans action_multop
      obtain ⟨hx, hsim⟩ := h.step_write (s.skip 2) haction rfl rfl (by simpa using hab) (by simp)
        (by simp) rfl
      refine ⟨_, ?_, hsim⟩
      rw [execute_cons, hx, Option.bind_some, execute_cons, hnop, step_nop hsim.quiet]
      rfl
    · simp only [not_or, not_and, not_not, not_le, ge_iff_le, ne_eq] at hop
      obtain ⟨hop, hd, hw⟩ := hop
      have ha' := State.defines_lt hab.1
      have hb' := State.defines_lt hab.2
      have hf := (congrArg fields hw).trans (fields_mul_plain (bits_lt _ _ _) (h6 _) (h6 _) (h6 _))
      by_cases h21 : bits (s.word 0) 58 6 = 21
      · rw [h21] at hf
        have hform := aluForm_mul 0 (by simp) hd (by simpa using ha') (by simpa using hb')
        refine advances_alu (by rw [hf]; exact hform) (by rw [hf]; simp [mulOnly]) ?_ hd
          (by rw [hf]; exact targets_mul (by decide))
        rw [hf, sources_mul]
        simpa using hab
      · rw [hop h21] at hf
        have haction := (congrArg Fields.action hf).trans (action_umul24 hd)
        exact advances_write (s.rest_one (s.left_of_action haction)) haction rfl rfl rfl
          (by simpa using hab)
          (fun r => by
            rw [List.mem_singleton]
            exact State.defines_define (s := s) hd r) rfl

theorem plain_sound : Sound rules uniforms (plain rules uniforms.length) := by
  intro s o s' o' h
  simp only [plain, ite_ok, bind_ok, rejectIf_ok, pure_ok, gap_ok, Option.some.injEq] at h
  rcases h with ⟨hw, rfl, rfl⟩ | ⟨-, h⟩
  · exact advances_write (s.rest_one (s.left_of_action (hw ▸ action_nop))) (hw ▸ action_nop) rfl rfl rfl
      (by simp) (by simp) rfl
  rcases h with ⟨hw, _, _, ⟨hused, rfl⟩, rfl, rfl⟩ | ⟨-, h⟩
  · obtain ⟨hf, hd⟩ := fields_of_withoutDestination 12 (by decide) hw
    exact advances_uniform (hf ▸ aluForm_loadUniform hd) (by rw [hf]; rfl)
      (by simp [hf, sources_loadUniform]) (by omega) rfl
      (fun r => by
        rw [hf, targets_loadUniform, List.mem_singleton]
        exact State.defines_define (s := s) hd r) rfl
  rcases h with ⟨hw, _, _, ⟨hstage, rfl⟩, _, _, ⟨hgap, rfl, rfl⟩, rfl, rfl⟩ | ⟨-, ⟨reg, nops⟩, _, hscalar,
    _, _, ⟨hgap, rfl, rfl⟩, rfl, rfl⟩
  · obtain ⟨hf, hd, hi⟩ := fields_of_loadAttribute hw
    obtain ⟨hleft, hnop⟩ := nop_of_gap hgap
    rw [not_or, not_le] at hstage
    rw [skip_define_skip]
    exact advances_late hd hleft ((congrArg Fields.action hf).trans (action_loadAttribute hd hi)) hnop
      (by simp) (fun t => by simp [Thread.access, ProgramRules.machine, hstage])
  · exact scalar_sound hscalar hgap

theorem checkedUniform_ok {i : ℕ} {a : UWord} :
    (checkedUniform i).run u o = (.ok a, o') ↔
      u i = a ∧ { o with checked := fun j => j == i || o.checked j } = o' := look_ok

/-- The walk and the machine agree whatever uniforms were looked at. -/
theorem Sim.relook {t : Thread} (h : Sim rules uniforms s o t) (ho : o'.patches = o.patches) :
    Sim rules uniforms s o' t := by
  obtain ⟨h1, h2, h3, h4, h5, h6, h7, h8, h9, h10, h11, h12, h13, h14, h15, h16, h17, h18⟩ := h
  exact ⟨h1, h2, h3, h4, h5, h6, h7, h8, h9, h10, h11, h12, h13, h14, h15, by rw [ho]; exact h16,
    by rw [ho]; exact h17, by rw [ho]; exact h18⟩

/-- Only some parts of the walk matter. -/
theorem Sim.congr {t : Thread} (h : Sim rules uniforms s o t) (hd : s'.defined = s.defined)
    (hf : s'.frame = s.frame) : Sim rules uniforms s' o t := by
  simp only [State.frame, Prod.mk.injEq] at hf
  obtain ⟨hu, hv, hw, ht, hs⟩ := hf
  have hdef : ∀ r, s'.defines r = s.defines r := fun r => by simp [State.defines, hd]
  constructor
  case defined => simpa only [hdef] using h.defined
  case popped => rw [hu]; exact h.popped
  case used => rw [hu]; exact h.used
  case varyings => rw [hv]; exact h.varyings
  case noVaryings => rw [hv]; exact h.noVaryings
  case payload => simpa only [hdef] using h.payload
  case written => rw [hw]; exact h.written
  case locked => rw [ht]; exact h.locked
  case samples => rw [hs]; exact h.samples
  all_goals first
    | exact h.late | exact h.switched | exact h.ended | exact h.stored | exact h.unwritten
    | exact h.texels | exact h.tiles | exact h.configured | exact h.allowed

section Stores

variable (hvaryings : rules.varyingScalars ≤ maxVaryings)
include hvaryings

theorem outputs_le : outputs rules ≤ 28 := by
  unfold outputs maxVaryings at *
  split <;> omega

variable (s') in
/-- One more output slot is written. -/
theorem Sim.store {t : Thread} (index : ℕ) (h : Sim rules uniforms s o t)
    (hstage : rules.stage ≠ .pixel) (hindex : index < outputs rules)
    (hnew : s.written.getLsbD index = false) (hw : s'.written = define s.written index)
    (hf : (s'.defined, s'.used, s'.varyings, s'.targetRead, s'.samples) =
      (s.defined, s.used, s.varyings, s.targetRead, s.samples)) :
    Sim rules uniforms s' o { t with stored := t.stored ++ [index] } := by
  suffices Sim rules uniforms { s with written := define s.written index } o
      { t with stored := t.stored ++ [index] } by
    simp only [Prod.mk.injEq] at hf
    exact this.congr hf.1 (by simp [State.frame, hf, hw])
  have hle := outputs_le hvaryings
  have hbit : ∀ i < outputs rules, (define s.written index).getLsbD i = true ↔
      i = index ∨ s.written.getLsbD i = true := by
    intro i hi
    have := Validate.defines_define s.written (r := index) (by omega) i
    simpa [defines, show i < 32 by omega] using this
  constructor
  case stored =>
    refine List.nodup_append.mpr ⟨h.stored, by simp, ?_⟩
    intro i hi j hj
    rw [List.mem_singleton] at hj
    rintro rfl
    have := (h.written i).mp hi
    rw [hj, hnew] at this
    exact absurd this.2 (by simp)
  case written =>
    intro i
    rw [List.mem_append, List.mem_singleton, h.written]
    constructor
    · rintro (⟨h1, h2⟩ | rfl)
      · exact ⟨h1, (hbit i h1).mpr (.inr h2)⟩
      · exact ⟨hindex, (hbit i hindex).mpr (.inl rfl)⟩
    · rintro ⟨h1, h2⟩
      rcases (hbit i h1).mp h2 with h3 | h3
      · exact .inr h3
      · exact .inl ⟨h1, h3⟩
  case unwritten => exact fun hp => absurd hp hstage
  all_goals first
    | exact h.defined | exact h.late | exact h.switched | exact h.ended | exact h.popped
    | exact h.used | exact h.varyings | exact h.noVaryings | exact h.payload | exact h.texels
    | exact h.tiles | exact h.locked | exact h.configured | exact h.allowed | exact h.samples

theorem vpmStore_sound : Sound rules uniforms (vpmStore rules uniforms.length) := by
  intro s o s' o' h
  simp only [vpmStore, ite_ok, bind_ok, rejectIf_ok, pure_ok, Option.some.injEq, reduceCtorEq,
    false_and, and_false, false_or, not_or, not_not, checkedUniform_ok] at h
  obtain ⟨hstage, ⟨hw, _, _, ⟨⟨h16, hindex, hnew, hreg, hleft, hnop⟩, rfl⟩, rfl, rfl⟩ |
    ⟨-, ⟨hw, hleft, hnop⟩, hstore, _, _, ⟨hused, rfl⟩, a, _, ⟨ha, rfl⟩, _, _,
      ⟨⟨h16, hindex, hnew, hne, hreg, hnop'⟩, rfl⟩, rfl, rfl⟩⟩ := h
  · have haction := (congrArg Fields.action (fields_of_storeOutput hw)).trans
      (action_storeOutput (by omega))
    refine advances_words (by simp) (s.rest_two (by omega)) fun t h => ?_
    have hsim := h.store { s.skip 2 with written := define s.written (bits (s.word 0) 6 6) } hvaryings
      (bits (s.word 0) 6 6) hstage (by omega) (by simpa using hnew) rfl rfl
    refine ⟨_, ?_, hsim⟩
    rw [execute_cons, step_eq haction (h.ready (by simpa using hreg) (by simp)),
      write_idle h.quiet rfl rfl rfl rfl]
    simp only [Thread.access, Option.bind_some]
    rw [execute_cons, hnop, step_nop hsim.quiet]
    rfl
  · obtain ⟨hf, hd⟩ := fields_of_withoutDestination 12 (by decide) hw
    have hload : bits (s.word 0) 46 5 = loadRegister (s.word 0) := rfl
    have haction := (congrArg Fields.action hf).trans (action_loadUniform hd)
    rw [hload] at hd haction
    set scratch := loadRegister (s.word 0)
    have haction' := (congrArg Fields.action ((congrArg fields hstore).trans
      (fields_storeIndexed (by omega) (bits_lt _ _ _)))).trans action_storeIndexed
    refine advances_words (by simp) (s.rest_four (by omega)) fun t h => ?_
    have hwrite := h.write (s.define scratch) (a := { writes := [scratch], access := .uniform scratch })
      rfl (fun r => by rw [State.defines_define hd, List.mem_singleton]) rfl
    obtain ⟨t', haccess, hpop, hcontents⟩ := hwrite.pop { s.define scratch with used := s.used + 1 }
      (show s.used < _ by omega) scratch rfl rfl rfl
    have hsim := hpop.store
      { (s.skip 4).define scratch with used := s.used + 1, written := define s.written a.toNat }
      hvaryings a.toNat hstage (by omega) (by
        show s.written.getLsbD _ = false
        simpa using hnew)
      rfl rfl
    have hready : t'.ready { reads := [scratch, bits (s.word 2) 0 6], access := .indexedOutput scratch } :=
      hpop.ready (by
        have hdef : ∀ r, ({ s.define scratch with used := s.used + 1 } : State).defines r = true ↔
            r = scratch ∨ s.defines r = true := State.defines_define hd
        simp [hdef, hreg]) (by simp)
    have hvalue : t'.contents scratch = some a := by rw [hcontents, ← ha]; rfl
    refine ⟨_, ?_, hsim.relook rfl⟩
    rw [execute_cons, step_eq haction (h.ready (by simp) (by simp)), h.switched, haccess,
      Option.bind_some, execute_cons, hnop, step_nop hpop.quiet, Option.bind_some, execute_cons,
      step_eq haction' hready, write_idle hpop.quiet rfl rfl rfl rfl]
    simp only [Thread.access, hvalue, Option.map_some, Option.bind_some]
    rw [execute_cons, hnop', step_nop hsim.quiet]
    rfl

end Stores

namespace Runs

variable {t t' t'' : Thread} {rest rest' rest'' : List Word}

theorem refl : Runs rules uniforms t rest t rest := ⟨[], rfl, rfl⟩

theorem trans (h : Runs rules uniforms t rest t' rest') (h' : Runs rules uniforms t' rest' t'' rest'') :
    Runs rules uniforms t rest t'' rest'' := by
  obtain ⟨c, rfl, hc⟩ := h
  obtain ⟨d, rfl, hd⟩ := h'
  exact ⟨c ++ d, by simp, by rw [execute_append, hc, Option.bind_some, hd]⟩

theorem word (hleft : 1 ≤ s.left) (h : step rules.machine uniforms t (s.word 0) = some t') :
    Runs rules uniforms t s.rest t' (s.skip 1).rest :=
  ⟨[s.word 0], s.rest_one hleft, by rw [execute_cons, h]; rfl⟩

theorem padding (hq : Quiet t) : Runs rules uniforms t s.rest t s.padding.rest := by
  refine ⟨s.rest.takeWhile (· == nop), List.takeWhile_append_dropWhile.symm, execute_nops hq ?_⟩
  intro w hw
  simpa using List.mem_takeWhile_imp hw

end Runs

theorem expect_ok {w : Word} {r r' : State} : (expect w r).run u o = (.ok r', o') ↔
    (1 ≤ r.left ∧ r.word 0 = w) ∧ r' = r.skip 1 ∧ o' = o := by
  simp only [expect, bind_ok, rejectIf_ok, pure_ok, not_or, ne_eq, not_not]
  constructor
  · rintro ⟨_, _, ⟨⟨h, h'⟩, rfl⟩, rfl, rfl⟩
    exact ⟨⟨by omega, h'⟩, rfl, rfl⟩
  · rintro ⟨⟨h, h'⟩, rfl, rfl⟩
    exact ⟨(), _, ⟨⟨by omega, h'⟩, rfl⟩, rfl, rfl⟩

/-- A packable word that only overwrites defined registers. -/
theorem Sim.step_alu {t : Thread} {w : Word} {f : Fields} (h : Sim rules uniforms s o t)
    (hf : fields w = f) (hform : f.AluForm) (hs : f.signal ≠ 12)
    (hsources : ∀ r ∈ f.sources, s.defines r = true) (htargets : ∀ r ∈ f.targets, s.defines r = true) :
    ∃ t', step rules.machine uniforms t w = some t' ∧ Sim rules uniforms s o t' := by
  have ha := action_alu hform
  rw [if_neg hs, ← hf] at ha
  have := h.step_write s ha rfl rfl (by simpa [hf] using hsources) (by simp)
    (fun r => ⟨.inr, fun hr => hr.elim (fun hr => htargets r (hf ▸ hr)) id⟩) rfl
  exact ⟨_, this⟩

section Varying

variable {reg : ℕ} {t : Thread}

/-- The thread right after a varying load. -/
def loaded (t : Thread) (reg : ℕ) : Thread :=
  { t.write { writes := [reg], late := [0], access := .varying } with varyings := t.varyings + 1 }

/-- The walk's view of a varying load. -/
def withVarying (s : State) (reg : ℕ) : State := { s.define reg with varyings := s.varyings + 1 }

theorem defines_withVarying (hreg : reg < 32) (r : ℕ) :
    (withVarying s reg).defines r = true ↔ r = reg ∨ s.defines r = true :=
  State.defines_define (s := s) hreg r

section Loaded

variable (h : Sim rules uniforms s o t) (hpixel : rules.stage = .pixel)
  (hmore : s.varyings < rules.varyingScalars) (hreg : reg < 32)
include h hpixel hmore hreg

theorem step_varying {w : Word} (hf : fields w = loadOnly 8 reg) :
    step rules.machine uniforms t w = some (loaded t reg) := by
  have haction := (congrArg Fields.action hf).trans
    (action_load .varying [0] hreg (by simp))
  rw [step_eq haction (h.ready (by simp) (by simp)), h.switched]
  have hlt : (t.write { writes := [reg], late := [0], access := .varying }).varyings <
      rules.machine.varyings := by
    rw [← h.varyings] at hmore; exact hmore
  have hp : rules.machine.pixel = true := by simp [ProgramRules.machine, hpixel]
  simp only [Thread.access, hp, true_and]
  rw [if_pos hlt]
  rfl

/-- The instruction after a varying load, which must leave the coefficient alone. -/
theorem step_after_varying {w : Word} {a : Action} (ha : (fields w).action = some a)
    (hacc : a.access = .none) (hlate : a.late = []) (hmerges : a.merges = [])
    (hreads : ∀ r ∈ a.reads, (withVarying s reg).defines r = true ∧ r ≠ 0)
    (hwrites : ∀ r ∈ a.writes, r = reg) (hne : reg ≠ 0) :
    ∃ t', step rules.machine uniforms (loaded t reg) w = some t' ∧
      Sim rules uniforms (withVarying s reg) o t' := by
  have hdef : ∀ r, r ∈ (loaded t reg).defined ↔ (withVarying s reg).defines r = true := fun r => by
    rw [defines_withVarying hreg]
    simp [loaded, Thread.write, h.late, h.defined, or_comm]
  have hready : (loaded t reg).ready a := by
    refine ⟨?_, ?_, by simp [hmerges], .inl (by simp [loaded, Thread.write, h.ended])⟩
    · intro r hr
      rw [hmerges, List.append_nil] at hr
      refine ⟨(hdef r).mpr (hreads r hr).1, ?_⟩
      simpa [loaded, Thread.write] using (hreads r hr).2
    · intro r hr
      rw [hlate, List.append_nil] at hr
      simpa [loaded, Thread.write, hwrites r hr] using hne
  obtain ⟨h0, h3⟩ := h.payload hpixel (by omega)
  refine ⟨(loaded t reg).write a, by rw [step_eq ha hready, hacc]; rfl, ?_⟩
  constructor
  case defined =>
    intro r
    simp only [Thread.write, Finset.mem_union, hdef, List.mem_toFinset]
    constructor
    · rintro ((hr | hr) | hr)
      · exact hr
      · have : r = 0 := by simpa [loaded, Thread.write] using hr
        exact this ▸ (defines_withVarying hreg 0).mpr (.inr h0)
      · exact (defines_withVarying hreg r).mpr (.inl (hwrites r hr))
    · exact fun hr => .inl (.inl hr)
  case late => simp [Thread.write, hlate]
  case switched => rfl
  case ended => simp [loaded, Thread.write, h.ended]
  case varyings => simp [loaded, Thread.write, withVarying, h.varyings]
  case noVaryings => exact fun hp => absurd hpixel hp
  case payload =>
    exact fun _ _ => ⟨(defines_withVarying hreg 0).mpr (.inr h0), (defines_withVarying hreg 3).mpr (.inr h3)⟩
  all_goals first
    | exact h.popped | exact h.used | exact h.stored | exact h.written | exact h.unwritten
    | exact h.texels | exact h.tiles | exact h.locked | exact h.configured | exact h.allowed
    | exact h.samples

end Loaded

theorem fields_product (hreg : reg < 32) : fields (mul 21 reg reg 3) = mulOnly 21 0 reg reg 3 :=
  fields_mul_plain (by decide) (by omega) (by omega) (by decide)

theorem product_form (hreg : reg < 32) : (mulOnly 21 0 reg reg 3).AluForm :=
  aluForm_mul _ (by simp) hreg (by simpa using hreg) (by simp)

theorem action_product (hreg : reg < 32) :
    (fields (mul 21 reg reg 3)).action = some { reads := [reg, 3], writes := [reg] } := by
  rw [fields_product hreg, action_alu (product_form hreg), sources_mul, targets_mul (by decide)]
  simp [mulOnly]

/-- The slot after a varying load is filled, and the registers settle. -/
theorem varyingGap_sound {r r' : State} {perspective : Bool} (h : Sim rules uniforms s o t)
    (hpixel : rules.stage = .pixel) (hmore : s.varyings < rules.varyingScalars) (hreg : reg < 32)
    (hne : reg ≠ 0) (hrun : (varyingGap perspective reg r).run u o = (.ok r', o')) :
    ∃ t', Runs rules uniforms (loaded t reg) r.rest t' r'.rest ∧
      Sim rules uniforms (withVarying s reg) o t' := by
  obtain ⟨-, h3⟩ := h.payload hpixel (by omega)
  have hdreg : (withVarying s reg).defines reg = true := (defines_withVarying hreg reg).mpr (.inl rfl)
  have hd3 : (withVarying s reg).defines 3 = true := (defines_withVarying hreg 3).mpr (.inr h3)
  simp only [varyingGap, ite_ok, bind_ok, rejectIf_ok, pure_ok, expect_ok, not_not] at hrun
  by_cases hgap : 0 < r.left ∧ r.word 0 = nop
  · obtain ⟨t1, hstep, hsim⟩ := step_after_varying h hpixel hmore hreg (hgap.2 ▸ action_nop) rfl rfl rfl
      (by simp) (by simp) hne
    have hruns := Runs.word hgap.1 hstep
    simp only [if_pos hgap] at hrun
    rcases hrun with ⟨-, ⟨hleft, hw⟩, rfl, -⟩ | ⟨-, _, _, -, rfl, -⟩
    · obtain ⟨t2, hstep', hsim'⟩ := hsim.step_alu (hw ▸ fields_product hreg) (product_form hreg)
        (by simp [mulOnly]) (by rw [sources_mul]; simp [hdreg, hd3])
        (by rw [targets_mul (by decide)]; simp [hdreg])
      exact ⟨t2, hruns.trans (Runs.word hleft hstep'), hsim'⟩
    · exact ⟨t1, hruns, hsim⟩
  · simp only [if_neg hgap] at hrun
    rcases hrun with ⟨-, ⟨hleft, hw⟩, rfl, -⟩ | ⟨-, _, _, ⟨hgap', -⟩, -, -⟩
    · obtain ⟨t1, hstep, hsim⟩ := step_after_varying h hpixel hmore hreg (hw ▸ action_product hreg)
        rfl rfl rfl (by simp [hdreg, hd3, hne]) (by simp) hne
      exact ⟨t1, Runs.word hleft hstep, hsim⟩
    · exact absurd hgap' hgap

/-- The last word of a varying load. -/
theorem interpolation_form (hreg : reg < 32) (flat : Bool) :
    ∃ f : Fields, fields (if flat then add 182 reg 0 0 else add 5 reg 0 reg) = f ∧ f.AluForm ∧
      f.signal ≠ 12 ∧ (∀ r ∈ f.sources, r = 0 ∨ r = reg) ∧ f.targets = [reg] := by
  cases flat with
  | true =>
    refine ⟨addOnly 0 0 reg 182 0 0, ?_, ?_, by simp [addOnly], ?_, targets_add (by decide)⟩
    · exact fields_add_plain (by decide) (by omega) (by decide) (by decide)
    · exact aluForm_add _ (by simp) hreg (.inl (by decide)) (by simp) (.inr (by simp))
    · rw [sources_add]; simp
  | false =>
    refine ⟨addOnly 0 0 reg 5 0 reg, ?_, ?_, by simp [addOnly], ?_, targets_add (by decide)⟩
    · exact fields_add_plain (by decide) (by omega) (by decide) (by omega)
    · exact aluForm_add _ (by simp) hreg (.inl (by decide)) (by simp) (.inr (by simpa using hreg))
    · rw [sources_add]; simp

end Varying

theorem varyingGap_frame {reg : ℕ} {r r' : State} {perspective : Bool}
    (h : (varyingGap perspective reg r).run u o = (.ok r', o')) :
    r'.frame = r.frame ∧ r'.defined = r.defined ∧ o' = o ∧ r'.left ≤ r.left := by
  simp only [varyingGap, ite_ok, bind_ok, rejectIf_ok, pure_ok, expect_ok, not_not] at h
  by_cases hgap : 0 < r.left ∧ r.word 0 = nop
  · simp only [if_pos hgap] at h
    rcases h with ⟨-, -, rfl, rfl⟩ | ⟨-, _, _, ⟨-, rfl⟩, rfl, rfl⟩
    · exact ⟨rfl, rfl, rfl, by simp [State.left, State.skip]⟩
    · exact ⟨rfl, rfl, rfl, by simp [State.left, State.skip]⟩
  · simp only [if_neg hgap] at h
    rcases h with ⟨-, -, rfl, rfl⟩ | ⟨-, _, _, ⟨hgap', -⟩, -, -⟩
    · exact ⟨rfl, rfl, rfl, by simp [State.left, State.skip]⟩
    · exact absurd hgap' hgap

theorem varying_sound : Sound rules uniforms (varying rules) := by
  intro s o s' o' h
  simp only [varying, ite_ok, bind_ok, rejectIf_ok, pure_ok, Option.some.injEq, reduceCtorEq,
    false_and, and_false, false_or, not_or, not_not, expect_ok] at h
  obtain ⟨hw, _, _, ⟨⟨hpixel, hmore, hleft⟩, rfl⟩, _, _, ⟨⟨hne0, hne3⟩, rfl⟩, s2, o2, hgap, _, _,
    ⟨⟨hleft', hlast⟩, rfl, rfl⟩, rfl, rfl⟩ := h
  obtain ⟨hframe, hdefined, rfl, hle⟩ := varyingGap_frame hgap
  obtain ⟨hf, hreg⟩ := fields_of_withoutDestination 8 (by decide) hw
  change fields _ = loadOnly 8 (loadRegister _) at hf
  change loadRegister _ < 32 at hreg
  obtain ⟨f, hff, hform, hs, hsources, htargets⟩ :=
    interpolation_form hreg (rules.flatMask.getLsbD s.varyings)
  refine ⟨?_, fun t ht => ?_⟩
  · have h1 := (s2.padding.skip 1).left_padding
    have h2 := s2.left_padding
    rw [State.left_skip] at h1 hle
    show (s2.padding.skip 1).padding.left < s.left
    omega
  · obtain ⟨t1, hruns, hsim⟩ := varyingGap_sound ht hpixel (by omega) hreg hne0 hgap
    have hdef := defines_withVarying (s := s) hreg
    obtain ⟨h0, -⟩ := ht.payload hpixel (by omega)
    obtain ⟨t2, hstep, hsim'⟩ := hsim.step_alu (hlast ▸ hff) hform hs
      (fun r hr => (hdef r).mpr ((hsources r hr).elim (fun h => .inr (h ▸ h0)) .inl))
      (fun r hr => (hdef r).mpr (.inl (by simpa [htargets] using hr)))
    refine ⟨t2, ?_, hsim'.congr ?_ ?_⟩
    · have hfirst := Runs.word (by omega) (step_varying ht hpixel (by omega) hreg hf)
      have hlast := Runs.word hleft' hstep
      exact hfirst.trans (hruns.trans ((Runs.padding hsim.quiet).trans (hlast.trans
        (Runs.padding hsim'.quiet))))
    · show define s2.defined _ = define s.defined _
      rw [hdefined]
      rfl
    · simp only [State.frame, State.skip, Prod.mk.injEq] at hframe
      obtain ⟨hu, hv, hwr, htr, hsa⟩ := hframe
      simp only [State.frame, withVarying, State.define, State.padding, State.skip, hu, hv, hwr, htr, hsa]

theorem recordPatch_ok {p : TexturePatch} {a : Unit} :
    (recordPatch p).run u o = (.ok a, o') ↔ { o with patches := o.patches ++ [p] } = o' := by
  unfold recordPatch
  exact modify_ok

section Lookups

variable {t : Thread}

theorem step_config (hq : Quiet t) (hl : t.locked = false) (hp : t.popped < uniforms.length) :
    step rules.machine uniforms t config =
      some { t with popped := t.popped + 1, configured := t.configured ++ [t.popped] } := by
  have haction : (fields config).action = some { access := .configuration } := by decide
  rw [step_eq haction (by simp [Thread.ready, hq.ended]), write_idle hq rfl rfl rfl rfl]
  simp [Thread.access, Thread.pop, hl, hp]

variable (rules uniforms) in
theorem lookupConfig_spec {r r' : State} (h : (lookupConfig r).run u o = (.ok r', o')) :
    o' = o ∧ r'.frame = r.frame ∧ r'.defined = r.defined ∧ r'.left < r.left ∧
      ∀ t, Quiet t → t.locked = false → t.popped + 1 < uniforms.length →
        Runs rules uniforms t r.rest
          { t with popped := t.popped + 2, configured := t.configured ++ [t.popped, t.popped + 1] } r'.rest := by
  simp only [lookupConfig, bind_ok, expect_ok, pure_ok] at h
  obtain ⟨_, _, ⟨⟨hleft, hw⟩, rfl, rfl⟩, _, _, ⟨⟨hleft', hw'⟩, rfl, rfl⟩, rfl, rfl⟩ := h
  refine ⟨rfl, rfl, rfl, ?_, fun t hq hl hp => ?_⟩
  · have h1 := (r.skip 1).left_padding
    have h2 := ((r.skip 1).padding.skip 1).left_padding
    rw [State.left_skip] at h1 h2
    omega
  · have hq' : Quiet { t with popped := t.popped + 1, configured := t.configured ++ [t.popped] } :=
      ⟨hq.late, hq.switched, hq.ended⟩
    have hq'' : Quiet { t with
        popped := t.popped + 2, configured := t.configured ++ [t.popped, t.popped + 1] } :=
      ⟨hq.late, hq.switched, hq.ended⟩
    have hfirst : Runs rules uniforms _ _ _ _ := Runs.word hleft
      (hw ▸ step_config hq hl (by omega))
    have hsecond : Runs rules uniforms _ _ _ _ := Runs.word hleft'
      (hw' ▸ step_config hq' hl hp)
    simp only [List.append_assoc, List.cons_append, List.nil_append] at hsecond
    exact hfirst.trans ((Runs.padding hq').trans (hsecond.trans (Runs.padding hq'')))

variable (rules uniforms) in
/-- A register moved to the texture unit or the tile buffer. -/
theorem step_magic {reg : ℕ} (dst : ℕ) (access : Access) (hq : Quiet t) (hr : reg ∈ t.defined) (hd : dst < 64)
    (hreg : reg < 64) (h : (dst, access) ∈ [(34, .coordinate), (33, .request), (41, .request), (8, .tile true),
      (7, .tile false)]) :
    step rules.machine uniforms t (add 182 dst reg reg true) =
      t.access rules.machine uniforms false access := by
  have haction := (congrArg Fields.action (fields_magicMove hd hreg)).trans
    (action_magicMove access h)
  rw [step_eq haction (by simp [Thread.ready, hq.ended, hq.late, hr]), write_idle hq rfl rfl rfl rfl,
    hq.switched]

variable (rules uniforms) in
theorem lookupCoordinates_spec {r r' : State} {form : LookupForm}
    (h : (lookupCoordinates r).run u o = (.ok (form, r'), o')) :
    o' = o ∧ r'.frame = r.frame ∧ r'.defined = r.defined ∧ r'.left ≤ r.left ∧
      ∀ t, Quiet t → t.locked = false → (∀ x, r.defines x = true → x ∈ t.defined) →
        Runs rules uniforms t r.rest { t with texels := t.texels + 4 } r'.rest := by
  simp only [lookupCoordinates, bind_ok, rejectIf_ok, pure_ok, Prod.mk.injEq, not_or, not_and,
    not_not] at h
  obtain ⟨_, _, ⟨hleft, rfl⟩, _, _, ⟨hsecond, rfl⟩, _, _, ⟨hleft5, rfl⟩, _, _, ⟨⟨hretire, hw, hreg⟩, rfl⟩,
    _, _, ⟨-, rfl⟩, ⟨-, rfl⟩, rfl⟩ := h
  set mid := if r.word 0 = add 182 34 (bits (r.word 0) 0 6) (bits (r.word 0) 0 6) true
    then (r.skip 1).padding else r with hmid
  have hmidframe : mid.frame = r.frame ∧ mid.defined = r.defined ∧ mid.left ≤ r.left := by
    rw [hmid]
    split
    · refine ⟨rfl, rfl, ?_⟩
      have := (r.skip 1).left_padding
      rw [State.left_skip] at this
      omega
    · exact ⟨rfl, rfl, le_rfl⟩
  refine ⟨rfl, hmidframe.1, hmidframe.2.1, ?_, fun t hq hl hdef => ?_⟩
  · have := (mid.skip 1).left_padding
    rw [State.left_skip] at this
    omega
  have hruns : Runs rules uniforms t r.rest t mid.rest := by
    rw [hmid]
    split
    · rename_i hw2
      have hstep := step_magic rules uniforms 34 .coordinate hq
        (hdef _ (hsecond hw2)) (by decide) (bits_lt _ _ _) (by simp)
      simp only [Thread.access, hl, Bool.false_eq_true, ↓reduceIte] at hstep
      refine (Runs.word (by omega) ?_).trans (Runs.padding hq)
      rw [hw2]
      exact hstep
    · exact Runs.refl
  have hq' : Quiet { t with texels := t.texels + 4 } := ⟨hq.late, hq.switched, hq.ended⟩
  have hdst : bits (mid.word 0) 32 6 = 33 ∨ bits (mid.word 0) 32 6 = 41 := by tauto
  have hin : bits (mid.word 0) 0 6 ∈ t.defined := hdef _ (by
    simpa [State.defines, hmidframe.2.1] using hreg)
  have hstep := step_magic rules uniforms (bits (mid.word 0) 32 6) .request hq hin
    (bits_lt _ _ _) (bits_lt _ _ _)
    (by rcases hdst with hd | hd <;> simp [hd])
  have haccess : t.access rules.machine uniforms false .request =
      some { t with texels := t.texels + 4 } := by simp [Thread.access, hl]
  rw [haccess] at hstep
  refine hruns.trans ((Runs.word (by omega) ?_).trans (Runs.padding hq'))
  rw [hw]
  exact hstep

theorem action_switch : (fields switch).action = some { access := .switch } := by decide

/-- A thread switch and its delay slots. -/
theorem execute_switch (hq : Quiet t) (hl : t.locked = false) :
    execute rules.machine uniforms [switch, nop, nop, nop] t = some t := by
  have hmid : (({ t with switched := true } : Thread).write {}) = t :=
    (rfl : _ = t.write {}).trans (write_idle hq rfl rfl rfl rfl)
  have hready : ({ t with switched := true } : Thread).ready {} := by
    simp [Thread.ready, hq.ended]
  rw [execute_cons, step_eq action_switch (by simp [Thread.ready, hq.ended]),
    write_idle hq rfl rfl rfl rfl, hq.switched]
  have hswitch : t.access rules.machine uniforms false .switch = some { t with switched := true } := by
    simp [Thread.access, Thread.switch, hl]
  rw [hswitch, Option.bind_some, execute_cons, step_eq action_nop hready, hmid]
  exact execute_nops hq (by simp)

variable (rules uniforms) in
/-- The loads that collect the results of a lookup. -/
theorem lookupResults_spec {n : ℕ} {r r' : State} (h : (lookupResults n r).run u o = (.ok r', o')) :
    o' = o ∧ r'.left ≤ r.left ∧
      ∀ t, t.texels = n → Sim rules uniforms r o { t with texels := 0 } →
        ∃ t', Runs rules uniforms t r.rest t' r'.rest ∧ Sim rules uniforms r' o t' := by
  induction n generalizing r o with
  | zero =>
    obtain ⟨rfl, rfl⟩ := pure_ok.mp h
    refine ⟨rfl, le_rfl, fun t ht hsim => ⟨t, Runs.refl, ?_⟩⟩
    have : { t with texels := 0 } = t := by rw [← ht]
    rwa [this] at hsim
  | succ n ih =>
    simp only [lookupResults, bind_ok, expect_ok] at h
    obtain ⟨_, _, ⟨⟨hleft, hw⟩, rfl, rfl⟩, h⟩ := h
    obtain ⟨rfl, hle, hrest⟩ := ih h
    refine ⟨rfl, ?_, fun t ht hsim => ?_⟩
    · have := ((r.skip 1).define (loadRegister (r.word 0))).left_padding
      simp only [State.left_define, State.left_skip] at this
      omega
    · have hreg : loadRegister (r.word 0) < 32 := bits_lt _ 46 5
      have haction := (congrArg (fun w => (fields w).action) hw).trans
        ((congrArg Fields.action (fields_withDestination 4 (by decide) hreg)).trans
          (action_load .texel [] hreg (by simp)))
      have hq : Quiet t := ⟨hsim.late, hsim.switched, hsim.ended⟩
      have hstep : step rules.machine uniforms t (r.word 0) = some
          { t.write { writes := [loadRegister (r.word 0)], access := .texel } with texels := n } := by
        rw [step_eq haction (by simp [Thread.ready, hq.ended, hq.late]), hq.switched]
        simp [Thread.access, Thread.write, ht]
      have hwrite := hsim.write (((r.skip 1).define (loadRegister (r.word 0))).padding)
        (a := { writes := [loadRegister (r.word 0)], access := .texel }) rfl
        (fun x => by
          rw [List.mem_singleton]
          exact State.defines_define (s := r) hreg x) rfl
      obtain ⟨t', hruns, hsim'⟩ := hrest
        { t.write { writes := [loadRegister (r.word 0)], access := .texel } with texels := n } rfl hwrite
      refine ⟨t', (Runs.word hleft hstep).trans (Runs.trans ?_ hruns), hsim'⟩
      exact Runs.padding (s := (r.skip 1).define _) ⟨hwrite.late, hwrite.switched, hwrite.ended⟩

theorem lookupRequest_spec {texture sampler : UWord} {request : LookupRequest}
    (h : (lookupRequest rules texture sampler).run u o = (.ok request, o')) :
    o' = o ∧ if request.constant then
        rules.constants = true ∧ texture = constantTextureToken ∧ sampler = constantSamplerToken
      else
        ∃ h : request.binding < 4, rules.bindingKinds ⟨request.binding, h⟩ ≠ 0 ∧
          (rules.bindingKinds ⟨request.binding, h⟩ = bindingTexture → rules.stage = .pixel) ∧
          texture = textureToken ||| BitVec.ofNat 32 request.binding <<< bindingTokenShift ∧
          sampler = samplerToken ||| BitVec.ofNat 32 request.binding <<< bindingTokenShift := by
  simp only [lookupRequest, ite_ok, bind_ok, rejectIf_ok, pure_ok] at h
  rcases h with ⟨hc, _, _, ⟨hconstants, rfl⟩, rfl, rfl⟩ | ⟨-, h⟩
  · exact ⟨rfl, by simpa using ⟨by simpa using hconstants, hc⟩⟩
  · split at h
    · rename_i hb
      simp only [bind_ok, rejectIf_ok, pure_ok, not_or, not_not, not_and, ne_eq] at h
      obtain ⟨_, _, ⟨htokens, rfl⟩, _, _, ⟨⟨hk, hp⟩, rfl⟩, rfl, rfl⟩ := h
      exact ⟨rfl, by simpa using ⟨hb, hk, fun ht => by_contra fun hn => hp hn ht, htokens⟩⟩
    · simp at h

end Lookups

variable (s' o') in
/-- A lookup is under way: its configuration words are popped and its patch recorded. -/
theorem Sim.lookup {t : Thread} (h : Sim rules uniforms s o t) {p : TexturePatch}
    (hp : p.Allowed rules uniforms) (h0 : p.config0 = s.used)
    (hd : s'.defined = s.defined)
    (hf : s'.frame = (s.used + 2, s.varyings, s.written, s.targetRead, s.samples + 1))
    (ho : o'.patches = o.patches ++ [p]) :
    Sim rules uniforms s' o'
      { t with popped := t.popped + 2, configured := t.configured ++ [t.popped, t.popped + 1] } := by
  simp only [State.frame, Prod.mk.injEq] at hf
  obtain ⟨hu, hv, hw, ht, hs⟩ := hf
  have hdef : ∀ r, s'.defines r = s.defines r := fun r => by simp [State.defines, hd]
  have hinside := hp.inside
  have hadjacent := hp.adjacent
  constructor
  case defined => simpa only [hdef] using h.defined
  case popped => simp [h.popped, hu]
  case used => omega
  case varyings => rw [hv]; exact h.varyings
  case noVaryings => rw [hv]; exact h.noVaryings
  case payload => simpa only [hdef] using h.payload
  case written => rw [hw]; exact h.written
  case locked => rw [ht]; exact h.locked
  case configured =>
    rw [ho, configurations, List.flatMap_append, ← configurations, h.configured, h.popped]
    simp [hadjacent, h0]
  case allowed =>
    intro q hq
    rw [ho, List.mem_append, List.mem_singleton] at hq
    rcases hq with hq | rfl
    · exact h.allowed q hq
    · exact hp
  case samples => rw [ho, hs, List.length_append, h.samples]; rfl
  all_goals first
    | exact h.late | exact h.switched | exact h.ended | exact h.stored | exact h.unwritten
    | exact h.texels | exact h.tiles

theorem lookup_sound : Sound rules uniforms (lookup rules uniforms.length) := by
  intro s o s' o' h
  simp only [lookup, ite_ok, bind_ok, rejectIf_ok, pure_ok, Option.some.injEq, reduceCtorEq,
    false_and, and_false, false_or, not_or, not_not, checkedUniform_ok, recordPatch_ok] at h
  obtain ⟨hw, _, _, ⟨⟨htarget, hsamples, hleft, hcount⟩, rfl⟩, texture, _, ⟨htexture, rfl⟩, sampler, _,
    ⟨hsampler, rfl⟩, request, o1, hrequest, s1, o2, hconfig, ⟨form, s2⟩, o3, hcoordinates, _, _,
    ⟨hform, rfl⟩, _, _, ⟨⟨h4, hswitch, hn1, hn2, hn3, h8⟩, rfl⟩, _, _, rfl, s3, o4, hresults, rfl, rfl⟩ := h
  obtain ⟨rfl, htokens⟩ := lookupRequest_spec hrequest
  obtain ⟨rfl, hframe1, hdef1, hleft1, hruns1⟩ :=
    lookupConfig_spec rules uniforms hconfig
  obtain ⟨rfl, hframe2, hdef2, hleft2, hruns2⟩ :=
    lookupCoordinates_spec rules uniforms hcoordinates
  obtain ⟨rfl, hleft3, hruns3⟩ := lookupResults_spec rules uniforms hresults
  simp only at hswitch hn1 hn2 hn3 h4 hframe2 hdef2 hleft2 hleft3 hruns2 hruns3
  rw [hframe1] at hframe2
  simp only [State.frame, Prod.mk.injEq] at hframe2
  obtain ⟨hu, hv, hwr, htr, hsa⟩ := hframe2
  refine ⟨?_, fun t h => ?_⟩
  · have : (s2.requested request).left = s2.left - 4 := s2.left_skip 4
    omega
  have hunlocked : t.locked = false := by rw [h.locked]; simpa using htarget
  have hq := h.quiet
  have hallowed : TexturePatch.Allowed rules uniforms
      ⟨s2.used, s2.used + 1, request.binding, form, request.constant⟩ := by
    have h0 : uniforms[s.used]? = some texture := by
      rw [← htexture, List.getD_eq_getElem _ _ (by omega)]; exact List.getElem?_eq_getElem _
    have h1 : uniforms[s.used + 1]? = some sampler := by
      rw [← hsampler, List.getD_eq_getElem _ _ (by omega)]; exact List.getElem?_eq_getElem _
    refine ⟨rfl, by simp only [hu]; omega, ?_⟩
    simp only [hu, h0, h1, Option.some.injEq]
    exact htokens
  have hpopped := h.popped
  have htexels := h.texels
  have hsim := h.lookup (s2.requested request)
    { o with patches := o.patches ++ [⟨s2.used, s2.used + 1, request.binding, form, request.constant⟩] }
    hallowed hu (hdef2.trans hdef1)
    (by simp [State.frame, State.requested, hu, hwr, htr, hsa, hv, State.skip]) rfl
  set t1 : Thread := { t with popped := t.popped + 2, configured := t.configured ++ [t.popped, t.popped + 1] }
  have hq1 : Quiet t1 := ⟨hq.late, hq.switched, hq.ended⟩
  have hq2 : Quiet { t1 with texels := t1.texels + 4 } := ⟨hq.late, hq.switched, hq.ended⟩
  obtain ⟨t', hruns, hsim'⟩ := hruns3 { t1 with texels := t1.texels + 4 }
    (show t.texels + 4 = 4 by omega) (by
      have hzero : { t1 with texels := 0 } = t1 := by
        rw [← htexels]
      show Sim _ _ _ _ { t1 with texels := 0 }
      rw [hzero]
      exact hsim.relook rfl)
  refine ⟨t', ?_, hsim'⟩
  have hlookup := (hruns1 t hq hunlocked (by omega)).trans (hruns2 t1 hq1 hunlocked
    (fun x hx => (h.defined x).mpr (by simpa [State.defines, hdef1] using hx)))
  have hswitches : Runs rules uniforms { t1 with texels := t1.texels + 4 } s2.rest
      { t1 with texels := t1.texels + 4 } (s2.skip 4).rest :=
    ⟨_, s2.rest_four (by omega), by rw [hswitch, hn1, hn2, hn3]; exact execute_switch hq2 hunlocked⟩
  exact hlookup.trans (hswitches.trans hruns)

section Target

variable {t : Thread}

/-- Two adjacent switches lock the tile scoreboard. -/
theorem execute_lock (hq : Quiet t) (hl : t.locked = false) :
    execute rules.machine uniforms [switch, switch, nop] t = some { t with locked := true } := by
  have hmid : (({ t with switched := true } : Thread).write { access := .switch }) = t :=
    (rfl : _ = t.write { access := .switch }).trans (write_idle hq rfl rfl rfl rfl)
  have hready : ({ t with switched := true } : Thread).ready { access := .switch } := by
    simp [Thread.ready, hq.ended]
  have hq' : Quiet { t with locked := true } := ⟨hq.late, hq.switched, hq.ended⟩
  have hfirst : t.access rules.machine uniforms false .switch = some { t with switched := true } := by
    simp [Thread.access, Thread.switch, hl]
  have hsecond : t.access rules.machine uniforms true .switch = some { t with locked := true } := by
    simp [Thread.access, Thread.switch, hl]
  rw [execute_cons, step_settled action_switch (by simp [Thread.ready, hq.ended]) hq.switched,
    write_idle hq rfl rfl rfl rfl, hfirst, Option.bind_some, execute_cons,
    step_eq action_switch hready, hmid, hsecond, Option.bind_some]
  exact execute_nops (c := [nop]) hq' (by simp)

theorem step_target {reg : ℕ} (base : Word) (signal : ℕ) (first : Bool) (h : Sim rules uniforms s o t)
    (hbase : fields base = loadOnly signal 0) (hreg : reg < 32)
    (hsignal : (signal, first) ∈ [(16, false), (17, true)]) :
    step rules.machine uniforms t (withDestination base reg) =
      (t.write { writes := [reg], access := .target first }).access rules.machine uniforms false
        (.target first) := by
  have haction := (congrArg Fields.action (fields_withDestination _ hbase hreg)).trans
    (action_load (.target first) [] hreg (by simp at hsignal ⊢; tauto))
  rw [withDestination, step_eq haction (h.ready (by simp) (by simp)), h.switched]

theorem targetChannels_cons {base : Word} {bases : List Word} {r r' : State} :
    (targetChannels (base :: bases) r).run u o = (.ok r', o') ↔
      (r.word 0 = withDestination base (loadRegister (r.word 0)) ∧ r.word 1 = nop) ∧
        (targetChannels bases ((r.skip 2).define (loadRegister (r.word 0)))).run u o = (.ok r', o') := by
  rw [targetChannels]
  simp only [bind_ok, rejectIf_ok, not_or, not_not, ne_eq]
  constructor
  · rintro ⟨_, _, ⟨hw, rfl⟩, h⟩
    exact ⟨hw, h⟩
  · rintro ⟨hw, h⟩
    exact ⟨(), o, ⟨hw, rfl⟩, h⟩

variable (rules uniforms) in
/-- The channels after the first, which pop nothing. -/
theorem targetChannels_spec (n : ℕ) {r r' : State}
    (h : (targetChannels (List.replicate n loadTargetWord) r).run u o = (.ok r', o'))
    (hn : 2 * n ≤ r.left) :
    o' = o ∧ r'.left ≤ r.left ∧ ∀ t, rules.targetReads = true → t.locked = true →
      Sim rules uniforms r o t →
        ∃ t', Runs rules uniforms t r.rest t' r'.rest ∧ Sim rules uniforms r' o t' := by
  induction n generalizing r with
  | zero =>
    obtain ⟨rfl, rfl⟩ := pure_ok.mp h
    exact ⟨rfl, le_rfl, fun t _ _ hsim => ⟨t, Runs.refl, hsim⟩⟩
  | succ n ih =>
    rw [List.replicate_succ] at h
    obtain ⟨⟨hw, hnop⟩, h⟩ := targetChannels_cons.mp h
    obtain ⟨rfl, hle, hrest⟩ := ih h (by simp; omega)
    simp only [State.left_define, State.left_skip] at hle
    refine ⟨rfl, by omega, fun t hreads hlocked hsim => ?_⟩
    have hreg : loadRegister (r.word 0) < 32 := bits_lt _ 46 5
    have hstep := step_target loadTargetWord 16 false hsim (by decide)
      hreg (by simp)
    have hwrite := hsim.write ((r.skip 2).define (loadRegister (r.word 0)))
      (a := { writes := [loadRegister (r.word 0)], access := .target false }) rfl
      (fun x => by
        rw [List.mem_singleton]
        exact State.defines_define (s := r) hreg x) rfl
    have haccess : (t.write { writes := [loadRegister (r.word 0)], access := .target false }).access
        rules.machine uniforms false (.target false) =
        some (t.write { writes := [loadRegister (r.word 0)], access := .target false }) := by
      simp [Thread.access, ProgramRules.machine, hreads, Thread.write, hlocked]
    obtain ⟨t', hruns, hsim'⟩ := hrest _ hreads (by exact hlocked) hwrite
    refine ⟨t', Runs.trans ⟨_, r.rest_two (by omega), ?_⟩ hruns, hsim'⟩
    rw [execute_cons, (congrArg (step rules.machine uniforms t) hw).trans hstep, haccess,
      Option.bind_some, hnop]
    exact execute_nops (c := [nop]) hwrite.quiet (by simp)

theorem targetRead_sound (hfirst : s.word 0 = switch)
    (h : (targetRead rules uniforms.length s).run (uniforms.getD · 0#32) o = (.ok (some s'), o')) :
    Advances rules uniforms s o s' o' := by
  simp only [targetRead, ite_ok, bind_ok, rejectIf_ok, pure_ok, Option.some.injEq, reduceCtorEq,
    false_and, and_false, false_or, not_or, not_not, checkedUniform_ok] at h
  obtain ⟨⟨hleft4, hsecond, hnop, hload⟩, _, _, ⟨⟨hpixel, hreads, hnew, hvaryings, hleft, hused⟩, rfl⟩,
    format, _, ⟨hformat, rfl⟩, _, _, ⟨-, rfl⟩, r, _, hchannels, rfl, rfl⟩ := h
  set s1 : State := { s.skip 3 with used := s.used + 1, targetRead := true }
  obtain ⟨⟨hw, hnop'⟩, hchannels⟩ := targetChannels_cons.mp hchannels
  have hreg : loadRegister (s1.word 0) < 32 := bits_lt _ 46 5
  have hleft1 : s1.left = s.left - 3 := s.left_skip 3
  obtain ⟨rfl, hle, hrest⟩ := targetChannels_spec rules uniforms 3 hchannels
    (by simp; omega)
  simp only [State.left_define, State.left_skip] at hle
  have hreads' : rules.targetReads = true := by simpa using hreads
  refine ⟨by omega, fun t h => ?_⟩
  have hl : t.locked = false := by rw [h.locked]; simpa using hnew
  have hlocked : Sim rules uniforms { s with targetRead := true } o { t with locked := true } := by
    obtain ⟨h1, h2, h3, h4, h5, h6, h7, h8, h9, h10, h11, h12, h13, h14, h15, h16, h17, h18⟩ := h
    exact ⟨h1, h2, h3, h4, h5, h6, h7, h8, h9, h10, h11, h12, h13, h14, rfl, h16, h17, h18⟩
  have hswitches : Runs rules uniforms t s.rest { t with locked := true } s1.rest :=
    ⟨_, s.rest_three (by omega), by rw [hfirst, hsecond, hnop]; exact execute_lock h.quiet hl⟩
  -- The format word is popped with the first channel.
  have hstep := step_target loadTargetFirstWord 17 true hlocked (by decide)
    hreg (by simp)
  have hwrite := hlocked.write { (s1.skip 2).define (loadRegister (s1.word 0)) with used := s.used }
    (a := { writes := [loadRegister (s1.word 0)], access := .target true }) rfl
    (fun x => by
      rw [List.mem_singleton]
      exact State.defines_define (s := s) hreg x) rfl
  set t1 := ({ t with locked := true } : Thread).write
    { writes := [loadRegister (s1.word 0)], access := .target true }
  have hpop := hwrite.taken ((s1.skip 2).define (loadRegister (s1.word 0)))
    (show s.used < _ by omega) t1.contents rfl rfl rfl
  have haccess : t1.access rules.machine uniforms false (.target true) =
      some { t1 with popped := t1.popped + 1, contents := t1.contents } := by
    have := hwrite.pop_eq (show s.used < _ by omega)
    simp only [Thread.access, this]
    simp [ProgramRules.machine, hreads', t1, Thread.write]
  obtain ⟨t', hruns, hsim'⟩ := hrest _ hreads' (by rfl) (hpop.relook rfl)
  refine ⟨t', hswitches.trans (Runs.trans ⟨_, s1.rest_two (by omega), ?_⟩ hruns), hsim'⟩
  rw [execute_cons, (congrArg (step rules.machine uniforms _) hw).trans hstep, haccess,
    Option.bind_some, hnop']
  exact execute_nops (c := [nop]) hpop.quiet (by simp)

end Target

end Shapes

end Pi5Drivers.Validate
