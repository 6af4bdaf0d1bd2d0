import Pi5Drivers.Validate.Sound

/-! Accepted programs run to their end. The loops of the checker and what it
requires behind the body are followed by the abstract machine as the single
shapes are, and the walk is put together: an accepted program never reads a
register without a value, takes its uniforms, varyings and outputs as the rules
say, and ends in its one thread end. -/

namespace Pi5Drivers.Validate

open Qpu Abi Tracked

section Loops

variable {rules : ProgramRules} {uniforms : List UWord} {u : ℕ → UWord} {s s' : State} {o o' : Outputs}

/-- From `s` to `s'` the machine follows the walk, perhaps without a step. -/
def Follows (rules : ProgramRules) (uniforms : List UWord) (s : State) (o : Outputs) (s' : State)
    (o' : Outputs) : Prop :=
  s'.left ≤ s.left ∧ ∀ t, Sim rules uniforms s o t →
    ∃ t', Runs rules uniforms t s.rest t' s'.rest ∧ Sim rules uniforms s' o' t'

theorem Advances.follows (h : Advances rules uniforms s o s' o') : Follows rules uniforms s o s' o' :=
  ⟨h.1.le, h.2⟩

theorem Follows.refl : Follows rules uniforms s o s o := ⟨le_rfl, fun t h => ⟨t, Runs.refl, h⟩⟩

theorem Follows.trans {s'' : State} {o'' : Outputs} (h : Follows rules uniforms s o s' o')
    (h' : Follows rules uniforms s' o' s'' o'') : Follows rules uniforms s o s'' o'' := by
  refine ⟨h'.1.trans h.1, fun t ht => ?_⟩
  obtain ⟨t', hruns, hsim⟩ := h.2 t ht
  obtain ⟨t'', hruns', hsim'⟩ := h'.2 t' hsim
  exact ⟨t'', hruns.trans hruns', hsim'⟩

/-- A shape that takes no words has looked at no uniform. -/
def Idle (shape : State → Check (Option State)) : Prop :=
  ∀ u s o o', (shape s).run u o = (.ok none, o') → o' = o

/-- What the loop needs of a shape. -/
def Fits (rules : ProgramRules) (uniforms : List UWord) (shape : State → Check (Option State)) : Prop :=
  Sound rules uniforms shape ∧ Idle shape

theorem firstShape_fits {shapes : List (State → Check (Option State))}
    (h : ∀ shape ∈ shapes, Fits rules uniforms shape) : Fits rules uniforms (firstShape shapes) := by
  induction shapes with
  | nil =>
    refine ⟨fun s o s' o' hrun => ?_, fun u s o o' hrun => ?_⟩
    · simp [firstShape] at hrun
    · simpa [firstShape, eq_comm] using hrun
  | cons shape shapes ih =>
    obtain ⟨⟨hsound, hidle⟩, hshapes⟩ := List.forall_mem_cons.mp h
    obtain ⟨ihsound, ihidle⟩ := ih hshapes
    constructor
    · intro s o s' o' hrun
      obtain ⟨r, o1, hshape, hrest⟩ := bind_ok.mp hrun
      cases r with
      | none =>
        obtain rfl := hidle _ s o o1 hshape
        exact ihsound s o1 s' o' hrest
      | some r =>
        obtain ⟨hr, rfl⟩ := pure_ok.mp hrest
        cases hr
        exact hsound s o _ o1 hshape
    · intro u s o o' hrun
      obtain ⟨r, o1, hshape, hrest⟩ := bind_ok.mp hrun
      cases r with
      | none => exact (ihidle u s o1 o' hrest).trans (hidle u s o o1 hshape)
      | some r =>
        obtain ⟨hr, -⟩ := pure_ok.mp hrest
        cases hr

/-- The loop body is sound, so the loop is. -/
theorem repeatItems_follows {turn : State → Check (Option State)} (hturn : Fits rules uniforms turn)
    {fuel : ℕ} (h : (repeatItems turn fuel s).run (uniforms.getD · 0#32) o = (.ok s', o')) :
    Follows rules uniforms s o s' o' := by
  induction fuel generalizing s o with
  | zero =>
    obtain ⟨rfl, rfl⟩ := pure_ok.mp h
    exact Follows.refl
  | succ fuel ih =>
    rw [repeatItems, ite_ok] at h
    rcases h with ⟨-, h⟩ | ⟨-, h⟩
    · obtain ⟨rfl, rfl⟩ := pure_ok.mp h
      exact Follows.refl
    · obtain ⟨r, o1, hrun, hrest⟩ := bind_ok.mp h
      cases r with
      | none =>
        obtain ⟨rfl, rfl⟩ := pure_ok.mp hrest
        obtain rfl := hturn.2 _ s o o1 hrun
        exact Follows.refl
      | some r => exact (hturn.1 s o r o1 hrun).follows.trans (ih hrest)

/-- The fuel of a loop is the number of words left, and every turn takes a word, so
the loop ends as the source's does: at the end of the program or where a turn
says so. -/
theorem repeatItems_ends {turn : State → Check (Option State)} (hturn : Sound rules uniforms turn)
    {fuel : ℕ} (hfuel : s.left ≤ fuel)
    (h : (repeatItems turn fuel s).run (uniforms.getD · 0#32) o = (.ok s', o')) :
    s'.left = 0 ∨ ∃ o1, (turn s').run (uniforms.getD · 0#32) o1 = (.ok none, o') := by
  induction fuel generalizing s o with
  | zero =>
    obtain ⟨rfl, rfl⟩ := pure_ok.mp h
    exact .inl (by omega)
  | succ fuel ih =>
    rw [repeatItems, ite_ok] at h
    rcases h with ⟨hleft, h⟩ | ⟨-, h⟩
    · obtain ⟨rfl, rfl⟩ := pure_ok.mp h
      exact .inl hleft
    · obtain ⟨r, o1, hrun, hrest⟩ := bind_ok.mp h
      cases r with
      | none =>
        obtain ⟨rfl, rfl⟩ := pure_ok.mp hrest
        exact .inr ⟨o, hrun⟩
      | some r =>
        have := (hturn s o r o1 hrun).1
        exact ih (by omega) hrest

end Loops

section Idle

theorem vpmStore_idle (rules : ProgramRules) (count : ℕ) : Idle (vpmStore rules count) := by
  intro u s o o' h
  simp only [vpmStore, ite_ok, bind_ok, rejectIf_ok, pure_ok, reduceCtorEq, false_and, and_false,
    exists_const, checkedUniform_ok] at h
  grind

theorem targetRead_idle (rules : ProgramRules) (count : ℕ) : Idle (targetRead rules count) := by
  intro u s o o' h
  simp only [targetRead, ite_ok, bind_ok, rejectIf_ok, pure_ok, reduceCtorEq, false_and, and_false,
    exists_const, checkedUniform_ok] at h
  grind

theorem varying_idle (rules : ProgramRules) : Idle (varying rules) := by
  intro u s o o' h
  simp only [varying, ite_ok, bind_ok, rejectIf_ok, pure_ok, reduceCtorEq, false_and, and_false,
    exists_const] at h
  grind

theorem lookup_idle (rules : ProgramRules) (count : ℕ) : Idle (lookup rules count) := by
  intro u s o o' h
  simp only [lookup, ite_ok, bind_ok, rejectIf_ok, pure_ok, reduceCtorEq, false_and, and_false,
    exists_const, checkedUniform_ok] at h
  grind

/-- Shapes that look at no uniform. -/
theorem register_idle (count : ℕ) : ∀ shape ∈ [moveImmediate, paired count, smallImmediate, selectCopy,
    flagPair, normalization, comparisonTriple], Idle shape := by
  simp only [List.forall_mem_cons, List.not_mem_nil, false_implies, implies_true, and_true]
  refine ⟨?_, ?_, ?_, ?_, ?_, ?_, ?_⟩ <;> intro u s o o' h <;>
    simp only [moveImmediate, paired, smallImmediate, selectCopy, flagPair, normalization,
      comparisonTriple, ite_ok, bind_ok, rejectIf_ok, pure_ok, reduceCtorEq, false_and, and_false,
      exists_const, false_or] at h <;> grind

theorem plain_idle (rules : ProgramRules) (count : ℕ) : Idle (plain rules count) := by
  intro u s o o' h
  simp only [plain, ite_ok, bind_ok, rejectIf_ok, pure_ok, reduceCtorEq, false_and, and_false,
    exists_const] at h
  grind

end Idle

section Body

variable {rules : ProgramRules} {uniforms : List UWord} {s s' : State} {o o' : Outputs}
  (hvaryings : rules.varyingScalars ≤ maxVaryings)
include hvaryings

variable (uniforms) in
theorem shapes_fit : ∀ shape ∈ shapes rules uniforms.length, Fits rules uniforms shape := by
  have hidle := register_idle uniforms.length
  simp only [List.forall_mem_cons, List.not_mem_nil, false_implies, implies_true, and_true] at hidle
  obtain ⟨h1, h2, h3, h4, h5, h6, h7⟩ := hidle
  simp only [shapes, List.forall_mem_cons, List.not_mem_nil, false_implies, implies_true, and_true]
  exact ⟨⟨vpmStore_sound hvaryings, vpmStore_idle _ _⟩, ⟨varying_sound, varying_idle _⟩,
    ⟨lookup_sound, lookup_idle _ _⟩, ⟨moveImmediate_sound, h1⟩, ⟨paired_sound, h2⟩,
    ⟨smallImmediate_sound, h3⟩, ⟨selectCopy_sound, h4⟩, ⟨flagPair_sound, h5⟩,
    ⟨normalization_sound, h6⟩, ⟨comparisonTriple_sound, h7⟩, ⟨plain_sound, plain_idle _ _⟩⟩

theorem item_fits : Fits rules uniforms (item rules uniforms.length) := by
  have hshapes := firstShape_fits (shapes_fit uniforms hvaryings)
  constructor
  · intro s o s' o' h
    rw [item, ite_ok, ite_ok] at h
    rcases h with ⟨hswitch, h⟩ | ⟨-, ⟨-, h⟩ | ⟨-, h⟩⟩
    · exact targetRead_sound hswitch h
    · simp at h
    · exact hshapes.1 s o s' o' h
  · intro u s o o' h
    rw [item, ite_ok, ite_ok] at h
    rcases h with ⟨-, h⟩ | ⟨-, ⟨-, h⟩ | ⟨-, h⟩⟩
    · exact targetRead_idle _ _ u s o o' h
    · simpa [eq_comm] using h
    · exact hshapes.2 u s o o' h

end Body

/-! ### Behind the body -/

section Tail

variable {rules : ProgramRules} {uniforms : List UWord} {u : ℕ → UWord} {s s' : State} {o o' : Outputs}
  {t : Thread}

/-- The walk behind the last thread switch. -/
def State.locked (s : State) : State := { s with targetRead := true }

theorem Sim.locked_eq (h : Sim rules uniforms s o t) :
    Sim rules uniforms s.locked o { t with locked := true } := by
  obtain ⟨h1, h2, h3, h4, h5, h6, h7, h8, h9, h10, h11, h12, h13, h14, h15, h16, h17, h18⟩ := h
  exact ⟨h1, h2, h3, h4, h5, h6, h7, h8, h9, h10, h11, h12, h13, h14, rfl, h16, h17, h18⟩

theorem colourWrites_cons {magic : ℕ} {magics : List ℕ} :
    (colourWrites (magic :: magics) s).run u o = (.ok s', o') ↔
      (1 ≤ s.left ∧ s.defines (bits (s.word 0) 0 6) = true ∧
        s.word 0 = add 182 magic (bits (s.word 0) 0 6) (bits (s.word 0) 0 6) true) ∧
        (colourWrites magics (s.skip 1)).run u o = (.ok s', o') := by
  rw [colourWrites]
  simp only [bind_ok, rejectIf_ok, not_or, not_not, ne_eq]
  constructor
  · rintro ⟨_, _, ⟨hleft, rfl⟩, _, _, ⟨hw, rfl⟩, h⟩
    exact ⟨⟨by omega, hw⟩, h⟩
  · rintro ⟨⟨hleft, hw⟩, h⟩
    exact ⟨(), o, ⟨by omega, rfl⟩, (), o, ⟨hw, rfl⟩, h⟩

variable (rules uniforms) in
/-- The writes after the first, which pop nothing. -/
theorem colourWrites_spec (n : ℕ) (h : (colourWrites (List.replicate n 7) s).run u o = (.ok s', o'))
    (hpixel : rules.stage = .pixel) :
    s' = s.skip n ∧ o' = o ∧ ∀ t, Quiet t → t.locked = true →
      (∀ r, s.defines r = true → r ∈ t.defined) →
        Runs rules uniforms t s.rest { t with tiles := t.tiles + n } s'.rest := by
  induction n generalizing s with
  | zero =>
    obtain ⟨rfl, rfl⟩ := pure_ok.mp h
    exact ⟨by simp [State.skip], rfl, fun t _ _ _ => Runs.refl⟩
  | succ n ih =>
    rw [List.replicate_succ] at h
    obtain ⟨⟨hleft, hdef, hw⟩, h⟩ := colourWrites_cons.mp h
    obtain ⟨rfl, rfl, hrest⟩ := ih h
    refine ⟨by simp [State.skip], rfl, fun t hq hl hsub => ?_⟩
    have hstep := (congrArg (step rules.machine uniforms t) hw).trans
      (step_magic rules uniforms _ (.tile false) hq (hsub _ hdef)
        (by decide) (bits_lt _ _ _) (by simp))
    have haccess : t.access rules.machine uniforms false (.tile false) =
        some { t with tiles := t.tiles + 1 } := by
      simp [Thread.access, ProgramRules.machine, hpixel, hl]
    have := hrest { t with tiles := t.tiles + 1 } ⟨hq.late, hq.switched, hq.ended⟩ hl hsub
    rw [show t.tiles + (n + 1) = t.tiles + 1 + n by omega]
    exact (Runs.word hleft (hstep.trans haccess)).trans this

section Outputs

variable (hvaryings : rules.varyingScalars ≤ maxVaryings)

/-- Stores are checked alike before and behind the last thread switch. -/
theorem vpmStore_locked {count : ℕ} {r : Option State}
    (h : (vpmStore rules count s).run u o = (.ok r, o')) :
    (vpmStore rules count s.locked).run u o = (.ok (r.map State.locked), o') := by
  have hword : ∀ i, s.locked.word i = s.word i := fun _ => rfl
  have hdef : ∀ i, s.locked.defines i = s.defines i := fun _ => rfl
  simp only [vpmStore, ite_ok, bind_ok, rejectIf_ok, pure_ok, checkedUniform_ok, hword, hdef] at h ⊢
  rcases h with ⟨hpixel, rfl, rfl⟩ | ⟨hpixel, ⟨hw, _, _, ⟨hchecks, rfl⟩, rfl, rfl⟩ | ⟨hw, ⟨hw', rfl, rfl⟩ |
    ⟨hw', ⟨hw'', rfl, rfl⟩ | ⟨hw'', _, _, ⟨hused, rfl⟩, index, _, ⟨hindex, rfl⟩, _, _, ⟨hchecks, rfl⟩,
      rfl, rfl⟩⟩⟩⟩
  · exact .inl ⟨hpixel, rfl, rfl⟩
  · exact .inr ⟨hpixel, .inl ⟨hw, (), _, ⟨hchecks, rfl⟩, rfl, rfl⟩⟩
  · exact .inr ⟨hpixel, .inr ⟨hw, .inl ⟨hw', rfl, rfl⟩⟩⟩
  · exact .inr ⟨hpixel, .inr ⟨hw, .inr ⟨hw', .inl ⟨hw'', rfl, rfl⟩⟩⟩⟩
  · exact .inr ⟨hpixel, .inr ⟨hw, .inr ⟨hw', .inr ⟨hw'', (), _, ⟨hused, rfl⟩, index, _, ⟨hindex, rfl⟩, (), _,
      ⟨hchecks, rfl⟩, rfl, rfl⟩⟩⟩⟩

theorem repeatItems_locked (turn : State → Check (Option State))
    (hturn : ∀ s o o' r, (turn s).run u o = (.ok r, o') →
      (turn s.locked).run u o = (.ok (r.map State.locked), o'))
    {fuel : ℕ} (h : (repeatItems turn fuel s).run u o = (.ok s', o')) :
    (repeatItems turn fuel s.locked).run u o = (.ok s'.locked, o') := by
  induction fuel generalizing s o with
  | zero =>
    obtain ⟨rfl, rfl⟩ := pure_ok.mp h
    rfl
  | succ fuel ih =>
    rw [repeatItems, ite_ok] at h ⊢
    rcases h with ⟨hleft, h⟩ | ⟨hleft, h⟩
    · obtain ⟨rfl, rfl⟩ := pure_ok.mp h
      exact .inl ⟨hleft, rfl⟩
    · obtain ⟨r, o1, hrun, hrest⟩ := bind_ok.mp h
      refine .inr ⟨hleft, bind_ok.mpr ⟨_, o1, hturn s o o1 r hrun, ?_⟩⟩
      cases r with
      | none =>
        obtain ⟨rfl, rfl⟩ := pure_ok.mp hrest
        rfl
      | some r => exact ih hrest

end Outputs

/-- What follows the body up to the thread end. -/
theorem tail_spec (hvaryings : rules.varyingScalars ≤ maxVaryings)
    (h : (tail rules uniforms.length s).run (uniforms.getD · 0#32) o = (.ok s', o')) :
    (if rules.stage = .pixel then s'.varyings = s.varyings
      else s'.written = 1#32 <<< outputs rules - 1#32) ∧
      ∀ t, Sim rules uniforms s.locked o t →
        ∃ t', Runs rules uniforms t s.rest t' s'.rest ∧
          Sim rules uniforms s'.locked o' { t' with tiles := 0 } ∧
          t'.tiles = if rules.stage = .pixel then 4 else 0 := by
  simp only [tail, ite_ok, bind_ok, rejectIf_ok, pure_ok, not_not, ne_eq, checkedUniform_ok] at h
  rcases h with ⟨hpixel, r, o1, hwrites, _, _, ⟨hused, rfl⟩, format, _, ⟨hformat, rfl⟩, _, _, ⟨-, rfl⟩,
    rfl, rfl⟩ | ⟨hpixel, r, o1, hstores, _, _, ⟨hwritten, rfl⟩, rfl, rfl⟩
  · obtain ⟨⟨hleft, hdef, hw⟩, hwrites⟩ := colourWrites_cons.mp hwrites
    obtain ⟨rfl, rfl, hrest⟩ := colourWrites_spec rules uniforms 3
      hwrites hpixel
    refine ⟨by rw [if_pos hpixel]; rfl, fun t ht => ?_⟩
    replace hused : s.used < uniforms.length := not_le.mp hused
    have hlocked : t.locked = true := ht.locked
    have hstep := (congrArg (step rules.machine uniforms t) hw).trans
      (step_magic rules uniforms _ (.tile true) ht.quiet
        ((ht.defined _).mpr hdef) (by decide) (bits_lt _ _ _) (by simp))
    have haccess : t.access rules.machine uniforms false (.tile true) =
        some { t with tiles := t.tiles + 1, popped := t.popped + 1 } := by
      have hpopped : t.popped < uniforms.length := by rw [ht.popped]; exact hused
      simp [Thread.access, Thread.pop, ProgramRules.machine, hpixel, hlocked, hpopped]
    have hfirst := Runs.word hleft (hstep.trans haccess)
    have hothers := hrest { t with tiles := t.tiles + 1, popped := t.popped + 1 }
      ⟨ht.late, ht.switched, ht.ended⟩ hlocked fun x hx => (ht.defined x).mpr hx
    refine ⟨_, hfirst.trans hothers, ?_, by simp [hpixel, ht.tiles]⟩
    have hsim := ht.taken (State.locked { (s.skip 1).skip 3 with used := s.used + 1 })
      hused t.contents rfl rfl rfl
    have hthread : ({ t with popped := t.popped + 1, tiles := 0 } : Thread) =
        { t with popped := t.popped + 1, contents := t.contents } := by
      simp only [ht.tiles]
    rw [← hthread] at hsim
    exact hsim.relook rfl
  · refine ⟨by rw [if_neg hpixel]; exact hwritten, fun t ht => ?_⟩
    have hrun := repeatItems_locked (vpmStore rules uniforms.length)
      (fun _ _ _ _ => vpmStore_locked) hstores
    obtain ⟨t', hruns, hsim⟩ := (repeatItems_follows
      ⟨vpmStore_sound hvaryings, vpmStore_idle _ _⟩ hrun).2 t ht
    refine ⟨t', hruns, ?_, by simp [hpixel, hsim.tiles]⟩
    have : { t' with tiles := 0 } = t' := by rw [← hsim.tiles]
    rw [this]
    exact hsim

end Tail

/-! ### The whole program -/

section Program

/-- The thread as the hardware starts it: pixel shaders with varyings find the
payload of the interpolation in `rf0` and `rf3`. -/
def ProgramRules.start (rules : ProgramRules) : Thread where
  defined := if rules.stage = .pixel ∧ rules.varyingScalars ≠ 0 then {0, 3} else ∅

/-- What the driver relies on when it runs a program: the machine executes it to
the end, so that every word belongs to the instruction set, no register is read
before it holds its value and no unit is used out of turn. -/
structure Finishes (rules : ProgramRules) (code : List Word) (uniforms : List UWord) (o : Outputs)
    (t : Thread) : Prop where
  runs : execute rules.machine uniforms code rules.start = some t
  popped : t.popped = uniforms.length
  configured : t.configured = configurations o.patches
  allowed : ∀ p ∈ o.patches, p.Allowed rules uniforms
  collected : t.texels = 0
  varyings : t.varyings = if rules.stage = .pixel then rules.varyingScalars else 0
  stored : if rules.stage = .pixel then t.stored = [] else t.stored.Perm (List.range (outputs rules))
  tiles : t.tiles = if rules.stage = .pixel then 4 else 0
  locked : t.locked = true
  settled : t.late = ∅
  ended : t.ended = some 2
  registers : ∀ r, r ∈ t.defined ↔ defines o.registers r = true

variable {rules : ProgramRules} {uniforms : List UWord} {s s' : State} {o o' : Outputs} {t : Thread}

/-- The last words of every program. -/
theorem execute_end (hq : Quiet t) (hl : t.locked = true) :
    execute rules.machine uniforms [nop, switch, nop, nop] t = some { t with ended := some 2 } := by
  have hready : t.ready { access := .switch } := by simp [Thread.ready, hq.ended]
  have hend : t.access rules.machine uniforms false .switch = some { t with ended := some 0 } := by
    simp [Thread.access, Thread.switch, hl]
  have hslot : ∀ n < 2, step rules.machine uniforms { t with ended := some n } nop =
      some { t with ended := some (n + 1) } := by
    intro n hn
    rw [step_eq action_nop (by simp [Thread.ready]; omega)]
    have h1 := hq.late
    have h2 := hq.switched
    obtain ⟨defined, late, contents, flagged, popped, configured, texels, varyings, stored, tiles,
      switched, locked, ended⟩ := t
    simp only at h1 h2
    subst h1 h2
    simp [Thread.write, Thread.access]
  rw [execute_cons, step_nop hq, Option.bind_some, execute_cons, step_settled action_switch hready hq.switched,
    write_idle hq rfl rfl rfl rfl, hend, Option.bind_some, execute_cons, hslot 0 (by omega),
    Option.bind_some, execute_cons, hslot 1 (by omega)]
  rfl

/-- Every output slot is stored once. -/
theorem Sim.stored_perm (h : Sim rules uniforms s o t) (hvaryings : rules.varyingScalars ≤ maxVaryings)
    (hw : s.written = 1#32 <<< outputs rules - 1#32) : t.stored.Perm (List.range (outputs rules)) := by
  refine (List.perm_ext_iff_of_nodup h.stored List.nodup_range).mpr fun i => ?_
  rw [h.written, List.mem_range, hw]
  have hle := outputs_le hvaryings
  refine and_iff_left_of_imp fun hi => ?_
  have hpow : 2 ^ outputs rules ≤ 2 ^ 28 := Nat.pow_le_pow_right (by decide) hle
  have hpos : 0 < 2 ^ outputs rules := by positivity
  have hmask : (1#32 <<< outputs rules - 1#32).toNat = 2 ^ outputs rules - 1 := by
    rw [BitVec.toNat_sub, BitVec.toNat_shiftLeft, Nat.shiftLeft_eq]
    simp only [BitVec.toNat_ofNat]
    omega
  rw [BitVec.getLsbD, hmask, Nat.testBit_two_pow_sub_one]
  simpa using hi

/-- The last thread switch before the tail, unless the body has passed it. -/
theorem lock_follows (h : ¬(¬s.targetRead ∧ (s.left < 3 ∨ s.word 0 ≠ switch ∨ s.word 1 ≠ switch ∨ s.word 2 ≠ nop)))
    (ht : Sim rules uniforms s o t) :
    ∃ t', Runs rules uniforms t s.rest t' (if s.targetRead then s else s.skip 3).rest ∧
      Sim rules uniforms (if s.targetRead then s else s.skip 3).locked o t' := by
  by_cases hread : s.targetRead = true
  · refine ⟨t, ?_, ?_⟩
    · rw [if_pos hread]
      exact Runs.refl
    · rw [if_pos hread]
      exact ht.congr rfl (by simp [State.frame, State.locked, hread])
  · simp only [hread, not_and, not_or, not_not, ne_eq, Bool.false_eq_true, not_false_eq_true,
      true_implies] at h
    obtain ⟨hleft, h0, h1, h2⟩ := h
    refine ⟨{ t with locked := true }, ?_, ?_⟩
    · rw [if_neg hread]
      refine ⟨_, s.rest_three (by omega), ?_⟩
      rw [h0, h1, h2]
      exact execute_lock ht.quiet (by rw [ht.locked]; simpa using hread)
    · rw [if_neg hread]
      exact ht.locked_eq.congr rfl rfl

theorem walk_finishes {code : List Word} (hvaryings : rules.varyingScalars ≤ maxVaryings)
    (h : (walk rules uniforms.length code).run (uniforms.getD · 0#32) .cleared = (.ok true, o')) :
    ∃ t, Finishes rules code uniforms o' t := by
  simp only [walk, bind_ok, rejectIf_ok, pure_ok] at h
  obtain ⟨s1, o1, hbody, _, _, ⟨hcount, rfl⟩, _, _, ⟨hswitch, rfl⟩, s2, o2, htail, _, _, ⟨hend, rfl⟩, _, _,
    huse, -, rfl⟩ := h
  simp only [not_or, not_not, ne_eq] at hend
  obtain ⟨-, -, hused, hrest⟩ := hend
  set s0 : State := { rest := code, used := 0, varyings := 0, written := 0#32, targetRead := false
                      samples := 0, constantSamples := 0, bindingsUsed := 0#32
                      defined := if rules.stage = .pixel ∧ rules.varyingScalars ≠ 0
                        then define (define 0#32 0) 3 else 0#32 } with hs0
  have hstart : Sim rules uniforms s0 .cleared rules.start := by
    have hdefines : ∀ r, s0.defines r = true ↔
        rules.stage = .pixel ∧ rules.varyingScalars ≠ 0 ∧ (r = 3 ∨ r = 0) := by
      intro r
      have hnone : ∀ r, defines 0#32 r = false := fun r => by simp [defines]
      by_cases hp : rules.stage = .pixel ∧ rules.varyingScalars ≠ 0
      · rw [State.defines, hs0]
        simp only [if_pos hp, defines_define _ (show 3 < 32 by decide),
          defines_define _ (show 0 < 32 by decide), hnone]
        simp [hp]
      · rw [State.defines, hs0]
        simp only [if_neg hp, hnone]
        tauto
    constructor
    case defined =>
      intro r
      rw [hdefines, ProgramRules.start]
      split
      · simp only [Finset.mem_insert, Finset.mem_singleton]
        tauto
      · simp only [Finset.notMem_empty, false_iff]
        tauto
    case payload => exact fun hp hn => ⟨(hdefines 0).mpr ⟨hp, hn, .inr rfl⟩, (hdefines 3).mpr ⟨hp, hn, .inl rfl⟩⟩
    all_goals simp [ProgramRules.start, hs0, Outputs.cleared, configurations]
  obtain ⟨t1, hruns1, hsim1⟩ := (repeatItems_follows (item_fits hvaryings) hbody).2 _ hstart
  obtain ⟨t2, hruns2, hsim2⟩ := lock_follows hswitch hsim1
  obtain ⟨hdone, htail⟩ := tail_spec hvaryings htail
  obtain ⟨t3, hruns3, hsim3, htiles⟩ := htail t2 hsim2
  obtain ⟨c, hcode, hexec⟩ := hruns1.trans (hruns2.trans hruns3)
  have hexec : execute rules.machine uniforms code rules.start = some { t3 with ended := some 2 } := by
    rw [show code = c ++ s2.rest from hcode, execute_append, hexec, Option.bind_some, hrest]
    exact execute_end ⟨hsim3.late, hsim3.switched, hsim3.ended⟩ hsim3.locked
  unfold recordUse at huse
  obtain rfl := modify_ok.mp huse
  have hvar : (if s1.targetRead then s1 else s1.skip 3).varyings = s1.varyings := by split <;> rfl
  refine ⟨_, hexec, hsim3.popped.trans hused, hsim3.configured, hsim3.allowed, hsim3.texels, ?_, ?_, htiles,
    hsim3.locked, hsim3.late, rfl, hsim3.defined⟩
  · have := hsim3.varyings
    by_cases hpixel : rules.stage = .pixel
    · simp only [hpixel, true_and, not_not] at hcount
      rw [if_pos hpixel] at hdone ⊢
      exact this.trans (hdone.trans (hvar.trans hcount))
    · rw [if_neg hpixel]
      exact this.trans (hsim3.noVaryings hpixel)
  · by_cases hpixel : rules.stage = .pixel
    · rw [if_pos hpixel]
      exact hsim3.unwritten hpixel
    · rw [if_neg hpixel] at hdone ⊢
      exact hsim3.stored_perm hvaryings hdone

/-- **Accepted programs are safe.** -/
theorem validateProgram_finishes {code : List Word}
    (h : (validateProgram code uniforms rules).1 = true) :
    ∃ t, Finishes rules code uniforms (validateProgram code uniforms rules).2 t := by
  unfold validateProgram at h ⊢
  split at h
  · rename_i hadmissible
    rw [if_pos hadmissible]
    rcases hwalk : (walk rules uniforms.length code).run (uniforms.getD · 0#32) .cleared with ⟨r, o'⟩
    rw [hwalk] at h
    rcases r with ⟨⟩ | valid
    · cases h
    · obtain rfl : valid = true := h
      exact walk_finishes hadmissible.2.2.2.2.1 hwalk
  · cases h

/-- A pixel shader that paints one uniform. -/
theorem paint_finishes : ∃ t, Finishes {} [withDestination loadUniformWord 0, switch, switch, nop,
    add 182 8 0 0 true, add 182 7 0 0 true, add 182 7 0 0 true, add 182 7 0 0 true, nop, switch, nop, nop]
    [5#32, tileFormat] (validateProgram [withDestination loadUniformWord 0, switch, switch, nop,
      add 182 8 0 0 true, add 182 7 0 0 true, add 182 7 0 0 true, add 182 7 0 0 true, nop, switch, nop, nop]
      [5#32, tileFormat] {}).2 t :=
  validateProgram_finishes (by decide)

end Program

end Pi5Drivers.Validate
