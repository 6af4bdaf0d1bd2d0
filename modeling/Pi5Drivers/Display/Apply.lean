import Mathlib.Data.List.Basic
import Pi5Drivers.Display.Output

/-! What setting the registers of an output does. Nothing of it changes what the driver knows,
and when it succeeds every register holds what its state has for it, and frames of the
right timing were seen. -/

namespace Pi5Drivers.Display

open Effect Recorded

/-! ### Programs that only look -/

/-- A program that changes nothing of what the driver knows and writes no register. -/
abbrev Idle {α : Type} (x : Drive α) : Prop :=
  ∀ P : Outputs → List Event → Prop,
    Triple (fun c => P c.state c.trace) x (fun _ c => P c.state c.trace) fun _ c => P c.state c.trace

section Idle

variable {α β : Type} {p : Port}

theorem Idle.bind {x : Drive α} {f : α → Drive β} (hx : Idle x) (hf : ∀ a, Idle (f a)) : Idle (x >>= f) :=
  fun P => Triple.bind (hx P) fun a => hf a P

theorem idle_pure (a : α) : Idle (pure a : Drive α) := fun _ => Triple.pure fun _ => id

theorem idle_stop (e : Status) : Idle (stop e : Drive α) := fun _ => Triple.stop fun _ => id

theorem idle_ask (f : World → ℕ → α) : Idle (ask f) := fun _ _ h => h

theorem idle_lookAt : Idle (lookAt p) := fun _ _ h => h

theorem idle_read (r : Register) : Idle (read p r) := idle_ask _

theorem idle_require (q : Prop) [Decidable q] (e : Status) : Idle (require q e) :=
  fun _ => Triple.require (fun _ h _ => h) fun _ h _ => h

theorem idle_ofExcept (r : Except Status α) : Idle (ofExcept r : Drive α) :=
  fun _ => Triple.ofExcept (fun _ _ h => h) fun _ _ h => h

theorem idle_ite {q : Prop} [Decidable q] {x y : Drive α} (hx : Idle x) (hy : Idle y) : Idle (if q then x else y) :=
  fun P => Triple.ite (fun _ => hx P) fun _ => hy P

theorem idle_readFields (fs : List NativeField) (v : NativeState) : Idle (readFields p fs v) := by
  induction fs generalizing v with
  | nil => exact idle_pure v
  | cons f l ih => exact (idle_read _).bind fun x => ih _

theorem idle_saveNative : Idle (saveNative p) := by
  unfold saveNative
  exact idle_readFields _ _

theorem idle_waitBits (f : NativeField) (mask value : BitVec 32) : Idle (waitBits p f mask value) := by
  have rounds (n : ℕ) : Idle (waitBitsFor p f mask value n) := by
    induction n with
    | zero => exact (idle_read _).bind fun x => idle_require _ _
    | succ n ih => exact (idle_read _).bind fun x => idle_ite (idle_pure _) ih
  exact (idle_ask _).bind fun n => rounds _

theorem idle_readSignal : Idle (readSignal p) := by
  have reads (f : NativeField) : Idle (modeRead p f) := idle_read _
  exact (reads _).bind fun _ => (reads _).bind fun _ => (reads _).bind fun _ => (reads _).bind fun _ =>
    (reads _).bind fun _ => (reads _).bind fun _ => (reads _).bind fun _ => (idle_read _).bind fun _ => idle_pure _

theorem idle_waitHead (head : BitVec 32) : Idle (waitHead p head) := by
  have rounds (n : ℕ) : ∀ first, Idle (waitHeadFor p head first n) := by
    induction n with
    | zero => exact fun _ => idle_stop _
    | succ n ih =>
      intro first
      refine (idle_read _).bind fun x => (idle_read _).bind fun active => idle_ite ?_ (ih _)
      cases first with
      | none => exact ih _
      | some f => exact idle_ite (idle_pure _) (ih _)
  exact rounds _ _

theorem idle_drainFlips : Idle (drainFlips p) :=
  idle_lookAt.bind fun _ => idle_ite ((idle_ask _).bind fun _ => idle_ofExcept _) (idle_pure _)

/-- A wait for a timing says so when it ends well. -/
theorem waitTiming_rule {t : Timing} (P : Outputs → List Event → Prop) :
    Triple (fun c => P c.state c.trace) (waitTiming p t)
      (fun _ c => ∃ older, c.trace = .verified p t :: older ∧ P c.state older) fun _ c => P c.state c.trace := by
  have rounds (n : ℕ) : ∀ first, Triple (fun c => P c.state c.trace) (waitTimingFor p t first n)
      (fun _ c => ∃ older, c.trace = .verified p t :: older ∧ P c.state older) fun _ c => P c.state c.trace := by
    induction n with
    | zero => exact fun _ => Triple.stop fun _ => id
    | succ n ih =>
      intro first
      refine Triple.bind (idle_read _ P) fun x => Triple.bind (idle_readSignal P) fun s => Triple.ite (fun _ => ?_) fun _ => ih _
      cases first with
      | none => exact ih _
      | some f => exact Triple.ite (fun _ => Triple.modify fun c h => ⟨_, rfl, h⟩) fun _ => ih _
  exact Triple.bind (idle_ask _ P) fun n => rounds _ _

end Idle

/-! ### Register programs -/

/-- Anything but a new display list. -/
def Event.Plain : Event → Prop
  | .listed .. => False
  | _ => True

/-- The driver knows `d`, and nothing but registers was written since. -/
def Since (d : Outputs) (l : List Event) (c : Context) : Prop :=
  c.state = d ∧ ∃ w, c.trace = w ++ l ∧ ∀ e ∈ w, e.Plain

/-- A program that only writes registers. -/
abbrev Plain {α : Type} (x : Drive α) : Prop :=
  ∀ d l, Triple (Since d l) x (fun _ => Since d l) fun _ => Since d l

section Plain

variable {α β : Type} {p : Port}

theorem since_self (c : Context) : Since c.state c.trace c := ⟨rfl, [], rfl, by simp⟩

theorem Idle.plain {x : Drive α} (h : Idle x) : Plain x :=
  fun d l => h fun s trace => s = d ∧ ∃ w, trace = w ++ l ∧ ∀ e ∈ w, e.Plain

theorem Plain.bind {x : Drive α} {f : α → Drive β} (hx : Plain x) (hf : ∀ a, Plain (f a)) : Plain (x >>= f) :=
  fun d l => Triple.bind (hx d l) fun a => hf a d l

theorem plain_record {e : Event} (h : e.Plain) : Plain (record e) := by
  intro d l c ⟨same, w, eq, all⟩
  exact ⟨same, e :: w, congrArg _ eq, List.forall_mem_cons.mpr ⟨h, all⟩⟩

theorem plain_write (r : Register) (x : BitVec 32) : Plain (write p r x) := plain_record trivial

theorem plain_writeFields (v : NativeState) (fs : List NativeField) : Plain (writeFields p v fs) :=
  fun d l => Triple.each fun f _ => plain_write (.native f) (v f) d l

theorem plain_waitTiming (t : Timing) : Plain (waitTiming p t) := by
  refine fun d l => (waitTiming_rule fun s trace => s = d ∧ ∃ w, trace = w ++ l ∧ ∀ e ∈ w, e.Plain).mono (fun _ => id)
    (fun _ c h => ?_) fun _ _ => id
  obtain ⟨_, eq, same, w, rfl, all⟩ := h
  exact ⟨same, .verified p t :: w, eq, List.forall_mem_cons.mpr ⟨trivial, all⟩⟩

theorem plain_disableNative : Plain (disableNative p) := by
  have reads (r : Register) : Plain (read p r) := (idle_read r).plain
  refine (reads _).bind fun _ => (plain_write _ _).bind fun _ => (idle_waitBits _ _ _).plain.bind fun _ => ?_
  refine (plain_write _ _).bind fun _ => (reads _).bind fun _ => (plain_write _ _).bind fun _ => ?_
  refine (reads _).bind fun _ => (plain_write _ _).bind fun _ => (reads _).bind fun _ => ?_
  refine (plain_write _ _).bind fun _ => (reads _).bind fun _ => (plain_write _ _).bind fun _ => ?_
  exact (reads _).bind fun _ => plain_write _ _

theorem plain_applyPhy (v : NativeState) : Plain (applyPhy p v) := by
  refine (plain_write _ _).bind fun _ => (plain_write _ _).bind fun _ => (plain_write _ _).bind fun _ => ?_
  refine (plain_writeFields _ _).bind fun _ => (plain_writeFields _ _).bind fun _ => (plain_writeFields _ _).bind fun _ => ?_
  exact (plain_writeFields _ _).bind fun _ => (plain_write _ _).bind fun _ => plain_write _ _

theorem plain_applyRaster (t : Timing) (v : NativeState) (o : Output) : Plain (applyRaster p t v o) := by
  refine (plain_write _ _).bind fun _ => (plain_writeFields _ _).bind fun _ => (plain_writeFields _ _).bind fun _ => ?_
  refine (plain_write _ _).bind fun _ => (plain_writeFields _ _).bind fun _ => (plain_write _ _).bind fun _ => ?_
  refine (plain_writeFields _ _).bind fun _ => (plain_write _ _).bind fun _ => (plain_writeFields _ _).bind fun _ => ?_
  refine (plain_write _ _).bind fun _ => (plain_write _ _).bind fun _ => (plain_write _ _).bind fun _ => ?_
  refine (plain_write _ _).bind fun _ => (plain_write _ _).bind fun _ => (plain_write _ _).bind fun _ => ?_
  exact (plain_write _ _).bind fun _ => plain_write _ _

theorem plain_applyNative (t : Timing) (v : NativeState) : Plain (applyNative p t v) := by
  refine idle_lookAt.plain.bind fun o => (plain_applyPhy v).bind fun _ => (plain_applyRaster t v o).bind fun _ => ?_
  refine (idle_waitBits _ _ _).plain.bind fun _ => Plain.bind ?_ fun _ => (idle_waitBits _ _ _).plain.bind fun _ => ?_
  · refine (plain_writeFields _ _).bind fun _ => (plain_write _ _).bind fun _ => (plain_write _ _).bind fun _ => ?_
    exact (plain_write _ _).bind fun _ => plain_write _ _
  · exact (plain_waitTiming t).bind fun _ => (idle_waitHead _).plain

theorem plain_synchronizeMask : Plain (synchronizeMask p) := by
  refine (idle_ask _).plain.bind fun wanted => idle_lookAt.plain.bind fun o => (idle_ask _).plain.bind fun answer => ?_
  cases answer with
  | error s => exact (idle_stop s).plain
  | ok _ => exact (plain_write _ _).bind fun _ => plain_write _ _

end Plain

/-! ### What the registers hold -/

/-- The value that a register was last written with. -/
def written (p : Port) (f : NativeField) : List Event → Option (BitVec 32)
  | [] => none
  | .wrote q (.native g) x :: l => if q = p ∧ g = f then some x else written p f l
  | _ :: l => written p f l

/-- The value that a register is left with: some bits are always the same. -/
def settled (v : NativeState) (visible : Bool) : NativeField → BitVec 32
  | .pvControl => v .pvControl ||| 1
  | .pvVertical => v .pvVertical ||| 1
  | .scheduler => v .scheduler ||| 0x8020
  | .fifo => v .fifo &&& 0xefff ||| 0x40
  | .vidControl => (v .vidControl &&& ~~~0x00040000) ||| 0x80000000 ||| if visible then 0 else 0x00040000
  | f => v f

/-- The registers of an output hold a state, after a timing was verified. -/
def Applied (p : Port) (t : Timing) (v : NativeState) (visible : Bool) (trace : List Event) : Prop :=
  ∃ older, trace = .verified p t :: older ∧ ∀ f, written p f older = some (settled v visible f)

section Applied

variable {p : Port} {d : Outputs} {m : NativeField → Option (BitVec 32)} {v : NativeState} {t : Timing}

/-- The driver knows `d`, and the registers were last written as `m` says. -/
def Holds (p : Port) (d : Outputs) (m : NativeField → Option (BitVec 32)) (c : Context) : Prop :=
  c.state = d ∧ ∀ f, written p f c.trace = m f

/-- A step of a program that knows `d` throughout. -/
abbrev Moves {α : Type} (p : Port) (d : Outputs) (m m' : NativeField → Option (BitVec 32)) (x : Drive α) : Prop :=
  Triple (Holds p d m) x (fun _ => Holds p d m') fun _ c => c.state = d

theorem moves_modeWrite (f : NativeField) (x : BitVec 32) :
    Moves p d m (Function.update m f (some x)) (modeWrite p f x) := by
  intro c ⟨same, holds⟩
  refine ⟨same, fun g => ?_⟩
  change (if p = p ∧ f = g then some x else written p g c.trace) = _
  by_cases eq : g = f
  · subst eq
    simp
  · rw [if_neg (fun both => eq both.2.symm), Function.update_of_ne eq, holds]

/-- A register that no state has a value for. -/
theorem moves_write {r : Register} (other : ∀ f, r ≠ .native f) (x : BitVec 32) : Moves p d m m (write p r x) := by
  intro c ⟨same, holds⟩
  refine ⟨same, fun g => ?_⟩
  rw [← holds g]
  cases r with
  | native f => exact absurd rfl (other f)
  | _ => rfl

/-- The fields of a list hold what a state has for them. -/
def taken (v : NativeState) (l : List NativeField) (m : NativeField → Option (BitVec 32)) (f : NativeField) :
    Option (BitVec 32) :=
  if f ∈ l then some (v f) else m f

theorem moves_writeFields (l : List NativeField) : Moves p d m (taken v l m) (writeFields p v l) := by
  induction l generalizing m with
  | nil => exact Triple.pure fun c h => ⟨h.1, fun f => by simp [taken, h.2]⟩
  | cons f l ih =>
    refine Triple.bind (moves_modeWrite f (v f)) fun _ => ih.mono (fun _ => id) (fun _ c h => ⟨h.1, fun g => ?_⟩) fun _ _ => id
    rw [h.2]
    unfold taken
    by_cases later : g ∈ l
    · simp [later]
    · by_cases eq : g = f
      · simp [eq]
      · simp [later, eq]

theorem Idle.moves {α : Type} {x : Drive α} (h : Idle x) : Moves p d m m x :=
  (h fun s trace => s = d ∧ ∀ f, written p f trace = m f).mono (fun _ => id) (fun _ _ => id) fun _ _ h => h.1

/-- The clock and the cable. -/
theorem moves_applyPhy : ∃ m', Moves p d m m' (applyPhy p v) ∧ ∀ f, m' f = match f with
    | .misc0 | .misc1 | .misc2 | .misc3 | .misc4 | .misc5 | .misc6 | .misc7 | .misc8 | .refClock | .phyReset | .rmOffset
    | .vcoDivider | .pllConfig | .postDivider | .lane0 | .lane1 | .lane2 | .laneClock | .tmdsWord | .phyPower
    | .pllPower | .pllReset => some (v f)
    | _ => m f := by
  refine ⟨_, Triple.bind (moves_modeWrite _ _) fun _ => Triple.bind (moves_modeWrite _ _) fun _ =>
    Triple.bind (moves_modeWrite _ _) fun _ => Triple.bind (moves_writeFields _) fun _ =>
    Triple.bind (moves_writeFields _) fun _ => Triple.bind (moves_writeFields _) fun _ =>
    Triple.bind (moves_writeFields _) fun _ => Triple.bind (moves_modeWrite _ _) fun _ => moves_modeWrite _ _, fun f => ?_⟩
  cases f <;> rfl

/-- The raster. -/
theorem moves_applyRaster (o : Output) : ∃ m', Moves p d m m' (applyRaster p t v o) ∧ ∀ f, m' f = match f with
    | .ha | .hb | .va0 | .vb0 | .va1 | .vb1 | .miscControl | .deepColor | .gcpConfig | .gcpWord | .scrambler
    | .clockStop | .vectorConfig | .vectorCrossbar | .cscControl | .csc11 | .csc13 | .csc21 | .csc23 | .csc31 | .csc33
    | .cscChannel | .avi0 | .avi1 | .avi2 | .avi3 | .avi4 | .avi5 | .avi6 | .avi7 | .avi8 | .pvEvenDelay | .pvHa | .pvHb
    | .pvVa | .pvVb | .pvMux | .pvPipe | .hvsControl1 | .scheduler | .pvControl | .pvVertical | .vidControl =>
      some (settled v o.visible f)
    | .packetConfig => some 0x10000
    | .fifo => some 1
    | _ => m f := by
  have other {r : Register} (h : ∀ f, r ≠ .native f) {m : NativeField → Option (BitVec 32)} (x : BitVec 32) :=
    moves_write (p := p) (d := d) (m := m) h x
  refine ⟨_, Triple.bind (moves_modeWrite _ _) fun _ => Triple.bind (moves_writeFields _) fun _ =>
    Triple.bind (moves_writeFields _) fun _ => Triple.bind (moves_modeWrite _ _) fun _ =>
    Triple.bind (moves_writeFields _) fun _ => Triple.bind (moves_modeWrite _ _) fun _ =>
    Triple.bind (moves_writeFields _) fun _ => Triple.bind (moves_modeWrite _ _) fun _ =>
    Triple.bind (moves_writeFields _) fun _ => Triple.bind (other (by simp) _) fun _ =>
    Triple.bind (other (by simp) _) fun _ => Triple.bind (other (by simp) _) fun _ =>
    Triple.bind (moves_modeWrite _ _) fun _ => Triple.bind (moves_modeWrite _ _) fun _ =>
    Triple.bind (moves_modeWrite _ _) fun _ => Triple.bind (moves_modeWrite _ _) fun _ => moves_modeWrite _ _, fun f => ?_⟩
  cases f <;> rfl

/-- The packets and the buffer. -/
theorem moves_applyLink : ∃ m', Moves p d m m' (applyLink p v) ∧ ∀ f, m' f = match f with
    | .packetConfig => some (v .packetConfig)
    | .fifo => some (v .fifo &&& 0xefff ||| 0x40)
    | _ => m f := by
  refine ⟨_, Triple.bind (moves_writeFields _) fun _ => Triple.bind (moves_modeWrite _ _) fun _ =>
    Triple.bind (moves_modeWrite _ _) fun _ => Triple.bind (moves_modeWrite _ _) fun _ => moves_modeWrite _ _, fun f => ?_⟩
  cases f <;> rfl

/-- Where the registers were applied, each of them was written, and the timing was seen. -/
theorem applyNative_applies : Triple (fun c => c.state = d) (applyNative p t v)
    (fun _ c => c.state = d ∧ Applied p t v (d.output p).visible c.trace) fun _ c => c.state = d := by
  intro c hc
  have start : Holds p d (fun f => written p f c.trace) c := ⟨hc, fun _ => rfl⟩
  revert start
  generalize (fun f => written p f c.trace) = m
  obtain ⟨phy, phyMoves, phyEq⟩ := moves_applyPhy (p := p) (d := d) (m := m) (v := v)
  obtain ⟨raster, rasterMoves, rasterEq⟩ := moves_applyRaster (p := p) (d := d) (m := phy) (v := v) (t := t) (d.output p)
  obtain ⟨link, linkMoves, linkEq⟩ := moves_applyLink (p := p) (d := d) (m := raster) (v := v)
  have all (f : NativeField) : link f = some (settled v (d.output p).visible f) := by
    rw [linkEq]
    cases f <;> simp only [rasterEq, phyEq] <;> rfl
  have main : Triple (Holds p d m) (applyNative p t v) (fun _ c => c.state = d ∧ Applied p t v (d.output p).visible c.trace)
      fun _ c => c.state = d := by
    refine Triple.bind (Q := fun o c => o = d.output p ∧ Holds p d m c) (fun c h => ⟨by rw [← h.1], h⟩) fun o =>
      Triple.assume fun same => ?_
    subst same
    refine Triple.bind phyMoves fun _ => Triple.bind rasterMoves fun _ => Triple.bind (idle_waitBits _ _ _).moves fun _ => ?_
    refine Triple.bind linkMoves fun _ => Triple.bind (idle_waitBits _ _ _).moves fun _ => ?_
    refine Triple.bind ((waitTiming_rule fun s l => s = d ∧ ∀ f, written p f l = link f).mono (fun _ h => h)
      (fun _ _ h => h) fun _ _ h => h.1) fun _ => ?_
    refine (idle_waitHead _ fun s l => ∃ older, l = .verified p t :: older ∧ s = d ∧ ∀ f, written p f older = link f).mono
      (fun _ h => h) ?_ ?_
    · rintro _ c ⟨older, eq, same, holds⟩
      exact ⟨same, older, eq, fun f => (holds f).trans (all f)⟩
    · rintro _ c ⟨_, _, same, _⟩
      exact same
  exact fun start => main start

end Applied

end Pi5Drivers.Display
