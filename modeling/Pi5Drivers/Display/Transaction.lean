import Mathlib.Data.List.Basic
import Pi5Drivers.Display.Apply

/-! Setting a mode is a transaction. It leaves the output laid out for the new timing, or for the
old one with the old registers applied again, or marks the output as faulty. -/

namespace Pi5Drivers.Display

open Effect Recorded

/-! ### The layout of an output -/

/-- The timing, and the numbers that follow from it. -/
structure Geometry where
  timing : Timing
  width : BitVec 32
  height : BitVec 32
  pitch : BitVec 32
  hTotal : BitVec 32
  vTotal : BitVec 32
deriving DecidableEq

def Timing.geometry (t : Timing) : Geometry :=
  ⟨t, wide t.hDisplay, wide t.vDisplay, t.pitch, wide t.hTotal, wide t.vTotal⟩

def Output.geometry (o : Output) : Geometry := ⟨o.currentTiming, o.width, o.height, o.pitch, o.hTotal, o.vTotal⟩

theorem geometry_withTiming (o : Output) (t : Timing) : (o.withTiming t).geometry = t.geometry := rfl

/-- The outputs after one was laid out for a timing. -/
def laid (d : Outputs) (p : Port) (t : Timing) : Outputs :=
  (d.set p (·.withTiming t)).set p fun o => { o with front := 0 }

section State

variable {d : Outputs} {p : Port} {t : Timing} {f : Output → Output}

theorem Port.peer_ne (p : Port) : p.peer ≠ p := by revert p; decide

@[simp] theorem Outputs.set_self : (d.set p f).output p = f (d.output p) := Function.update_self ..

@[simp] theorem Outputs.set_peer : (d.set p f).output p.peer = d.output p.peer :=
  Function.update_of_ne p.peer_ne ..

@[simp] theorem Outputs.set_of_peer : (d.set p.peer f).output p = d.output p :=
  Function.update_of_ne p.peer_ne.symm ..

theorem laid_self : (laid d p t).output p = { (d.output p).withTiming t with front := 0 } := by
  rw [laid, Outputs.set_self, Outputs.set_self]

theorem laid_peer : (laid d p t).output p.peer = d.output p.peer := by
  rw [laid, Outputs.set_peer, Outputs.set_peer]

end State

/-! ### The steps of a change -/

abbrev Knows (d : Outputs) (c : Context) : Prop := c.state = d

section Steps

variable {p : Port} {t old : Timing} {d : Outputs} {v before : NativeState} {E : Status → Context → Prop}

theorem Plain.knows {α : Type} {x : Drive α} (h : Plain x) : Triple (Knows d) x (fun _ => Knows d) fun _ => Knows d := by
  intro c hc
  have := h d c.trace (hc ▸ since_self c)
  rcases run : x.run c with ⟨_ | _, c'⟩ <;> rw [run] at this <;> exact this.1

theorem set_rule (f : Output → Output) : Triple (Knows d) (set p f) (fun _ => Knows (d.set p f)) E :=
  fun _ h => congrArg (Outputs.set · p f) h

theorem writeCurrentLists_rule : Triple (Knows d) (writeCurrentLists p) (fun _ => Knows d) E :=
  Triple.bind (Q := fun _ => Knows d) (fun _ h => h) fun _ => Triple.each fun _ _ _ h => h

theorem applyTiming_rule : Triple (Knows d) (applyTiming p t v)
    (fun _ c => c.state = laid d p t ∧ Applied p t v (d.output p).visible c.trace) fun _ => Knows (laid d p t) := by
  have visible : ((laid d p t).output p).visible = (d.output p).visible := by rw [laid_self]; rfl
  rw [← visible]
  refine Triple.bind (set_rule _) fun _ => Triple.bind ?_ fun _ => applyNative_applies
  exact Triple.bind (set_rule _) fun _ => writeCurrentLists_rule

theorem rollBack_rule : Triple (Knows d) (rollBack p old before)
    (fun restored c => c.state = laid d p old ∧ (restored = true → Applied p old before (d.output p).visible c.trace)) E := by
  refine Triple.bind (Triple.attempt (R := fun _ => Knows d) plain_disableNative.knows) fun disabled => ?_
  refine Triple.bind (Triple.attempt (R := fun r c => c.state = laid d p old ∧
    ((∃ done, r = .ok done) → Applied p old before (d.output p).visible c.trace)) ?_) fun restored => ?_
  · exact applyTiming_rule.mono (fun _ => id) (fun _ _ h => ⟨h.1, fun _ => h.2⟩) fun _ _ h => ⟨h, by rintro ⟨_, no⟩; cases no⟩
  · refine Triple.pure fun c h => ⟨h.1, fun both => h.2 ?_⟩
    have worked := (Bool.and_eq_true_iff.mp both).2
    cases restored with
    | ok done => exact ⟨done, rfl⟩
    | error e => exact Bool.noConfusion worked

/-- The output is laid out for the new timing, or for the old one with the old registers applied,
or is marked as faulty. The other output is as it was. -/
structure Settled (p : Port) (t old : Timing) (before : NativeState) (d : Outputs) (r : Except Status Unit)
    (s : Outputs) (trace : List Event) : Prop where
  result : match r with
    | .ok _ => (s.output p).geometry = t.geometry
    | .error _ => (s.output p).fault = true ∨
      (s.output p).geometry = old.geometry ∧ Applied p old before (d.output p).visible trace
  laidOut : (s.output p).geometry = (s.output p).currentTiming.geometry
  peer : s.output p.peer = d.output p.peer

theorem settle_error {e : Status} : Triple (Knows d) (settle p old before (.error e))
    (fun r c => Settled p t old before d r c.state c.trace) E := by
  refine Triple.bind rollBack_rule fun restored => Triple.ite (fun done => Triple.pure fun c h => ?_) fun _ => ?_
  · refine ⟨.inr ⟨?_, h.2 done⟩, ?_, ?_⟩ <;> rw [h.1]
    · rw [laid_self]; rfl
    · rw [laid_self]; rfl
    · rw [laid_peer]
  · refine Triple.bind ((set_rule (d := laid d p old) _).mono (fun _ h => h.1) (fun _ _ => id) fun _ _ => id) fun _ =>
      Triple.pure fun c h => ?_
    refine ⟨.inl ?_, ?_, ?_⟩ <;> rw [show c.state = _ from h]
    · rw [Outputs.set_self]
    · rw [Outputs.set_self, laid_self]; rfl
    · rw [Outputs.set_peer, laid_peer]

/-- How far a change came. -/
def Changed (d : Outputs) (p : Port) (t : Timing) (r : Except Status Unit) (c : Context) : Prop :=
  match r with
  | .ok _ => c.state = laid d p t
  | .error _ => c.state = d ∨ c.state = laid d p t

theorem attempt_rule : Triple (Knows d) (attempt (do
      disableNative p
      applyTiming p t v : Drive Unit) : Drive (Except Status Unit)) (Changed d p t) E := by
  refine Triple.attempt (Triple.bind (plain_disableNative.knows.mono (fun _ => id) (fun _ _ => id) fun _ _ h => .inl h)
    fun _ => ?_)
  exact applyTiming_rule.mono (fun _ => id) (fun _ _ h => h.1) fun _ _ h => .inr h

/-- What is done after the change, and where it fails. -/
theorem settle_rule (r : Except Status Unit) : Triple (Changed d p t r) (settle p old before r)
    (fun r c => Settled p t old before d r c.state c.trace) E := by
  cases r with
  | ok _ =>
    refine Triple.pure fun c h => ⟨?_, ?_, ?_⟩ <;> rw [show c.state = _ from h]
    · rw [laid_self]; rfl
    · rw [laid_self]; rfl
    · rw [laid_peer]
  | error e =>
    intro c h
    rcases h with h | h
    · exact settle_error h
    · have visible : ((laid d p t).output p).visible = (d.output p).visible := by rw [laid_self]; rfl
      refine (settle_error (d := laid d p t) (t := t)).mono (fun _ => id) (fun r c h => ?_) (fun _ _ => id) h
      refine ⟨?_, h.laidOut, by rw [h.peer, laid_peer]⟩
      have := h.result
      rwa [visible] at this

/-! ### The end of a change -/

/-- A write to the interrupt registers of an output. -/
def Event.IsMask : Event → Prop
  | .wrote _ .interruptEnable _ | .wrote _ .interruptStatus _ => True
  | _ => False

/-- A trace with nothing but interrupts masked since. -/
def Masks (l trace : List Event) : Prop := ∃ masks, trace = masks ++ l ∧ ∀ e ∈ masks, e.IsMask

/-- The driver knows `d`, and interrupts were masked since. -/
def Masked (d : Outputs) (l : List Event) (c : Context) : Prop := c.state = d ∧ Masks l c.trace

theorem Masks.cons {l trace : List Event} {e : Event} (h : Masks l trace) (mask : e.IsMask) : Masks l (e :: trace) := by
  obtain ⟨masks, rfl, all⟩ := h
  exact ⟨e :: masks, rfl, List.forall_mem_cons.mpr ⟨mask, all⟩⟩

theorem synchronizeMask_rule {l : List Event} :
    Triple (Masked d l) (synchronizeMask p) (fun _ => Masked d l) fun _ => Masked d l := by
  have looks {α : Type} {x : Drive α} (h : Idle x) : Triple (Masked d l) x (fun _ => Masked d l) fun _ => Masked d l :=
    h fun s trace => s = d ∧ Masks l trace
  refine Triple.bind (looks (idle_ask _)) fun wanted => Triple.bind (looks idle_lookAt) fun o => ?_
  refine Triple.bind (looks (idle_ask _)) fun answer => ?_
  cases answer with
  | error s => exact Triple.stop fun _ h => h
  | ok _ =>
    refine Triple.bind (Q := fun _ => Masked d l) (fun c h => ⟨h.1, h.2.cons trivial⟩) fun _ c h => ?_
    exact ⟨h.1, h.2.cons trivial⟩

/-- Both outputs go on. -/
def released (d : Outputs) (p : Port) (peerActive : Bool) : Outputs :=
  if peerActive = true then (d.set p Output.resumed).set p.peer fun o => { o with modeChanging := false }
  else d.set p Output.resumed

/-- A change ends as it was settled, or with the failure of the last call, which is to set the mask. -/
theorem endMode_rule {l : List Event} {peerActive : Bool} {r : Except Status Unit} :
    Triple (fun c => c.state = d ∧ c.trace = l) (endMode p peerActive r)
      (fun _ c => r = .ok () ∧ Masked (released d p peerActive) l c)
      fun e c => Masked (released d p peerActive) l c ∧
        (r = .error e ∨ r = .ok () ∧ ∃ c', (synchronizeMask p).run c' = (.error e, c)) := by
  refine Triple.bind (Q := fun _ => Masked (released d p false) l) ?_ fun _ =>
    Triple.bind (Q := fun _ => Masked (released d p peerActive) l) ?_ fun _ => ?_
  · rintro c ⟨rfl, same⟩
    exact ⟨rfl, [], same, by simp⟩
  · cases peerActive with
    | false => exact Triple.when (fun no => by simp at no) fun _ h _ => h
    | true =>
      refine Triple.when (fun _ => Triple.bind (Q := fun _ => Masked (released d p true) l) ?_ fun _ => ?_)
        fun _ _ no => absurd rfl no
      · rintro c ⟨same, masks⟩
        exact ⟨congrArg (fun s => s.set p.peer fun o => { o with modeChanging := false }) same, masks⟩
      · refine Triple.bind (Triple.attempt (R := fun _ => Masked (released d p true) l) synchronizeMask_rule) fun _ => ?_
        exact Triple.pure fun _ h => h
  · refine Triple.bind (Q := fun mask c => Masked (released d p peerActive) l c ∧
      ∃ c', (synchronizeMask p).run c' = (mask, c)) (fun c h => ?_) fun mask => ?_
    · refine ⟨?_, c, rfl⟩
      have := synchronizeMask_rule (p := p) h
      rcases run : (synchronizeMask p).run c with ⟨_ | _, c'⟩ <;> rw [run] at this <;> exact (congrArg Prod.snd run) ▸ this
    cases r with
    | error s => exact Triple.stop fun c h => ⟨h.1, .inl rfl⟩
    | ok _ =>
      cases mask with
      | error s => exact Triple.stop fun c h => ⟨h.1, .inr ⟨rfl, h.2⟩⟩
      | ok _ => exact Triple.pure fun c h => ⟨rfl, h.1⟩

/-! ### The whole change -/

/-- Both outputs are about to change. -/
def begun (d : Outputs) (p : Port) (peerActive : Bool) : Outputs :=
  if peerActive = true then (d.set p fun o => { o with modeChanging := true }).set p.peer fun o =>
    { o with modeChanging := true }
  else d.set p fun o => { o with modeChanging := true }

theorem synchronizeMode_rule {l : List Event} {peerActive : Bool} :
    Triple (fun c => c.state = d ∧ c.trace = l) (synchronizeMode p peerActive) (fun _ => Knows (begun d p peerActive))
      fun _ c => c.state = d ∧ c.trace = l := by
  have marks {q : Port} {d : Outputs} {E : Status → Context → Prop} :
      Triple (Knows d) (beginMode q) (fun _ => Knows (d.set q fun o => { o with modeChanging := true })) E :=
    Triple.bind (set_rule _) fun _ => fun _ h => h
  refine Triple.bind (idle_ask (·.synchronizeMode) fun s trace => s = d ∧ trace = l) fun answer => ?_
  match answer with
  | .error s => exact Triple.stop fun _ h => h
  | .ok false => exact Triple.stop fun _ h => h
  | .ok true =>
    refine Triple.bind (marks.mono (fun _ h => h.1) (fun _ _ => id) fun _ _ => id) fun _ => ?_
    cases peerActive with
    | false => exact Triple.when (fun no => by simp at no) fun _ h _ => h
    | true => exact Triple.when (fun _ => marks) fun _ _ no => absurd rfl no

/-- Nothing was done. -/
def Untouched (c c' : Context) : Prop := c'.state = c.state ∧ c'.trace = c.trace

/-- The registers hold again what they were found with, and the old timing was verified. The output
is laid out for it. Nothing was done since but to mask interrupts. -/
def RolledBack (p : Port) (c c' : Context) : Prop :=
  ∃ before c₁, (saveNative p).run c = (.ok before, c₁) ∧
    (c'.state.output p).geometry = (c.state.output p).currentTiming.geometry ∧
    ∃ older, Masks older c'.trace ∧ Applied p (c.state.output p).currentTiming before (c.state.output p).visible older

/-- How a call to set a mode ends. -/
structure Transacted (p : Port) (t : Timing) (c : Context) (r : Except Status Unit) (c' : Context) : Prop where
  success : r = .ok () → t.Same (c.state.output p).currentTiming ∧ t.flags = (c.state.output p).currentTiming.flags ∧ c' = c ∨
    (c'.state.output p).geometry = t.geometry
  failure : ∀ e, r = .error e → (c'.state.output p).fault = true ∨ Untouched c c' ∨ RolledBack p c c' ∨
    (c'.state.output p).geometry = t.geometry ∧ ∃ c₁, (synchronizeMask p).run c₁ = (.error e, c')
  flags : (∀ q, (c.state.output q).modeChanging = false) → ∀ q, (c'.state.output q).modeChanging = false
  laidOut : (c.state.output p).geometry = (c.state.output p).currentTiming.geometry →
    (c'.state.output p).geometry = (c'.state.output p).currentTiming.geometry

theorem Transacted.untouched {c c' : Context} {e : Status} (h : Untouched c c') : Transacted p t c (.error e) c' :=
  ⟨fun no => (nomatch no), fun _ _ => .inr (.inl h), fun clear q => by rw [h.1]; exact clear q,
    fun laidOut => by rw [h.1]; exact laidOut⟩

theorem begun_self {peerActive : Bool} :
    (begun d p peerActive).output p = { d.output p with modeChanging := true } := by
  cases peerActive <;> simp [begun]

theorem released_self {peerActive : Bool} : (released d p peerActive).output p = (d.output p).resumed := by
  cases peerActive <;> simp [released]

theorem Port.eq_or (p q : Port) : q = p ∨ q = p.peer := by revert p q; decide

/-- No output is left as changing. -/
theorem flags_released {s : Outputs} {peerActive : Bool} (peer : s.output p.peer = (begun d p peerActive).output p.peer)
    (clear : ∀ q, (d.output q).modeChanging = false) (q : Port) :
    ((released s p peerActive).output q).modeChanging = false := by
  rcases p.eq_or q with rfl | rfl
  · rw [released_self]
    rfl
  · cases peerActive with
    | true => simp [released]
    | false =>
      rw [released, if_neg (by simp), Outputs.set_peer, peer, begun, if_neg (by simp), Outputs.set_peer]
      exact clear _

/-- What a settled change comes to in the end. -/
theorem changeMode_rule {c : Context} {desired : NativeState} {peerActive : Bool} {c₁ : Context}
    (saved : (saveNative p).run c = (.ok before, c₁)) :
    Triple (Knows (begun c.state p peerActive))
      (changeMode p t (c.state.output p).currentTiming before desired peerActive)
      (fun _ c' => Transacted p t c (.ok ()) c') fun e c' => Transacted p t c (.error e) c' := by
  refine Triple.bind attempt_rule fun r => Triple.bind (settle_rule r) fun r => ?_
  intro c₂ h
  have rule : Triple (fun c => c.state = c₂.state ∧ c.trace = c₂.trace) (endMode p peerActive r) _ _ := endMode_rule
  have ends := rule (s := c₂) ⟨rfl, rfl⟩
  have geometry : (released c₂.state p peerActive).output p = (c₂.state.output p).resumed := released_self
  have visible : ((begun c.state p peerActive).output p).visible = (c.state.output p).visible := by rw [begun_self]
  rcases run : (endMode p peerActive r).run c₂ with ⟨e | _, c'⟩ <;> rw [run] at ends
  · obtain ⟨⟨state, masks⟩, why⟩ := ends
    refine ⟨fun no => (nomatch no), fun e' eq => ?_, fun clear => state ▸ flags_released h.peer clear, fun _ => ?_⟩
    · cases eq
      rw [state, geometry]
      rcases why with rfl | ⟨rfl, last⟩
      · rcases h.result with fault | ⟨old, applied⟩
        · exact .inl fault
        · refine .inr (.inr (.inl ⟨before, c₁, saved, ?_, c₂.trace, masks, visible ▸ applied⟩))
          rw [state, geometry]
          exact old
      · exact .inr (.inr (.inr ⟨h.result, last⟩))
    · rw [state, geometry]
      exact h.laidOut
  · obtain ⟨rfl, state, masks⟩ := ends
    refine ⟨fun _ => .inr ?_, fun e no => (nomatch no), fun clear => state ▸ flags_released h.peer clear, fun _ => ?_⟩
    · rw [state, geometry]
      exact h.result
    · rw [state, geometry]
      exact h.laidOut

/-- A program that only looks, and what it returns. -/
theorem run_rule {α : Type} {x : Drive α} (h : Idle x) (c : Context) : Triple (· = c) x
    (fun a c' => (∃ c₁, x.run c = (.ok a, c₁)) ∧ Untouched c c') fun _ c' => Untouched c c' := by
  rintro c rfl
  have := h (fun s l => s = c.state ∧ l = c.trace) (show c.state = c.state ∧ c.trace = c.trace from ⟨rfl, rfl⟩)
  rcases run : x.run c with ⟨e | a, c₁⟩ <;> rw [run] at this
  · exact this
  · exact ⟨⟨c₁, rfl⟩, this⟩

end Steps

/-! ### Two names of one timing -/

/-- 1920 by 1080 at 60 Hz, under its number in the list of television formats. -/
def fullHdTiming : Timing where
  display := 2
  videoId := 16
  clock := 148500
  hDisplay := 1920
  hSyncStart := 2008
  hSyncEnd := 2052
  hTotal := 2200
  hSkew := 0
  vDisplay := 1080
  vSyncStart := 1084
  vSyncEnd := 1089
  vTotal := 1125
  vScan := 0
  vRefresh := 60
  flags := 3

/-- Outputs that show a timing. -/
def showing (t : Timing) : Outputs where
  output _ :=
    { owned := true, fullDisplay := true, upmDescriptor := 0, width := wide t.hDisplay, height := wide t.vDisplay
      pitch := t.pitch, hTotal := wide t.hTotal, vTotal := wide t.vTotal, pixelRate := t.clock * 1000
      originalTiming := t, currentTiming := t, originalNative := fun _ => 0, nativeMaxClock := 222000
      frameBytes := 32 * 1024 * 1024, dma := 0, front := 0, visible := true, timingChanged := false
      modeChanging := false, fault := false }
  paired := true

/-- A world in which everything reads as zero and every call succeeds. -/
def zeros : World where
  register _ _ _ := 0
  rounds _ := 0
  drainFlips _ _ := .ok ()
  synchronizeMode _ := .ok true
  synchronizeMask _ _ := .ok ()
  wanted _ _ := false

end Pi5Drivers.Display
