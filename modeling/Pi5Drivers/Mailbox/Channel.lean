import Pi5Drivers.Lib.Runs
import Pi5Drivers.Mailbox.Containment

/-! A device over its whole life: it is started and stopped, asked and told to set clocks, in
any order. The channel stays contained, and the words of a caller change only if a transfer
brought new ones back. -/

namespace Pi5Drivers.Mailbox

open Effect Recorded

/-! ### Words of the caller -/

/-- A part of a transfer that leaves the caller's words alone. -/
def Sparing {ε α : Type} (x : Drive ε α) : Prop := ∀ data : ℕ → BitVec 32,
  Triple (fun c : Context => c.state.data = data) x (fun _ c => c.state.data = data) fun _ c => c.state.data = data

namespace Sparing

variable {ε α β : Type} {x : Drive ε α}

theorem bind {f : α → Drive ε β} (hx : Sparing x) (hf : ∀ a, Sparing (f a)) : Sparing (x >>= f) :=
  fun data => Triple.bind (hx data) fun a => hf a data

theorem ite {c : Prop} [Decidable c] {y : Drive ε α} (hx : Sparing x) (hy : Sparing y) : Sparing (if c then x else y) :=
  fun data => Triple.ite (fun _ => hx data) fun _ => hy data

theorem pure (a : α) : Sparing (Pure.pure a : Drive ε α) := fun _ => Triple.pure fun _ h => h

theorem stop (e : ε) : Sparing (Effect.stop e : Drive ε α) := fun _ => Triple.stop fun _ h => h

theorem ask (f : World → ℕ → α) : Sparing (Recorded.ask f : Drive ε α) := fun _ _ h => h

theorem look : Sparing (Recorded.look : Drive ε Driver) := fun _ _ h => h

theorem record (e : Event) : Sparing (Recorded.record e : Drive ε Unit) := fun _ => Triple.modify fun _ h => h

theorem change {f : Driver → Driver} (h : ∀ d, (f d).data = d.data) : Sparing (Recorded.change f : Drive ε Unit) :=
  fun _ => Triple.modify fun c hc => (h c.state).trans hc

theorem each {γ : Type} {l : List γ} {f : γ → Drive ε Unit} (h : ∀ c, Sparing (f c)) : Sparing (Effect.each f l) :=
  fun data => Triple.each fun c _ => h c data

end Sparing

/-- The same, where another way to stop is possible too. -/
theorem Sparing.escape {ε α : Type} {x : Drive ε α} {data : ℕ → BitVec 32} {E : ε → Context → Prop} (h : Sparing x) :
    Triple (fun c : Context => c.state.data = data) x (fun _ c => c.state.data = data) fun e c =>
      c.state.data = data ∨ E e c :=
  (h data).mono (fun _ h => h) (fun _ _ h => h) fun _ _ h => .inl h

theorem fail_sparing (result : MbxResult) (fatal : Bool) : Sparing (fail result fatal) := by
  refine Sparing.bind (Sparing.ite ?_ (.pure _)) fun _ => .stop _
  exact Sparing.bind (.record _) fun _ => .change fun _ => rfl

theorem awaitRoom_sparing (n : ℕ) : Sparing (awaitRoom n) := by
  induction n with
  | zero => exact Sparing.bind (.ask _) fun _ => Sparing.ite (.pure _) (fail_sparing _ _)
  | succ n ih => exact Sparing.bind (.ask _) fun _ => Sparing.ite (.pure _) ih

theorem takeReply_sparing (sent : BitVec 32) : Sparing (takeReply sent) := by
  refine Sparing.bind (.ask _) fun reply => Sparing.bind (.record _) fun _ => ?_
  exact Sparing.ite (fail_sparing _ _) (.change fun _ => rfl)

theorem awaitReply_sparing (sent : BitVec 32) (n : ℕ) : Sparing (awaitReply sent n) := by
  induction n with
  | zero => exact Sparing.bind (.ask _) fun _ => Sparing.ite (takeReply_sparing sent) (fail_sparing _ _)
  | succ n ih => exact Sparing.bind (.ask _) fun _ => Sparing.ite (takeReply_sparing sent) ih

theorem exchange_sparing (tag : BitVec 32) (bytes id : ℕ) : Sparing (exchange tag bytes id) := by
  refine Sparing.bind .look fun d => Sparing.bind (.each fun s => ?_) fun _ => Sparing.bind .look fun d => ?_
  · exact Sparing.bind (.record _) fun _ => .change fun _ => rfl
  refine Sparing.bind (.change fun _ => rfl) fun _ => Sparing.bind (.record _) fun _ => ?_
  exact Sparing.bind (.ask _) fun n => awaitReply_sparing _ n

section Words

variable {data : ℕ → BitVec 32}

theorem takeWords_spares (tag : BitVec 32) (bytes : ℕ) :
    Triple (fun c : Context => c.state.data = data) (takeWords tag bytes) (fun _ _ => True) fun _ c =>
      c.state.data = data := by
  refine Triple.bind (Sparing.ask _ data) fun reply => ?_
  have failed (result : MbxResult) (fatal : Bool) : Triple (fun c : Context => c.state.data = data) (fail result fatal)
      (fun _ _ => True) fun _ c => c.state.data = data :=
    (fail_sparing result fatal data).mono (fun _ h => h) (fun _ _ _ => trivial) fun _ _ h => h
  refine Triple.ite (fun _ => failed _ _) fun _ => Triple.ite (fun _ => failed _ _) fun _ => ?_
  exact Triple.ite (fun _ => failed _ _) fun _ => Triple.modify fun _ _ => trivial

/-- A transfer that fails does not touch the caller's words. -/
theorem mbxTransfer_spares (tag : BitVec 32) (bytes : ℕ) :
    Triple (fun c : Context => c.state.data = data) (mbxTransfer tag bytes) (fun _ _ => True) fun _ c =>
      c.state.data = data := by
  have required (p : Prop) [Decidable p] (e : MbxResult) : Sparing (require p e) := Sparing.ite (.pure _) (.stop _)
  refine Triple.bind (Sparing.look data) fun d => Triple.bind (required _ _ data) fun _ => ?_
  refine Triple.bind (required _ _ data) fun _ => Triple.bind (Sparing.ask _ data) fun status => ?_
  refine Triple.ite (fun _ => ?_) fun _ => ?_
  · exact (fail_sparing _ _ data).mono (fun _ h => h) (fun _ _ _ => trivial) fun _ _ h => h
  refine Triple.bind (Sparing.ask _ data) fun n => Triple.bind (awaitRoom_sparing n data) fun _ => ?_
  exact Triple.bind (exchange_sparing _ _ _ data) fun _ => takeWords_spares tag bytes

/-- The caller's words may be new ones although the transfer fails, but only if the exchange
succeeded and its reply named something else. The channel is then faulted. -/
theorem transfer_spares (tag : BitVec 32) (bytes : ℕ) :
    Triple (fun c : Context => c.state.data = data) (transfer tag bytes) (fun _ _ => True) fun s c =>
      c.state.data = data ∨ (s = .deviceProtocolError ∧ c.state.fault = true ∧ 8 ≤ bytes ∧
        mbxReplyIdMatches tag (data 0) (c.state.data 0) = false) := by
  refine look_bind fun c start => ?_
  refine Triple.mono (P := fun t => t.state.data = c.state.data) (Q := fun _ _ => True) ?_
    (fun t same => same ▸ rfl) (fun _ _ h => h) fun _ _ h => start ▸ h
  refine Triple.bind (Sparing.ite (.pure _) (.stop _) |>.escape) fun _ => ?_
  refine Triple.bind (Q := fun _ _ => True) (Triple.mapError ((mbxTransfer_spares tag bytes).mono (fun _ h => h)
    (fun _ _ _ => trivial) fun _ _ h => .inl h)) fun _ => ?_
  refine look_bind fun t _ => ?_
  split
  · rename_i mismatch
    refine Triple.bind (Q := fun _ u => u.state.data = t.state.data ∧ u.state.fault = true) ?_ fun _ => ?_
    · refine Triple.bind (Q := fun _ u => u.state.data = t.state.data) (Triple.modify ?_) fun _ => Triple.modify ?_
      · rintro u rfl
        rfl
      · exact fun u same => ⟨same, rfl⟩
    · exact Triple.stop fun u h => .inr ⟨rfl, h.2, mismatch.1, h.1 ▸ mismatch.2⟩
  · exact Triple.modify fun _ _ => trivial

end Words

/-! ### The channel -/

/-- What can happen to a driver. -/
inductive Action
  | prepare
  | release
  /-- Another device has taken the mailbox over. -/
  | claimElsewhere
  | query (q : Query)
  | control (r : Request)
  | cleanup (file : ℕ)
  | transfer (tag : BitVec 32) (bytes : ℕ) (data : ℕ → BitVec 32)

def Action.perform : Action → Drive Status Unit
  | .prepare => Mailbox.prepare
  | .release => Mailbox.release
  | .claimElsewhere => change fun d => { d with bootClaim := true }
  | .query q => do
    let _ ← Mailbox.query q
  | .control r => do
    let _ ← clockControl r
  | .cleanup file => clockCleanup file
  | .transfer tag bytes data => do
    change fun d => { d with data := data }
    Mailbox.transfer tag bytes

/-- A device that was just added. -/
def added : Driver where
  buffer := none
  words := fun _ => 0
  address := 0
  fault := false
  unsafeBuffer := false
  registers := false
  adapter := false
  region := false
  online := false
  owned := false
  pinned := false
  bootClaim := false
  clocks := fun _ => ⟨none, 0, 0, false⟩
  data := fun _ => 0

/-- A device in a world. -/
def channel (w : World) : System Context Action where
  init := ⟨w, 0, added, []⟩
  next c a := some (a.perform.run c).2

/-- At most one message is out, the buffer is safe when none is, and the driver knows the faults. -/
structure Contained (c : Context) : Prop where
  order : observer.InOrder c.trace
  single : (observer.watch c.trace).outstanding.length ≤ 1
  pending : c.state.unsafeBuffer = true ↔ (observer.watch c.trace).outstanding ≠ []
  fault : c.state.fault = (observer.watch c.trace).faulted

/-- A failure that comes with new words for the caller. -/
def Disowned (c t : Context) (tag : BitVec 32) (bytes : ℕ) (s : Status) : Prop :=
  s = .deviceProtocolError ∧ t.state.fault = true ∧ 8 ≤ bytes ∧
    mbxReplyIdMatches tag (c.state.data 0) (t.state.data 0) = false

theorem Action.perform_rule {before : Bool} (a : Action) : Agreeing before a.perform := by
  cases a with
  | prepare => exact prepare_rule
  | release => exact release_rule
  | claimElsewhere =>
    exact fun c ⟨order, h⟩ => ⟨order, h.fault, h.outstanding, h.single, fun _ => rfl, fun _ => rfl, h.sticky⟩
  | query q => exact Triple.bind (query_rule q) fun _ => pure_rule
  | control r => exact Triple.bind (clockControl_rule r) fun _ => pure_rule
  | cleanup file => exact clockCleanup_rule file
  | transfer tag bytes data =>
    exact Triple.bind (change_rule _ fun _ _ h => h.congr rfl rfl rfl rfl) fun _ => transfer_rule tag bytes

/-- A step keeps the flags in agreement. -/
theorem channel_step {w : World} {before : Bool} {c t : Context} {a : Action} (h : Assert observer (Agrees before) c)
    (next : (channel w).next c a = some t) : Assert observer (Agrees before) t := by
  obtain rfl : (a.perform.run c).2 = t := Option.some_inj.mp next
  have after := a.perform_rule h
  rcases run : a.perform.run c with ⟨r | r, t⟩ <;> rw [run] at after <;> exact after

theorem channel_runFrom {w : World} {before : Bool} {c t : Context} {l : List Action}
    (h : Assert observer (Agrees before) c) (run : (channel w).runFrom c l = some t) :
    Assert observer (Agrees before) t := by
  induction l generalizing c with
  | nil =>
    cases run
    exact h
  | cons a l ih =>
    obtain ⟨u, next, rest⟩ := Option.bind_eq_some_iff.mp run
    exact ih (channel_step h next) rest

theorem channel_agrees {w : World} {c : Context} (h : (channel w).Reachable c) : Assert observer (Agrees false) c :=
  h.invariant ⟨show observer.InOrder [] from trivial, rfl, by simp [channel, added, observer, Observer.watch], Nat.zero_le _,
    fun bad => absurd bad Bool.false_ne_true, fun bad => absurd bad Bool.false_ne_true,
    fun bad => absurd bad Bool.false_ne_true⟩ fun _ safe _ next => channel_step safe next

/-- In every run, whatever the hardware and the firmware return: the channel is contained, a
fault stays, and the caller's words change only if the exchange succeeded. Where the transfer
fails all the same, its reply named something else, and the channel is faulted. -/
theorem transport_contained (w : World) (c : Context) (h : (channel w).Reachable c) :
    Contained c ∧
    (∀ l t, (channel w).runFrom c l = some t → c.state.fault = true → t.state.fault = true) ∧
    (∀ tag bytes r t, (mbxTransfer tag bytes).run c = (.error r, t) → t.state.data = c.state.data) ∧
    ∀ tag bytes s t, (transfer tag bytes).run c = (.error s, t) →
      t.state.data = c.state.data ∨ Disowned c t tag bytes s := by
  obtain ⟨order, agrees⟩ := channel_agrees h
  refine ⟨⟨order, agrees.single, agrees.outstanding, agrees.fault⟩, fun l t run faulted => ?_, ?_, ?_⟩
  · have before : Assert observer (Agrees true) c :=
      ⟨order, { agrees with sticky := fun _ => faulted }⟩
    exact (channel_runFrom before run).2.sticky rfl
  · exact fun tag bytes r t run => (mbxTransfer_spares tag bytes).of_error rfl run
  · exact fun tag bytes s t run => (transfer_spares tag bytes).of_error rfl run

/-! ### A reply with another name -/

/-- Everything works, but the second reply is about the fourth clock. -/
def mistakenReply (time : ℕ) : ℕ → BitVec 32
  | 0 => 32
  | 1 => 0x80000000
  | 2 => if time < 16 then 0x30087 else 0x30002
  | 3 => 8
  | 4 => 0x80000008
  | 5 => if time < 16 then 0 else 4
  | _ => 0

def mistaken : World where
  rxStatus time := if time = 9 ∨ time = 16 then fifoEmpty else 0
  txStatus _ := 0
  rxData _ := 0xc0001008
  rounds _ := 0
  reply := mistakenReply
  evaluate _ function := .ok fun i => if function = 3 then regionLayout.getD i 0 else if function = 1 ∧ i = 0 then 1 else 0
  resources _ := .ok ()
  mapRegisters _ := true
  adapter _ := true
  allocate _ := some ⟨0, 0xc0001000, 0x1000, true⟩
  allocateBelow _ := .ok none
  registerRegion _ := .ok ()
  deregisterRegion _ := .ok ()
  lock _ := .ok ()

/-- The device starts. -/
def startedRun : List Action := [.prepare]

/-- The channel of a device that has started is contained. -/
theorem started_contained : ∃ c, (channel mistaken).runFrom (channel mistaken).init startedRun = some c ∧
    c.state.online = true ∧ Contained c ∧
    (∀ l t, (channel mistaken).runFrom c l = some t → c.state.fault = true → t.state.fault = true) ∧
    (∀ tag bytes r t, (mbxTransfer tag bytes).run c = (.error r, t) → t.state.data = c.state.data) ∧
    ∀ tag bytes s t, (transfer tag bytes).run c = (.error s, t) →
      t.state.data = c.state.data ∨ Disowned c t tag bytes s := by
  have run : ((channel mistaken).runFrom (channel mistaken).init startedRun).any fun c => c.state.online := by
    decide +kernel
  rcases result : (channel mistaken).runFrom (channel mistaken).init startedRun with _ | c
  · simp [result] at run
  · rw [result] at run
    exact ⟨c, rfl, run, transport_contained _ c (System.reachable_of_run result)⟩

/-- A transfer of that device fails, and has changed the words of its caller. -/
theorem mistaken_changes : ¬∀ w c tag bytes s t, (channel w).Reachable c →
    (transfer tag bytes).run c = (.error s, t) → t.state.data = c.state.data := by
  intro h
  have run : ((channel mistaken).runFrom (channel mistaken).init startedRun).any fun c =>
      match (transfer 0x30002 8).run c with
      | (.ok _, _) => false
      | (.error _, t) => t.state.data 0 ≠ c.state.data 0 := by
    decide +kernel
  rcases result : (channel mistaken).runFrom (channel mistaken).init startedRun with _ | c
  · simp [result] at run
  · rw [result, Option.any_some] at run
    rcases outcome : (transfer 0x30002 8).run c with ⟨s | _, t⟩ <;> rw [outcome] at run
    · have same := h _ c _ _ s t (System.reachable_of_run result) outcome
      simp [same] at run
    · cases run

end Pi5Drivers.Mailbox
