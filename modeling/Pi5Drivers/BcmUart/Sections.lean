import Pi5Drivers.BcmUart.Lines

/-! What each section under the lock keeps: how many bytes may wait, how many a paused port has
left, who wakes the reader, and who ends the empty receive timeout. -/

namespace Pi5Drivers.BcmUart

open Serial Effect Recorded

/-! ### The invariant -/

section Invariant

variable (u : Uart)

def High : Prop := u.ring.count ≤ highWater

/-- A paused port has still something to be read before it is resumed. -/
def Low : Prop := u.own.rxPaused = true → lowWater ≤ u.ring.count

/-- A receive notification that is armed while bytes wait is pending. -/
def Wakes : Prop := u.rx.armed = true → u.ring.count ≠ 0 → u.rx.pending = true

/-- Whatever is pending has its deferred procedure still to run. -/
def Calls : Prop := u.rx.pending = true ∨ u.tx.pending = true ∨ u.own.quirkPending = true → u.Due

/-- The quirk is pending, or its timer is to be started, or it runs, or it has expired. -/
def Ends : Prop :=
  u.own.quirk = true → u.own.quirkPending = true ∨ u.own.timerStarts ≠ [] ∨ u.timer = true ∨ 0 < u.timerStarted

/-- A port is online only while its interrupt is connected, and the quirk does not outlast that. -/
def Powered : Prop := (u.online = true → u.own.power = .running) ∧
  (u.own.quirk = true → u.isOpen = true ∧ (u.own.power = .running ∨ u.own.power = .disabled))

/-- No line control selects the divisor. -/
def Lined : Prop := u.line &&& 0x80 = 0 ∧ (u.own.power ≠ .removed → u.boot uartLcr &&& 0x80 = 0)

/-- What holds at any time. -/
def Core : Prop := Lined u ∧ High u ∧ Powered u

/-- What holds between the sections. -/
def Owes : Prop := Core u ∧ Low u ∧ Wakes u ∧ Calls u ∧ Ends u

end Invariant

abbrev Good : Uart → Watch Lines → Prop := Ready Owes

/-! ### Capture -/

/-- What does not depend on the bytes that wait, nor on whether the port is paused. -/
def Apart (X : Uart → Prop) : Prop := ∀ u ring errors events mask paused, X u →
  X { u with ring, errors, events, mask, own := { u.own with rxPaused := paused } }

/-- Within a section that captures. -/
def Flows (X : Uart → Prop) (u : Uart) : Prop := Core u ∧ Low u ∧ X u

section Capture

variable {X : Uart → Prop} {E : Status → Context Own → Prop}

theorem received_held {u : Uart} {w : Watch Lines} (h : Held u w) (state : BitVec 32) : Held (received state u) w :=
  ⟨h.fits, h.queue, fun lost => flagged_or (flagged_or (flagged_or (flagged_or (h.lost lost)))), h.rx, h.tx⟩

theorem takeBytes_flows (apart : Apart X) (n : ℕ) :
    Triple (Assert reader (Ready (Flows X))) (takeBytes n) (fun _ => Assert reader (Ready (Flows X))) E := by
  induction n with
  | zero => exact pure_rule
  | succ n ih =>
    refine look_rule fun u => Triple.when (fun room => ?_) fun _ hc _ => hc.mono fun _ _ h => h.2
    refine Triple.bind (read_rule _) fun state => Triple.bind
      (change_rule (B := Ready fun u => u.ring.count < highWater ∧ Flows X u) _ ?_) fun _ => ?_
    · rintro v w ⟨rfl, held, wired, core, low, hx⟩
      exact ⟨received_held held _, wired, room, core, low, apart v v.ring _ _ v.mask v.own.rxPaused hx⟩
    refine Triple.when (fun _ => ?_) fun _ hc _ => hc.mono fun _ _ h => ⟨h.1, h.2.1, h.2.2.2⟩
    refine Triple.bind (read_rule _) fun data => Triple.bind
      (take_with _ (by decide : highWater ≤ ringSize) (fun _ _ h => h.2.1) ?_) fun _ => ih
    rintro v d events ⟨wired, space, core, low, hx⟩
    refine ⟨wired, ⟨core.1, space, core.2.2⟩, fun paused => (low paused).trans (Nat.le_succ _), ?_⟩
    exact apart v _ v.errors _ v.mask v.own.rxPaused hx

theorem pause_flows (apart : Apart X) :
    Triple (Assert reader (Ready (Flows X))) pause (fun _ => Assert reader (Ready (Flows X))) E := by
  refine look_rule fun u => Triple.when (fun full => ?_) fun _ hc _ => hc.mono fun _ _ h => h.2
  refine Triple.bind (change_rule (B := Plain (Flows X)) _ ?_) fun _ => uartInterruptMask_rule fun v mask h => ?_
  · rintro v w ⟨rfl, held, wired, core, low, hx⟩
    refine ⟨⟨held.fits, held.queue, held.lost, held.rx, held.tx⟩, wired.1, core, fun _ => ?_, ?_⟩
    · exact le_trans (by decide) full.1
    · exact apart v v.ring v.errors v.events v.mask true hx
  · exact ⟨h.1, h.2.1, apart v v.ring v.errors v.events mask v.own.rxPaused h.2.2⟩

theorem uartCapture_flows (apart : Apart X) :
    Triple (Assert reader (Ready (Flows X))) uartCapture (fun _ => Assert reader (Ready (Flows X))) E := by
  refine Triple.bind (takeBytes_flows apart 64) fun _ => Triple.bind (pause_flows apart) fun _ => ?_
  refine change_rule _ fun u w h => ?_
  split
  · exact h
  · obtain ⟨held, wired, core, low, hx⟩ := h
    exact ⟨⟨held.fits, held.queue, held.lost, held.rx, held.tx⟩, wired, core, low,
      apart u u.ring u.errors _ u.mask u.own.rxPaused hx⟩

end Capture

/-! ### Interrupts -/

/-- What the interrupt routine keeps while it serves one cause after the other. -/
def Served (u : Uart) : Prop := (u.isOpen = true ∧ u.online = true) ∧ Ends u

section Interrupts

variable {E : Status → Context Own → Prop}

theorem served_apart : Apart Served := fun _ _ _ _ _ _ h => h

theorem enterQuirk_flows :
    Triple (Assert reader (Ready (Flows Served))) enterQuirk (fun _ => Assert reader (Ready (Flows Served))) E := by
  refine Triple.bind (change_with (G := fun u (d : Lines) => d.Plain ∧ Flows Served u) _ (fun _ => ⟨rfl, rfl, rfl, rfl⟩)
    ?_) fun _ => uartInterruptMask_rule fun _ _ h => h
  rintro u d ⟨⟨plain, -⟩, ⟨lined, high, online, -⟩, low, on, -⟩
  exact ⟨plain, ⟨lined, high, online, fun _ => ⟨on.1, .inl (online on.2)⟩⟩, low, on, fun _ => .inl rfl⟩

theorem transmitReady_flows :
    Triple (Assert reader (Ready (Flows Served))) transmitReady (fun _ => Assert reader (Ready (Flows Served))) E := by
  refine Triple.bind (change_rule (B := With fun u (d : Lines) => (d.Plain ∧ Flows Served u) ∧
    u.mask &&& uartRxIrq = (if u.own.holds then 0 else uartRxIrq) ∧ (d.mcr &&& uartRts ≠ 0 → u.own.holds = false)) _
    ?_) fun _ => look_rule fun v => record_rule _ (fun _ _ _ => trivial) ?_
  · rintro u w ⟨held, ⟨plain, wired⟩, core, low, served⟩
    obtain ⟨-, bits, rts⟩ := wired served.1.1 served.1.2
    refine ⟨⟨held.fits, held.queue, held.lost, held.rx, ?_⟩, ⟨plain, core, low, served⟩, ?_, rts⟩
    · change (if u.tx.armed = true then u.tx.flag else u.tx).Kept w.tx
      split
      · exact held.tx.flag ‹_›
      · exact held.tx
    · change u.mask &&& ~~~uartTxIrq &&& uartRxIrq = _
      rw [BitVec.and_assoc, show ~~~uartTxIrq &&& uartRxIrq = uartRxIrq by decide]
      exact bits
  · rintro u w ⟨rfl, held, ⟨plain, flows⟩, bits, rts⟩
    have device : (reader.saw w (.wrote uartIer u.mask)).device = { w.device with ier := u.mask } := if_pos plain
    refine ⟨⟨held.fits, held.queue, held.lost, held.rx, held.tx⟩, ?_⟩
    rw [device]
    exact ⟨⟨plain, fun _ _ => ⟨rfl, bits, rts⟩⟩, flows⟩

theorem serve_flows (n : ℕ) (handled : Bool) :
    Triple (Assert reader (Ready (Flows Served))) (serve n handled)
      (fun _ => Assert reader (Ready (Flows Served))) E := by
  induction n generalizing handled with
  | zero => exact pure_rule
  | succ n ih =>
    refine Triple.bind (read_rule _) fun pending => Triple.ite (fun _ => pure_rule) fun _ => ?_
    refine Triple.bind (Q := fun _ => Assert reader (Ready (Flows Served))) ?_ fun quirk => ?_
    · exact Triple.ite (fun _ => Triple.bind (read_rule _) fun _ => pure_rule) fun _ => pure_rule
    refine Triple.ite (fun _ => Triple.bind enterQuirk_flows fun _ => pure_rule) fun _ => ?_
    refine Triple.ite (fun _ => Triple.bind (uartCapture_flows served_apart) fun _ => ih true) fun _ => ?_
    refine Triple.ite (fun _ => Triple.bind transmitReady_flows fun _ => ih true) fun _ => ?_
    refine Triple.ite (fun _ => Triple.bind ?_ fun _ => ih true) fun _ => pure_rule
    refine Triple.bind (read_rule _) fun _ => Triple.when (fun _ => ?_) fun _ hc _ => hc
    exact change_with _ (fun _ => ⟨rfl, rfl, rfl, rfl⟩) fun _ _ h => h

theorem uartIsr_keeps : Triple (Assert reader Good) uartIsr (fun _ => Assert reader Good) E := by
  refine look_rule fun u => Triple.ite (fun _ => pure_rule.mono (fun _ hc => hc.mono fun _ _ h => h.2) (fun _ _ hc => hc)
    fun _ _ hc => hc) fun on => ?_
  have both : u.online = true ∧ u.isOpen = true := by
    revert on
    cases u.online <;> cases u.isOpen <;> decide
  refine Triple.bind (Q := fun _ => Assert reader (Ready (Flows Served))) ((serve_flows 8 false).mono (fun _ hc => hc.mono ?_)
    (fun _ _ hc => hc) fun _ _ hc => hc) fun handled => ?_
  · rintro v w ⟨rfl, held, wired, core, low, -, -, ends⟩
    exact ⟨held, wired, core, low, both.symm, ends⟩
  refine Triple.bind (flagReceive_with (G := fun u (d : Lines) => (d.Plain ∧ Wired u d) ∧ Core u ∧ Low u ∧ Wakes u ∧ Ends u)
    ?_ ?_) fun _ => look_rule fun v => Triple.bind (Triple.when (Q := fun _ => Assert reader Good) (fun _ => ?_) ?_)
    fun _ => pure_rule
  · rintro v d ⟨wired, core, low, -, ends⟩ - -
    exact ⟨wired, core, low, fun _ _ => rfl, ends⟩
  · rintro v d ⟨wired, core, low, -, ends⟩ none
    exact ⟨wired, core, low, fun armed some => absurd (none armed) some, ends⟩
  · refine change_rule _ ?_
    rintro v w ⟨-, held, wired, core, low, wakes, ends⟩
    exact ⟨⟨held.fits, held.queue, held.lost, held.rx, held.tx⟩, wired, core, low, wakes, fun _ => .inl rfl, ends⟩
  · refine fun _ hc none => hc.mono ?_
    rintro v w ⟨rfl, held, wired, core, low, wakes, ends⟩
    exact ⟨held, wired, core, low, wakes, fun pending => absurd (pending.imp id (Or.imp_right .inl)) none, ends⟩

theorem startDpc_keeps : Triple (Assert reader Good) (startDpc : Drive Unit) (fun _ => Assert reader Good) E :=
  change_with _ (fun _ => ⟨rfl, rfl, rfl, rfl⟩) fun _ _ ⟨wired, core, low, wakes, _, ends⟩ =>
    ⟨wired, core, low, wakes, fun _ => .inr (Nat.succ_pos _), ends⟩

/-- What is committed was pending. -/
theorem wakes_commit {u : Uart} (h : Wakes u) : u.rx.commit.armed = true → u.ring.count ≠ 0 → u.rx.commit.pending = true := by
  unfold Notice.commit
  split
  · exact nofun
  · exact h

theorem uartDpc_keeps :
    Triple (Assert reader Good) (do
        enterDpc
        uartDpc : Drive Unit) (fun _ => Assert reader Good) E := by
  refine Triple.bind (change_with (G := fun u (d : Lines) => (d.Plain ∧ Wired u d) ∧ Core u ∧ Low u ∧ Wakes u ∧ Ends u) _
    (fun _ => ⟨rfl, rfl, rfl, rfl⟩) fun _ _ ⟨wired, core, low, wakes, _, ends⟩ => ⟨wired, core, low, wakes, ends⟩) fun _ => ?_
  refine Triple.bind (commitReady_with (G := fun u (d : Lines) => (d.Plain ∧ Wired u d) ∧ Core u ∧ Low u ∧ Wakes u ∧
    (u.rx.pending = false ∧ u.tx.pending = false) ∧ Ends u) fun u d waits h rx tx => ?_) fun _ =>
    change_with _ (fun _ => ⟨rfl, rfl, rfl, rfl⟩) fun u d h => ?_
  · obtain ⟨wired, core, low, wakes, ends⟩ := h
    exact ⟨wired, core, low, wakes_commit wakes, ⟨rx, tx⟩, ends⟩
  · obtain ⟨wired, core, low, wakes, ⟨rx, tx⟩, ends⟩ := h
    refine ⟨wired, core, low, wakes, fun pending => ?_, fun quirk => ?_⟩
    · rcases pending with yes | yes | yes
      · exact absurd (rx.symm.trans yes) Bool.false_ne_true
      · exact absurd (tx.symm.trans yes) Bool.false_ne_true
      · exact absurd yes Bool.false_ne_true
    · refine .inr ?_
      by_cases pending : u.own.quirkPending = true
      · exact .inl (by rw [if_pos pending]; exact List.cons_ne_nil _ _)
      · rw [if_neg pending]
        exact (ends quirk).resolve_left pending

theorem startQuirkTimer_keeps (delay : BitVec 32) :
    Triple (Assert reader Good) (startQuirkTimer delay) (fun _ => Assert reader Good) E :=
  change_with _ (fun _ => ⟨rfl, rfl, rfl, rfl⟩) fun _ _ ⟨wired, core, low, wakes, calls, _⟩ =>
    ⟨wired, core, low, wakes, calls, fun _ => .inr (.inr (.inl rfl))⟩

theorem fireTimer_keeps : Triple (Assert reader Good) (fireTimer : Drive Unit) (fun _ => Assert reader Good) E :=
  change_with _ (fun _ => ⟨rfl, rfl, rfl, rfl⟩) fun _ _ ⟨wired, core, low, wakes, calls, _⟩ =>
    ⟨wired, core, low, wakes, calls, fun _ => .inr (.inr (.inr (Nat.succ_pos _)))⟩

/-- A close may stop the timer where nothing or something else has to end the quirk. -/
theorem stopQuirkTimer_keeps :
    Triple (Assert reader (Ready fun u => Ends { u with timer := false } ∧ Owes u)) stopQuirkTimer
      (fun _ => Assert reader Good) E :=
  change_with _ (fun _ => ⟨rfl, rfl, rfl, rfl⟩) fun _ _ ⟨wired, ends, core, low, wakes, calls, _⟩ =>
    ⟨wired, core, low, wakes, calls, ends⟩

/-- The timer ends the quirk of a port that is open and online. -/
theorem uartQuirkTimer_keeps :
    Triple (Assert reader (Ready fun u => (u.online = true ∨ Ends { u with timerStarted := u.timerStarted - 1 }) ∧ Owes u)) (do
        enterTimer
        uartQuirkTimer : Drive Unit) (fun _ => Assert reader Good) E := by
  let before (u : Uart) : Prop := (u.online = true ∨ Ends u) ∧ Core u ∧ Low u ∧ Wakes u ∧ Calls u
  refine Triple.bind (change_with (G := fun u (d : Lines) => (d.Plain ∧ Wired u d) ∧ before u) _
    (fun _ => ⟨rfl, rfl, rfl, rfl⟩) fun _ _ ⟨wired, due, core, low, wakes, calls, _⟩ => ⟨wired, due, core, low, wakes, calls⟩)
    fun _ => look_rule fun u => Triple.when (fun on => ?_) fun _ hc off => hc.mono ?_
  · have apart : Apart Calls := fun _ _ _ _ _ _ h => h
    refine Triple.bind (Q := fun _ => Assert reader (Ready (Flows Calls))) ((read_rule _).mono (fun _ hc => hc.mono ?_)
      (fun _ _ hc => hc) fun _ _ hc => hc) fun state => ?_
    · rintro v w ⟨rfl, held, wired, -, core, low, -, calls⟩
      exact ⟨held, wired, core, low, calls⟩
    refine Triple.bind (Q := fun _ => Assert reader (Ready (Flows Calls))) ?_ fun _ => ?_
    · exact Triple.ite (fun _ => Triple.bind (read_rule _) fun _ => pure_rule) fun _ => uartCapture_flows apart
    refine Triple.bind (change_with (G := fun u (d : Lines) => d.Plain ∧ Flows Calls u ∧ u.own.quirk = false) _
      (fun _ => ⟨rfl, rfl, rfl, rfl⟩) ?_) fun _ => Triple.bind (uartInterruptMask_rule
        (S := fun u => Flows Calls u ∧ u.own.quirk = false) fun _ _ h => h) fun _ => look_rule fun v => ?_
    · rintro v d ⟨⟨plain, -⟩, ⟨lined, high, online, -⟩, low, calls⟩
      exact ⟨plain, ⟨⟨lined, high, online, fun quirk => absurd quirk Bool.false_ne_true⟩, low, calls⟩, rfl⟩
    refine Triple.when (fun waits => ?_) fun _ hc none => hc.mono ?_
    · refine Triple.bind (change_rule (B := Ready fun u => (Core u ∧ Low u ∧ Wakes u) ∧ u.own.quirk = false) _ ?_) fun _ =>
        change_with _ (fun _ => ⟨rfl, rfl, rfl, rfl⟩) ?_
      · rintro v' w ⟨rfl, held, wired, ⟨core, low, -⟩, quirk⟩
        exact ⟨⟨held.fits, held.queue, held.lost, held.rx.flag waits.1, held.tx⟩, wired, ⟨core, low, fun _ _ => rfl⟩, quirk⟩
      · rintro v' d ⟨wired, ⟨core, low, wakes⟩, quirk⟩
        exact ⟨wired, core, low, wakes, fun _ => .inl rfl, fun yes => absurd (quirk.symm.trans yes) Bool.false_ne_true⟩
    · rintro v' w ⟨rfl, held, wired, ⟨core, low, calls⟩, quirk⟩
      exact ⟨held, wired, core, low, fun armed some => absurd ⟨armed, some⟩ none, calls,
        fun yes => absurd (quirk.symm.trans yes) Bool.false_ne_true⟩
  · rintro v w ⟨rfl, held, wired, due, core, low, wakes, calls⟩
    refine ⟨held, wired, core, low, wakes, calls, fun quirk => ?_⟩
    refine due.elim (fun online => absurd ⟨online, (core.2.2.2 quirk).1, quirk⟩ off) fun ends => ends quirk

end Interrupts

/-! ### Bytes -/

section Bytes

variable {E : Status → Context Own → Prop}

/-- What a reader relies on, and leaves. -/
def Reads (u : Uart) : Prop := u.rx.armed = false ∧ Calls u ∧ Ends u

theorem resume_rule :
    Triple (Assert reader (Ready fun u => Core u ∧ Reads u)) resume (fun _ => Assert reader (Ready fun u => Low u ∧ Core u ∧ Reads u))
      E := by
  refine look_rule fun u => Triple.when (fun _ => ?_) fun _ hc none => hc.mono ?_
  · refine Triple.bind (change_rule (B := Plain fun u => Low u ∧ Core u ∧ Reads u) _ ?_) fun _ =>
      uartInterruptMask_rule fun _ _ h => h
    rintro v w ⟨rfl, held, wired, core, reads⟩
    exact ⟨⟨held.fits, held.queue, held.lost, held.rx, held.tx⟩, wired.1, fun paused => absurd paused Bool.false_ne_true,
      core, reads⟩
  · rintro v w ⟨rfl, held, wired, core, reads⟩
    exact ⟨held, wired, fun paused => Nat.not_lt.mp fun few => none ⟨paused, few⟩, core, reads⟩

/-- The reader asks only while no notification is armed, so that none is missed. -/
theorem uartReceive_keeps (length : ℕ) :
    Triple (Assert reader (Ready fun u => u.rx.armed = false ∧ Owes u)) (uartReceive length) (fun _ => Assert reader Good) E := by
  have ends (c : Context Own) (hc : Assert reader (Ready fun u => Low u ∧ Core u ∧ Reads u) c) : Assert reader Good c :=
    hc.mono fun u w ⟨held, wired, low, core, idle, calls, ends⟩ =>
      ⟨held, wired, core, low, fun armed => absurd (idle.symm.trans armed) Bool.false_ne_true, calls, ends⟩
  refine glance_rule fun u => Triple.when (fun _ => ?_) fun _ hc _ => hc.mono fun _ _ h => ⟨h.1, h.2.1, h.2.2.2⟩
  have apart : Apart Reads := fun _ _ _ _ _ _ h => h
  refine Triple.bind ((uartCapture_flows apart).mono (fun _ hc => hc.mono ?_) (fun _ _ hc => hc) fun _ _ hc => hc) fun _ => ?_
  · rintro v w ⟨held, wired, none, core, low, -, calls, ends⟩
    exact ⟨held, wired, core, low, none, calls, ends⟩
  refine Triple.bind (Triple.mono (P := Assert reader (Ready fun u => Core u ∧ Reads u)) (hand_with length ?_)
    (fun _ hc => hc.mono fun _ _ h => ⟨h.1, h.2.1, h.2.2.1, h.2.2.2.2⟩) (fun _ _ hc => hc) fun _ _ hc => hc) fun _ => ?_
  · rintro v d ⟨wired, ⟨lined, high, powered⟩, reads⟩ -
    exact ⟨wired, ⟨lined, (Nat.sub_le _ _).trans high, powered⟩, reads⟩
  · exact resume_rule.mono (fun _ hc => hc) (fun _ => ends) fun _ _ hc => hc

theorem uartRxEnable_keeps :
    Triple (Assert reader Good) (uartRxEnable : Drive Unit) (fun _ => Assert reader Good) E := by
  refine uartRxEnable_with ?_ ?_
  · rintro u d ⟨wired, core, low, -, calls, ends⟩ empty
    exact ⟨wired, core, low, fun _ some => absurd empty some, calls, ends⟩
  · rintro u d ⟨wired, core, low, -, -, ends⟩ -
    exact ⟨wired, core, low, fun _ _ => rfl, fun _ => .inl rfl, ends⟩

theorem uartRxCancel_keeps :
    Triple (Assert reader Good) (uartRxCancel : Drive Bool) (fun _ => Assert reader Good) E :=
  cancel_with .receive fun _ _ ⟨wired, core, low, _, calls, ends⟩ =>
    ⟨wired, core, low, nofun, fun pending => calls (pending.imp nofun id), ends⟩

theorem uartTxEnable_keeps :
    Triple (Assert reader Good) uartTxEnable (fun _ => Assert reader Good) E := by
  refine Triple.bind (act_rule (B := Ready fun u => u.tx.armed = true ∧ Owes u) _ _ (fun _ _ _ => trivial) ?_) fun _ => ?_
  · rintro u w ⟨held, wired, owes⟩
    exact ⟨⟨held.fits, held.queue, held.lost, held.rx, held.tx.arm⟩, wired, rfl, owes⟩
  refine Triple.bind (read_rule _) fun _ => Triple.ite (fun _ => ?_) fun _ => ?_
  · exact (uartInterruptMask_rule fun _ _ h => h).mono (fun _ hc => hc.mono fun _ _ h => ⟨h.1, h.2.1.1, h.2.2.2⟩)
      (fun _ _ hc => hc) fun _ _ hc => hc
  · refine Triple.bind (change_rule (B := Ready fun u => Core u ∧ Low u ∧ Wakes u ∧ Ends u) _ ?_) fun _ =>
      change_with _ (fun _ => ⟨rfl, rfl, rfl, rfl⟩) ?_
    · rintro u w ⟨held, wired, armed, core, low, wakes, -, ends⟩
      exact ⟨⟨held.fits, held.queue, held.lost, held.rx, held.tx.flag armed⟩, wired, core, low, wakes, ends⟩
    · rintro u d ⟨wired, core, low, wakes, ends⟩
      exact ⟨wired, core, low, wakes, fun _ => .inl rfl, ends⟩

theorem uartTxCancel_keeps :
    Triple (Assert reader Good) uartTxCancel (fun _ => Assert reader Good) E := by
  refine Triple.bind (cancel_with .transmit (G := fun u (d : Lines) => d.Plain ∧ Owes u) ?_) fun cancelled =>
    Triple.bind (uartInterruptMask_rule fun _ _ h => h) fun _ => pure_rule
  rintro u d ⟨wired, core, low, wakes, calls, ends⟩
  exact ⟨wired.1, core, low, wakes, fun pending => calls (pending.imp id (Or.imp_left nofun)), ends⟩

theorem uartTransmit_keeps (bytes : List UInt8) :
    Triple (Assert reader Good) (uartTransmit bytes) (fun _ => Assert reader Good) E := by
  refine glance_rule fun u => Triple.when (fun _ => ?_) fun _ hc _ => hc
  refine Triple.bind (read_rule _) fun _ => Triple.bind (Triple.when (Q := fun _ => Assert reader Good) (fun _ => ?_)
    fun _ hc _ => hc) fun _ => Triple.bind (read_rule _) fun _ => pure_rule
  exact Triple.each fun byte _ => write_ready (by decide) (by decide) (by decide)

theorem uartPurge_keeps (rx tx : Bool) :
    Triple (Assert reader Good) (uartPurge rx tx) (fun _ => Assert reader Good) E := by
  refine Triple.bind (write_ready (by decide) (by decide) (by decide)) fun _ => Triple.bind
    (Q := fun _ => Assert reader (Plain Owes)) (Triple.when (fun _ => ?_) fun _ hc _ => hc.mono fun _ _ h => ⟨h.1, h.2.1.1, h.2.2⟩)
    fun _ => uartInterruptMask_rule fun _ _ h => h
  refine act_rule _ _ (fun _ _ _ => trivial) ?_
  rintro u w ⟨held, wired, ⟨lined, -, powered⟩, -, -, calls, ends⟩
  have cleared := held.clear
  exact ⟨⟨cleared.fits, cleared.queue, cleared.lost, cleared.rx, cleared.tx⟩, wired.1, ⟨lined, Nat.zero_le _, powered⟩,
    fun paused => absurd paused Bool.false_ne_true, fun _ some => absurd rfl some, calls, ends⟩

end Bytes

/-! ### Files -/

section Files

variable {E : Status → Context Own → Prop}

theorem program_keeps : Triple (Assert reader (Raw Owes)) uartProgram (fun _ => Assert reader Good) E :=
  uartProgram_rule (fun _ h => h.1.1.1) fun _ _ h => h

theorem uartOpen_keeps :
    Triple (Assert reader Good) uartOpen (fun _ => Assert reader Good) fun _ => Assert reader Good := by
  refine glance_rule fun u => Triple.bind (Q := fun _ => Assert reader Good) (Triple.require (fun _ hc _ => hc) fun _ hc _ => hc)
    fun _ => Triple.bind (act_rule (B := Raw Owes) _ _ (fun _ _ _ => trivial) ?_) fun _ => ?_
  · rintro u w ⟨held, wired, ⟨lined, -, powered⟩, -⟩
    refine ⟨⟨Ring.Fits.clear (by decide) _, Ring.contents_clear _ _, nofun, held.rx.drop, held.tx.drop⟩,
      ⟨⟨(by decide : 3#32 &&& 0x80 = 0), lined.2⟩, Nat.zero_le _, powered.1, ?_⟩, ?_, nofun, ?_, ?_⟩
    · exact fun quirk => absurd quirk Bool.false_ne_true
    · exact fun paused => absurd paused Bool.false_ne_true
    · exact fun pending => pending.elim nofun (Or.rec nofun nofun)
    · exact fun quirk => absurd quirk Bool.false_ne_true
  · exact Triple.bind (write_raw _ _) fun _ => Triple.bind (write_raw _ _) fun _ => Triple.bind (write_raw _ _) fun _ =>
      program_keeps

/-- A port may be closed while it is not paused. -/
theorem uartClose_keeps :
    Triple (Assert reader (Ready fun u => u.own.rxPaused = false ∧ Owes u)) uartClose (fun _ => Assert reader Good) E := by
  let flowing (u : Uart) : Prop := u.own.rxPaused = false ∧ Owes u
  refine Triple.bind (change_with (G := fun u (d : Lines) => d.Plain ∧ flowing u) _ (fun _ => ⟨rfl, rfl, rfl, rfl⟩) ?_) fun _ =>
    Triple.bind (uartInterruptMask_rule (S := flowing) fun _ _ h => h) fun _ => Triple.bind (clearRing_with
      (G := fun u (d : Lines) => (d.Plain ∧ Wired u d) ∧ Owes u) ?_) fun _ => change_with _ (fun _ => ⟨rfl, rfl, rfl, rfl⟩) fun _ _ h => h
  · rintro u d ⟨wired, flows, ⟨lined, high, powered⟩, low, wakes, calls, -⟩
    refine ⟨wired.1, flows, ⟨lined, high, powered.1, fun quirk => ?_⟩, low, wakes, fun pending => calls ?_, fun quirk => ?_⟩
    · exact absurd quirk Bool.false_ne_true
    · exact pending.imp id (Or.imp_right fun quirk => absurd quirk Bool.false_ne_true)
    · exact absurd quirk Bool.false_ne_true
  · rintro u d ⟨wired, flows, ⟨lined, -, powered⟩, -, -, calls, ends⟩
    exact ⟨wired, ⟨lined, Nat.zero_le _, powered⟩, fun paused => absurd (flows.symm.trans paused) Bool.false_ne_true,
      fun _ some => absurd rfl some, calls, ends⟩

theorem uartApply_keeps (properties : Option UartDescriptor) :
    Triple (Assert reader Good) (uartApply properties) (fun _ => Assert reader Good) fun _ => Assert reader Good := by
  cases properties with
  | none => exact Triple.stop fun _ hc => hc
  | some d =>
    refine Triple.bind (Q := fun _ => Assert reader Good) (Triple.require (fun _ hc _ => hc) fun _ hc _ => hc) fun _ => ?_
    refine glance_rule fun u => Triple.bind (Q := fun _ => Assert reader Good)
      (Triple.ofExcept (fun _ _ hc => hc) fun _ _ hc => hc) fun _ => ?_
    refine Triple.bind (change_with (G := fun u (_ : Lines) => Owes u) _ (fun _ => ⟨rfl, rfl, rfl, rfl⟩) ?_) fun _ => program_keeps
    rintro v d' ⟨-, ⟨lined, high, powered⟩, rest⟩
    exact ⟨⟨⟨(by decide : 3#32 &&& 0x80 = 0), lined.2⟩, high, powered⟩, rest⟩

end Files

/-! ### Power -/

section Power

variable {E : Status → Context Own → Prop}

theorem wired_offline {u : Uart} (h : u.online = false) (d : Lines) : Wired u d :=
  fun _ online => absurd (h.symm.trans online) Bool.false_ne_true

/-- What a device owes that is not running. -/
def Rests (power : Power) (u : Uart) : Prop := u.own.power = power ∧ Owes u

theorem Rests.offline {power : Power} {u : Uart} (h : Rests power u) (down : power ≠ .running) : u.online = false :=
  Bool.eq_false_iff.mpr fun online => down (h.1.symm.trans (h.2.1.2.2.1 online))

theorem Rests.calm {power : Power} {u : Uart} (h : Rests power u) (down : power ≠ .running) (off : power ≠ .disabled) :
    u.own.quirk = false :=
  Bool.eq_false_iff.mpr fun quirk => (h.2.1.2.2.2 quirk).2.elim (fun eq => down (h.1.symm.trans eq)) fun eq => off (h.1.symm.trans eq)

/-- A device that rests, in its next phase. -/
theorem setPower_keeps (before : Power) {after : Power} (down : before ≠ .running) (off : before ≠ .disabled)
    (boot : after ≠ .removed → before ≠ .removed) :
    Triple (Assert reader (Plain (Rests before))) (setPower after) (fun _ => Assert reader Good) E := by
  refine change_with _ (fun _ => ⟨rfl, rfl, rfl, rfl⟩) fun u d ⟨plain, rests⟩ => ?_
  have offline := rests.offline down
  have calm := rests.calm down off
  obtain ⟨power, ⟨lined, high, -⟩, low, wakes, calls, ends⟩ := rests
  refine ⟨⟨plain, wired_offline offline d⟩, ⟨⟨lined.1, fun there => lined.2 (power ▸ boot there)⟩, high, ?_, ?_⟩, low, wakes,
    calls, ends⟩
  · exact fun online => absurd (offline.symm.trans online) Bool.false_ne_true
  · exact fun quirk => absurd (calm.symm.trans quirk) Bool.false_ne_true

theorem uartStart_keeps :
    Triple (Assert reader (Ready (Rests .down))) uartStart (fun _ => Assert reader Good) E := by
  refine Triple.bind (Triple.mono (P := Assert reader (Raw (Rests .down))) (write_raw _ _)
    (fun _ hc => hc.mono fun _ _ h => ⟨h.1, h.2.2⟩) (fun _ _ hc => hc) fun _ _ hc => hc) fun _ => ?_
  refine Triple.bind (write_raw _ _) fun _ => Triple.bind (uartProgram_rule (S := Rests .down) (fun _ h => h.2.1.1.1)
    fun _ _ h => h) fun _ => ?_
  exact (setPower_keeps _ (by decide) (by decide) (by decide)).mono (fun _ hc => hc.mono fun _ _ h => ⟨h.1, h.2.1.1, h.2.2⟩)
    (fun _ _ hc => hc) fun _ _ hc => hc

theorem uartStop_keeps :
    Triple (Assert reader (Ready (Rests .disabled))) uartStop (fun _ => Assert reader Good) E := by
  let quiet (u : Uart) : Prop := Owes u ∧ u.online = false ∧ u.own.quirk = false ∧ u.own.power = .disabled
  refine Triple.bind (change_with (G := fun u (d : Lines) => d.Plain ∧ quiet u) _ (fun _ => ⟨rfl, rfl, rfl, rfl⟩) ?_) fun _ => ?_
  · rintro u d ⟨wired, power, ⟨lined, high, -⟩, low, wakes, calls, -⟩
    refine ⟨wired.1, ⟨⟨lined, high, ?_, ?_⟩, low, wakes, fun pending => calls ?_, ?_⟩, rfl, rfl, power⟩
    · exact fun online => absurd online Bool.false_ne_true
    · exact fun quirk => absurd quirk Bool.false_ne_true
    · exact pending.imp id (Or.imp_right fun quirk => absurd quirk Bool.false_ne_true)
    · exact fun quirk => absurd quirk Bool.false_ne_true
  refine Triple.bind (write_plain (by decide)) fun _ => Triple.bind (write_plain (by decide)) fun _ => ?_
  refine change_with _ (fun _ => ⟨rfl, rfl, rfl, rfl⟩) fun u d h => ?_
  obtain ⟨plain, ⟨⟨lined, high, -⟩, low, wakes, calls, ends⟩, offline, calm, power⟩ := h
  refine ⟨⟨plain, wired_offline offline d⟩, ⟨⟨lined.1, fun _ => lined.2 (by rw [power]; decide)⟩, high, ?_, ?_⟩, low, wakes, calls,
    ends⟩
  · exact fun online => absurd (offline.symm.trans online) Bool.false_ne_true
  · exact fun quirk => absurd (calm.symm.trans quirk) Bool.false_ne_true

theorem uartRestore_keeps :
    Triple (Assert reader (Ready (Rests .stopped))) uartRestore (fun _ => Assert reader Good) E := by
  refine Triple.bind (change_with (G := fun u (_ : Lines) => Rests .stopped u) _ (fun _ => ⟨rfl, rfl, rfl, rfl⟩)
    fun u d h => ?_) fun _ => look_rule fun u => ?_
  · have calm := h.2.calm (by decide) (by decide)
    obtain ⟨-, power, core, low, wakes, calls, -⟩ := h
    exact ⟨power, core, low, wakes, calls, fun quirk => absurd (calm.symm.trans quirk) Bool.false_ne_true⟩
  refine Triple.mono (P := Assert reader fun v w => u.boot uartLcr &&& 0x80 = 0 ∧ Raw (Rests .stopped) v w)
    (assume_rule fun boot => ?_) (fun _ hc => hc.mono ?_) (fun _ _ hc => hc) fun _ _ hc => hc
  · refine Triple.bind (write_raw _ _) fun _ => Triple.bind (write_raw _ _) fun _ => Triple.bind (write_raw _ _) fun _ => ?_
    refine Triple.bind (write_raw _ _) fun _ => Triple.bind (write_lcr boot) fun _ => ?_
    refine Triple.bind (write_plain (by decide)) fun _ => Triple.bind (write_plain (by decide)) fun _ => ?_
    exact Triple.bind (write_plain (by decide)) fun _ => setPower_keeps _ (by decide) (by decide) (by decide)
  · rintro v w ⟨rfl, h⟩
    exact ⟨h.2.2.1.1.2 (by rw [h.2.1]; decide), h⟩

theorem uartInterruptEnable_keeps :
    Triple (Assert reader (Ready (Rests .entered))) uartInterruptEnable (fun _ => Assert reader Good) E := by
  refine Triple.bind (change_with (G := fun u (d : Lines) => d.Plain ∧ Owes u) _ (fun _ => ⟨rfl, rfl, rfl, rfl⟩)
    fun u d h => ?_) fun _ => uartInterruptMask_rule fun _ _ h => h
  have calm := h.2.calm (by decide) (by decide)
  obtain ⟨wired, power, ⟨lined, high, -⟩, low, wakes, calls, ends⟩ := h
  refine ⟨wired.1, ⟨⟨lined.1, fun _ => lined.2 (by rw [power]; decide)⟩, high, fun _ => rfl, ?_⟩, low, wakes, calls, ends⟩
  exact fun quirk => absurd (calm.symm.trans quirk) Bool.false_ne_true

theorem uartInterruptDisable_keeps :
    Triple (Assert reader (Ready (Rests .running))) uartInterruptDisable (fun _ => Assert reader Good) E := by
  refine Triple.bind (change_with (G := fun u (d : Lines) => d.Plain ∧ Owes u ∧ u.online = false) _
    (fun _ => ⟨rfl, rfl, rfl, rfl⟩) fun u d h => ?_) fun _ => Triple.bind (write_plain (by decide)) fun _ =>
    Triple.bind (read_rule _) fun _ => Triple.pure fun _ hc => hc.mono fun u w h =>
      ⟨h.1, ⟨h.2.1, wired_offline h.2.2.2 _⟩, h.2.2.1⟩
  obtain ⟨wired, power, ⟨lined, high, -, calm⟩, low, wakes, calls, ends⟩ := h
  refine ⟨wired.1, ⟨⟨⟨lined.1, fun _ => lined.2 (by rw [power]; decide)⟩, high, ?_, ?_⟩, low, wakes, calls, ends⟩, rfl⟩
  · exact fun online => absurd online Bool.false_ne_true
  · exact fun quirk => ⟨(calm quirk).1, .inr rfl⟩

/-- While the boot values are saved; the one of the line control does not select the divisor. -/
def Saves (lcr : BitVec 32) (u : Uart) : Prop := Rests .removed u ∧ u.boot uartLcr = lcr

theorem Saves.other {lcr value : BitVec 32} {offset : ℕ} {u : Uart} (h : Saves lcr u) (other : offset ≠ uartLcr) :
    Saves lcr { u with boot := fun i => if i = offset then value else u.boot i } := by
  obtain ⟨⟨power, ⟨lined, rest⟩, owes⟩, boot⟩ := h
  exact ⟨⟨power, ⟨⟨lined.1, fun there => absurd power there⟩, rest⟩, owes⟩, (if_neg other.symm).trans boot⟩

theorem Rests.saves {lcr : BitVec 32} {u : Uart} (h : Rests .removed u) :
    Saves lcr { u with boot := fun i => if i = uartLcr then lcr else u.boot i } := by
  obtain ⟨power, ⟨lined, rest⟩, owes⟩ := h
  refine ⟨⟨power, ⟨⟨lined.1, fun there => absurd power there⟩, rest⟩, owes⟩, ?_⟩
  change (if uartLcr = uartLcr then lcr else u.boot uartLcr) = lcr
  exact if_pos rfl

theorem saveBoot_ready {lcr value : BitVec 32} {offset : ℕ} (other : offset ≠ uartLcr) :
    Triple (Assert reader (Ready (Saves lcr))) (saveBoot offset value) (fun _ => Assert reader (Ready (Saves lcr))) E :=
  change_with _ (fun _ => ⟨rfl, rfl, rfl, rfl⟩) fun _ _ h => ⟨h.1, h.2.other other⟩

theorem saveBoot_raw {lcr value : BitVec 32} {offset : ℕ} (other : offset ≠ uartLcr) :
    Triple (Assert reader (Raw (Saves lcr))) (saveBoot offset value) (fun _ => Assert reader (Raw (Saves lcr))) E :=
  change_with _ (fun _ => ⟨rfl, rfl, rfl, rfl⟩) fun _ _ h => h.other other

/-- The device is prepared, and its line control does not select the divisor. -/
theorem prepared_keeps {lcr : BitVec 32} (clear : lcr &&& 0x80 = 0) :
    Triple (Assert reader (Plain (Saves lcr))) (setPower .down) (fun _ => Assert reader Good) E := by
  refine change_with _ (fun _ => ⟨rfl, rfl, rfl, rfl⟩) fun u d ⟨plain, rests, boot⟩ => ?_
  have offline := rests.offline (by decide)
  have calm := rests.calm (by decide) (by decide)
  obtain ⟨power, ⟨lined, high, -⟩, low, wakes, calls, ends⟩ := rests
  refine ⟨⟨plain, wired_offline offline d⟩, ⟨⟨lined.1, fun _ => (congrArg (· &&& 0x80) boot).trans clear⟩, high, ?_, ?_⟩, low, wakes,
    calls, ends⟩
  · exact fun online => absurd (offline.symm.trans online) Bool.false_ne_true
  · exact fun quirk => absurd (calm.symm.trans quirk) Bool.false_ne_true

theorem uartPrepare_keeps :
    Triple (Assert reader (Ready (Rests .removed))) uartPrepare (fun _ => Assert reader Good) fun _ => Assert reader Good := by
  have good {R : Uart → Prop} (h : ∀ u, R u → Rests .removed u) (c : Context Own) (hc : Assert reader (Plain R) c) :
      Assert reader Good c :=
    hc.mono fun u w hu => ⟨hu.1, ⟨hu.2.1, wired_offline ((h u hu.2.2).offline (by decide)) w.device⟩, (h u hu.2.2).2⟩
  have plain {R : Uart → Prop} (c : Context Own) (hc : Assert reader (Ready R) c) : Assert reader (Plain R) c :=
    hc.mono fun _ _ hu => ⟨hu.1, hu.2.1.1, hu.2.2⟩
  have asks {α : Type} {R : Uart → Prop} (h : ∀ u, R u → Rests .removed u) (r : Except Status α) :
      Triple (Assert reader (Ready R)) (ofExcept r : Drive α) (fun _ => Assert reader (Ready R)) fun _ => Assert reader Good :=
    Triple.ofExcept (fun _ _ hc => hc) fun _ c hc => good h c (plain c hc)
  have stops {p : Prop} [Decidable p] {R : Uart → Prop} (h : ∀ u, R u → Rests .removed u) (s : Status) :
      Triple (Assert reader (Ready R)) (require p s : Drive Unit) (fun _ => Assert reader fun u w => p ∧ Ready R u w)
        fun _ => Assert reader Good :=
    Triple.require (fun _ hc yes => ⟨hc.1, yes, hc.2⟩) fun c hc _ => good h c (plain c hc)
  refine Triple.bind (ask_rule _) fun r => Triple.bind (asks (fun _ => id) r) fun _ => ?_
  refine Triple.bind (ask_rule _) fun r => Triple.bind (asks (fun _ => id) r) fun clockHz => ?_
  refine Triple.bind (change_with (G := fun u (d : Lines) => (d.Plain ∧ Wired u d) ∧ Rests .removed u) _
    (fun _ => ⟨rfl, rfl, rfl, rfl⟩) fun _ _ h => h) fun _ => Triple.bind (asks (fun _ => id) _) fun _ => ?_
  refine Triple.bind (ask_rule _) fun r => Triple.bind (asks (fun _ => id) r) fun _ => Triple.bind (read_rule _) fun lcr => ?_
  refine Triple.bind (change_with (G := fun u (d : Lines) => (d.Plain ∧ Wired u d) ∧ Saves lcr u) _ (fun _ => ⟨rfl, rfl, rfl, rfl⟩)
    fun _ _ h => ⟨h.1, h.2.saves⟩) fun _ => ?_
  refine Triple.bind (stops (fun _ h => h.1) _) fun _ => assume_rule fun clear => Triple.bind (read_rule _) fun ier => ?_
  refine Triple.bind (stops (fun _ h => h.1) _) fun _ => assume_rule fun _ => Triple.bind (read_rule _) fun mcr => ?_
  refine Triple.bind (saveBoot_ready (by decide)) fun _ => Triple.bind (saveBoot_ready (by decide)) fun _ => ?_
  refine Triple.bind (read_rule _) fun scr => Triple.bind (saveBoot_ready (by decide)) fun _ => ?_
  refine Triple.bind (Triple.mono (P := Assert reader (Raw (Saves lcr))) (write_raw _ _)
    (fun _ hc => hc.mono fun _ _ h => ⟨h.1, h.2.2⟩) (fun _ _ hc => hc) fun _ _ hc => hc) fun _ => ?_
  refine Triple.bind (read_rule _) fun dll => Triple.bind (saveBoot_raw (by decide)) fun _ => ?_
  refine Triple.bind (read_rule _) fun dlm => Triple.bind (saveBoot_raw (by decide)) fun _ => ?_
  refine Triple.bind (write_lcr clear) fun _ => Triple.bind (ask_rule _) fun key => Triple.bind
    (Triple.ofExcept (fun _ _ hc => hc) fun _ c hc => good (fun _ h => h.1) c hc) fun _ => prepared_keeps clear

end Power

/-! ### Requests -/

section Requests

theorem clear_or {x y m : BitVec 32} (hx : x &&& m = 0) (hy : y &&& m = 0) : (x ||| y) &&& m = 0 := by
  rw [BitVec.and_comm, BitVec.and_or_distrib_left, BitVec.and_comm m, BitVec.and_comm m, hx, hy]
  exact BitVec.or_zero

theorem stopBits_clear {bits : UInt8} {value : BitVec 32} (h : stopBits bits = some value) : value &&& 0x80 = 0 := by
  unfold stopBits at h
  repeat' split at h
  all_goals cases h; try decide

theorem parityBits_clear {parity : UInt8} {value : BitVec 32} (h : parityBits parity = some value) : value &&& 0x80 = 0 := by
  unfold parityBits at h
  repeat' split at h
  all_goals cases h; try decide

theorem word_clear {n : ℕ} (h : n < 4) : BitVec.ofNat 32 n &&& 0x80 = 0 := by
  match n with
  | 0 | 1 | 2 | 3 => decide

theorem uartLine_clear {line : LineControl} {value : BitVec 32} (h : uartLine line = .ok value) : value &&& 0x80 = 0 := by
  unfold uartLine at h
  split at h
  · cases h
  case isFalse word =>
    have short := UInt8.le_iff_toNat_le.mp (UInt8.not_lt.mp fun long => word (.inr long))
    change line.wordLength.toNat ≤ 8 at short
    rcases stop : stopBits line.stopBits with _ | s <;> rcases parity : parityBits line.parity with _ | p <;>
      simp only [stop, parity] at h
    · cases h
    · cases h
    · cases h
    · cases h
      exact clear_or (clear_or (word_clear (by omega)) (stopBits_clear stop)) (parityBits_clear parity)

/-- A change of the line control that does not select the divisor. -/
theorem setLine_keeps {f : BitVec 32 → BitVec 32} (clear : ∀ line, line &&& 0x80 = 0 → f line &&& 0x80 = 0)
    {E : Status → Context Own → Prop} : Triple (Assert reader Good) (setLine f) (fun _ => Assert reader Good) E := by
  refine Triple.bind (change_with (G := fun u (d : Lines) => (d.Plain ∧ Wired u d) ∧ Owes u) _ (fun _ => ⟨rfl, rfl, rfl, rfl⟩)
    fun _ _ ⟨wired, ⟨lined, rest⟩, owes⟩ => ⟨wired, ⟨⟨clear _ lined.1, lined.2⟩, rest⟩, owes⟩) fun _ => look_rule fun u => ?_
  refine record_rule _ (fun _ _ _ => trivial) ?_
  rintro v w ⟨rfl, held, wired, owes⟩
  exact ⟨⟨held.fits, held.queue, held.lost, held.rx, held.tx⟩, ⟨owes.1.1.1, wired.2⟩, owes⟩

theorem requireIdle_keeps : Triple (Assert reader Good) requireIdle (fun _ => Assert reader Good) fun _ => Assert reader Good :=
  Triple.bind (read_rule _) fun _ => Triple.require (fun _ hc _ => hc) fun _ hc _ => hc

theorem control_keeps (code : Code) :
    Triple (Assert reader Good) (control code) (fun _ => Assert reader Good) fun _ => Assert reader Good := by
  have answer (a : Answer) : Triple (Assert reader Good) (pure a : Drive Answer) (fun _ => Assert reader Good)
      fun _ => Assert reader Good := pure_rule
  have programs (f : Uart → Uart) (same : ∀ u, (f u).ring = u.ring ∧ (f u).errors = u.errors ∧ (f u).rx = u.rx ∧ (f u).tx = u.tx)
      (owes : ∀ u, Owes u → Owes (f u)) : Triple (Assert reader Good) (do
        change f
        uartProgram
        pure .nothing : Drive Answer) (fun _ => Assert reader Good) fun _ => Assert reader Good :=
    Triple.bind (change_with (G := fun u (_ : Lines) => Owes u) f same fun u _ h => owes u h.2) fun _ =>
      Triple.bind program_keeps fun _ => answer _
  cases code with
  | setBaudRate baudRate =>
    refine glance_rule fun u => Triple.bind (Q := fun _ => Assert reader Good)
      (Triple.ofExcept (fun _ _ hc => hc) fun _ _ hc => hc) fun _ => Triple.bind requireIdle_keeps fun _ => ?_
    exact programs _ (fun _ => ⟨rfl, rfl, rfl, rfl⟩) fun _ h => h
  | setLineControl line =>
    refine Triple.bind (Triple.ofExcept_ok fun _ _ hc => hc) fun value => Triple.assume fun eq => ?_
    refine Triple.bind requireIdle_keeps fun _ => programs _ (fun _ => ⟨rfl, rfl, rfl, rfl⟩) fun u ⟨⟨lined, rest⟩, owes⟩ => ?_
    exact ⟨⟨⟨uartLine_clear eq, lined.2⟩, rest⟩, owes⟩
  | setHandflow flow =>
    refine Triple.bind (Q := fun _ => Assert reader Good) (Triple.require (fun _ hc _ => hc) fun _ hc _ => hc) fun _ => ?_
    refine Triple.bind (change_with (G := fun u (d : Lines) => d.Plain ∧ Owes u) _ (fun _ => ⟨rfl, rfl, rfl, rfl⟩)
      fun _ _ h => ⟨h.1.1, h.2⟩) fun _ => Triple.bind (uartInterruptMask_rule fun _ _ h => h) fun _ => answer _
  | setChars chars => exact Triple.bind (change_with _ (fun _ => ⟨rfl, rfl, rfl, rfl⟩) fun _ _ h => h) fun _ => answer _
  | getBaudRate | getLineControl | getHandflow | getChars | getModemControl | getDtrRts =>
    exact glance_rule fun _ => answer _
  | getProperties | setQueueSize => exact answer _
  | getCommStatus =>
    refine Triple.bind (reportErrors_with fun _ _ h => h) fun errors => glance_rule fun u => ?_
    exact Triple.bind (read_rule _) fun _ => answer _
  | getModemStatus => exact Triple.bind (read_rule _) fun _ => answer _
  | setBreakOn =>
    exact Triple.bind (setLine_keeps fun _ clear => clear_or clear (by decide)) fun _ => answer _
  | setBreakOff =>
    refine Triple.bind (setLine_keeps fun line clear => ?_) fun _ => answer _
    rw [BitVec.and_assoc, BitVec.and_comm _ 0x80, ← BitVec.and_assoc, clear]
    exact BitVec.zero_and
  | setModemControl | setDtr | clrDtr | setRts | clrRts | unknown => exact Triple.stop fun _ hc => hc

theorem uartControl_keeps (code : Code) :
    Triple (Assert reader Good) (uartControl code) (fun _ => Assert reader Good) fun _ => Assert reader Good := by
  have requires {p : Prop} [Decidable p] (s : Status) : Triple (Assert reader Good) (require p s : Drive Unit)
      (fun _ => Assert reader Good) fun _ => Assert reader Good := Triple.require (fun _ hc _ => hc) fun _ hc _ => hc
  refine Triple.bind (requires _) fun _ => Triple.bind (Q := fun _ => Assert reader Good) (Triple.when (fun _ => ?_)
    fun _ hc _ => hc) fun _ => glance_rule fun u => Triple.bind (requires _) fun _ => control_keeps code
  exact Triple.bind (ask_rule _) fun r => Triple.ofExcept (fun _ _ hc => hc) fun _ _ hc => hc

end Requests

end Pi5Drivers.BcmUart
