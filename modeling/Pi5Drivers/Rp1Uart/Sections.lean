import Pi5Drivers.Rp1Uart.Driver
import Pi5Drivers.Serial.Service

/-! What each section under the lock keeps. Most of them change neither the ring nor the
notifications; the others are followed from byte to byte and from flag to flag. -/

namespace Pi5Drivers.Rp1Uart

open Serial Effect Recorded

/-- As many bytes as the ring has room for may wait, and what comes then is lost. -/
def contract : Contract Unit := ⟨ringSize, true, (), fun _ _ _ => ()⟩

abbrev reader : Observer Event (Watch Unit) := observer contract

/-- Where the port is open, a receive notification that is armed while bytes wait is pending. -/
def Wakes (u : Uart) : Prop :=
  u.isOpen = true → u.rx.armed = true → u.ring.count ≠ 0 → u.rx.pending = true

/-- The deferred procedure is still to run where a notification is pending. -/
def Calls (u : Uart) : Prop := u.rx.pending = true ∨ u.tx.pending = true → u.Due

structure Awake (u : Uart) : Prop where
  calls : Calls u
  wakes : Wakes u

/-- A context of which something holds, with what the port owes. -/
abbrev Kept (F : Uart → Prop) : Uart → Watch Unit → Prop := With fun u (_ : Unit) => F u

abbrev Good : Uart → Watch Unit → Prop := Kept Awake

/-! ### Quiet sections -/

/-- Another context with the same bytes, errors and notifications. -/
structure Same (v u : Uart) : Prop where
  ring : v.ring = u.ring
  errors : v.errors = u.errors
  rx : v.rx = u.rx
  tx : v.tx = u.tx
  isOpen : v.isOpen = u.isOpen
  due : u.Due → v.Due

/-- What depends on no more than that. -/
def Steady (F : Uart → Prop) : Prop := ∀ ⦃v u⦄, Same v u → F u → F v

/-- A program that keeps all there is to keep. -/
def Quiet {α : Type} (x : Drive α) : Prop :=
  ∀ F, Steady F → Triple (Assert reader (Kept F)) x (fun _ => Assert reader (Kept F)) fun _ => Assert reader (Kept F)

section Quiet

variable {α β : Type} {F : Uart → Prop} {u v : Uart} {w : Watch Unit}

theorem Same.held (h : Same v u) (s : Held u w) : Held v w where
  fits := h.ring ▸ s.fits
  queue := h.ring ▸ s.queue
  lost := h.errors ▸ s.lost
  rx := h.rx ▸ s.rx
  tx := h.tx ▸ s.tx

theorem steady_calls : Steady Calls := by
  intro v u same h
  rw [Calls, same.rx, same.tx]
  exact fun pending => same.due (h pending)

theorem steady_wakes : Steady Wakes := by
  intro v u same h
  rw [Wakes, same.isOpen, same.rx, same.ring]
  exact h

theorem steady_awake : Steady Awake := fun _ _ same h => ⟨steady_calls same h.calls, steady_wakes same h.wakes⟩

theorem write_kept {E : Status → Context Own → Prop} (offset : ℕ) (value : BitVec 32) :
    Triple (Assert reader (Kept F)) (Serial.write offset value : Drive Unit) (fun _ => Assert reader (Kept F)) E :=
  write_with _ _ fun _ _ h => h

theorem Quiet.pure (a : α) : Quiet (Pure.pure a) := fun _ _ => pure_rule

theorem Quiet.bind {x : Drive α} {f : α → Drive β} (hx : Quiet x) (hf : ∀ a, Quiet (f a)) : Quiet (x >>= f) :=
  fun F hF => Triple.bind (hx F hF) fun a => hf a F hF

theorem Quiet.look {f : Uart → Drive α} (h : ∀ u, Quiet (f u)) : Quiet (Recorded.look >>= f) :=
  fun F hF => glance_rule fun u => h u F hF

theorem Quiet.ask (f : World → ℕ → α) : Quiet (Recorded.ask f) := fun _ _ => ask_rule _

theorem Quiet.read (offset : ℕ) : Quiet (Serial.read offset) := Quiet.ask _

theorem Quiet.write (offset : ℕ) (value : BitVec 32) : Quiet (Serial.write offset value) := fun _ _ => write_kept _ _

theorem Quiet.change (f : Uart → Uart) (h : ∀ u, Same (f u) u) : Quiet (Recorded.change f) := fun _ hF =>
  change_rule _ fun u _ hu => ⟨(h u).held hu.1, hF (h u) hu.2⟩

theorem Quiet.stop (s : Status) : Quiet (Effect.stop s : Drive α) := fun _ _ => Triple.stop fun _ hc => hc

theorem Quiet.require {p : Prop} [Decidable p] (s : Status) : Quiet (Effect.require p s) := fun _ _ =>
  Triple.require (fun _ hc _ => hc) fun _ hc _ => hc

theorem Quiet.ofExcept (r : Except Status α) : Quiet (Effect.ofExcept r) := fun _ _ =>
  Triple.ofExcept (fun _ _ hc => hc) fun _ _ hc => hc

theorem Quiet.when {p : Prop} [Decidable p] {x : Drive Unit} (h : Quiet x) : Quiet (Effect.when p x) := fun F hF =>
  Triple.when (fun _ => h F hF) fun _ hc _ => hc

theorem Quiet.ite {p : Prop} [Decidable p] {x y : Drive α} (hx : Quiet x) (hy : Quiet y) : Quiet (if p then x else y) :=
  fun F hF => Triple.ite (fun _ => hx F hF) fun _ => hy F hF

theorem Quiet.each {γ : Type} {f : γ → Drive Unit} (h : ∀ a, Quiet (f a)) (l : List γ) : Quiet (Effect.each f l) :=
  fun F hF => Triple.each fun a _ => h a F hF

theorem quiet_uartProgram : Quiet uartProgram :=
  .look fun _ => .bind (.write _ _) fun _ => .bind (.write _ _) fun _ => .bind (.write _ _) fun _ =>
    .bind (.write _ _) fun _ => .bind (.write _ _) fun _ => .bind (.read _) fun _ => .pure _

theorem quiet_interruptMask : Quiet interruptMask :=
  .bind (.change _ fun _ => ⟨rfl, rfl, rfl, rfl, rfl, id⟩) fun _ => .look fun _ => .bind (.write _ _) fun _ =>
    .bind (.read _) fun _ => .pure _

theorem quiet_uartPrepare (uid : BitVec 32) : Quiet (uartPrepare uid) := by
  refine .bind (.ask _) fun r => .bind (.ofExcept r) fun _ => .bind (.change _ fun _ => ?_) fun _ => ?_
  · exact ⟨rfl, rfl, rfl, rfl, rfl, id⟩
  refine .bind (.require _) fun _ => .bind (.ask _) fun mapped => .bind (.ofExcept mapped) fun _ => ?_
  refine .bind (.each (fun offset => .bind (.read _) fun value => .change _ fun _ => ?_) _) fun _ => ?_
  · exact ⟨rfl, rfl, rfl, rfl, rfl, id⟩
  · exact .look fun _ => .require _

theorem quiet_uartStart : Quiet uartStart := by
  refine .bind (.ask _) fun clock => .bind (.ofExcept clock) fun clockHz => .bind (.change _ fun _ => ?_) fun _ => ?_
  · exact ⟨rfl, rfl, rfl, rfl, rfl, id⟩
  refine .look fun u => .bind (.ofExcept _) fun _ => .bind (.write _ _) fun _ => .bind (.write _ _) fun _ => ?_
  refine .bind (.write _ _) fun _ => .bind (.write _ _) fun _ => .bind (.write _ _) fun _ => ?_
  exact .bind quiet_uartProgram fun _ => .bind (.ask _) fun route => .ofExcept route

theorem quiet_uartStop : Quiet uartStop :=
  .bind (.change _ fun _ => ⟨rfl, rfl, rfl, rfl, rfl, id⟩) fun _ => .bind (.write _ _) fun _ =>
    .bind (.write _ _) fun _ => .bind (.read _) fun _ => .pure _

theorem quiet_uartRestore : Quiet uartRestore :=
  .bind (.change _ fun _ => ⟨rfl, rfl, rfl, rfl, rfl, id⟩) fun _ => .look fun _ =>
    .bind (.each (fun _ => .write _ _) _) fun _ => .bind (.read _) fun _ => .pure _

theorem quiet_uartInterruptEnable : Quiet uartInterruptEnable :=
  .bind (.change _ fun _ => ⟨rfl, rfl, rfl, rfl, rfl, id⟩) fun _ => quiet_interruptMask

theorem quiet_uartInterruptDisable : Quiet uartInterruptDisable :=
  .bind (.change _ fun _ => ⟨rfl, rfl, rfl, rfl, rfl, id⟩) fun _ => .bind (.write _ _) fun _ =>
    .bind (.read _) fun _ => .pure _

theorem quiet_transmitBytes (n : ℕ) (bytes : List UInt8) : Quiet (transmitBytes n bytes) := by
  induction bytes generalizing n with
  | nil => cases n <;> exact .pure _
  | cons byte rest ih =>
    cases n with
    | zero => exact .pure _
    | succ n => exact .bind (.read _) fun _ => .when (.bind (.write _ _) fun _ => ih n)

theorem quiet_uartTransmit (bytes : List UInt8) : Quiet (uartTransmit bytes) :=
  .look fun _ => .when (.bind (quiet_transmitBytes _ _) fun _ => .bind (.read _) fun _ => .pure _)

theorem quiet_uartDrainTimer : Quiet uartDrainTimer :=
  .look fun _ => .ite (.bind (.read _) fun _ =>
    .ite (.bind (.change _ fun _ => ⟨rfl, rfl, rfl, rfl, rfl, id⟩) fun _ => .pure _) (.pure _)) (.pure _)

theorem quiet_setModem (dtr rts : Prop) [Decidable dtr] [Decidable rts] : Quiet (setModem dtr rts) :=
  .bind (.change _ fun _ => ⟨rfl, rfl, rfl, rfl, rfl, id⟩) fun _ => .look fun _ => .write _ _

theorem quiet_setControl (f : BitVec 32 → BitVec 32) : Quiet (setControl f) :=
  .bind (.change _ fun _ => ⟨rfl, rfl, rfl, rfl, rfl, id⟩) fun _ => .look fun _ => .write _ _

theorem quiet_setLine (f : BitVec 32 → BitVec 32) : Quiet (setLine f) :=
  .bind (.change _ fun _ => ⟨rfl, rfl, rfl, rfl, rfl, id⟩) fun _ => .look fun _ => .write _ _

theorem quiet_requireIdle : Quiet requireIdle := .bind (.read _) fun _ => .require _

theorem quiet_uartWait (mask : BitVec 32) : Quiet (uartWait mask) :=
  .bind (.require _) fun _ => .change _ fun _ => ⟨rfl, rfl, rfl, rfl, rfl, id⟩

end Quiet

/-! ### Requests -/

section Requests

variable {F : Uart → Prop}

theorem control_with (code : Code) (steady : Steady F) (frame : ∀ u, F u → F { u with errors := 0 }) :
    Triple (Assert reader (Kept F)) (control code) (fun _ => Assert reader (Kept F)) fun _ => Assert reader (Kept F) := by
  have quiet {x : Drive Answer} (h : Quiet x) := h F steady
  cases code with
  | setBaudRate baudRate =>
    refine quiet (.look fun u => .bind (.ofExcept _) fun _ => .bind quiet_requireIdle fun _ => ?_)
    exact .bind (.change _ fun _ => ⟨rfl, rfl, rfl, rfl, rfl, id⟩) fun _ => .bind quiet_uartProgram fun _ => .pure _
  | setLineControl line =>
    refine quiet (.bind (.ofExcept _) fun value => .bind quiet_requireIdle fun _ => ?_)
    exact .bind (.change _ fun _ => ⟨rfl, rfl, rfl, rfl, rfl, id⟩) fun _ => .bind quiet_uartProgram fun _ => .pure _
  | setHandflow flow =>
    refine quiet (.bind (.require _) fun _ => .bind (.change _ fun _ => ⟨rfl, rfl, rfl, rfl, rfl, id⟩) fun _ => ?_)
    exact .bind (quiet_setModem _ _) fun _ => .pure _
  | setChars chars => exact quiet (.bind (.change _ fun _ => ⟨rfl, rfl, rfl, rfl, rfl, id⟩) fun _ => .pure _)
  | getBaudRate | getLineControl | getHandflow | getChars | getModemControl | getDtrRts =>
    exact quiet (.look fun _ => .pure _)
  | getProperties | setQueueSize => exact quiet (.pure _)
  | getCommStatus =>
    refine Triple.bind (reportErrors_with fun u _ => frame u) fun errors => glance_rule fun u => ?_
    exact Triple.bind (read_rule _) fun _ => pure_rule
  | getModemStatus => exact quiet (.bind (.read _) fun _ => .pure _)
  | setModemControl value => exact quiet (.bind (.require _) fun _ => .bind (quiet_setModem _ _) fun _ => .pure _)
  | setDtr | clrDtr | setRts | clrRts => exact quiet (.bind (quiet_setControl _) fun _ => .pure _)
  | setBreakOn | setBreakOff => exact quiet (.bind (quiet_setLine _) fun _ => .pure _)
  | unknown => exact quiet (.stop _)

theorem uartControl_with (code : Code) (steady : Steady F) (frame : ∀ u, F u → F { u with errors := 0 }) :
    Triple (Assert reader (Kept F)) (uartControl code) (fun _ => Assert reader (Kept F))
      fun _ => Assert reader (Kept F) := by
  have buffers : Quiet (when (code.buffered = true) do
      let buffers ← ask fun world time => world.retrieve time
      ofExcept buffers) := .when (.bind (.ask _) fun r => .ofExcept r)
  refine Triple.bind (Quiet.require _ F steady) fun _ => Triple.bind (buffers F steady) fun _ => glance_rule fun u => ?_
  exact Triple.bind (Quiet.require _ F steady) fun _ => control_with code steady frame

end Requests

/-! ### Bytes -/

/-- What does not depend on the bytes that wait, nor on the errors and events. -/
def Apart (F : Uart → Prop) : Prop := ∀ u ring errors events, F u → F { u with ring, errors, events }

section Bytes

variable {F : Uart → Prop} {E : Status → Context Own → Prop}

theorem Held.received {u : Uart} {w : Watch Unit} (h : Held u w) (data : BitVec 32) : Held (received data u) w :=
  ⟨h.fits, h.queue, fun lost => flagged_or (flagged_or (flagged_or (flagged_or (h.lost lost)))), h.rx, h.tx⟩

theorem takeByte_with (apart : Apart F) :
    Triple (Assert reader (Kept F)) takeByte (fun _ => Assert reader (Kept F)) E := by
  refine Triple.bind (read_rule _) fun data => Triple.bind (change_rule (B := Kept F) _ fun u w h => ?_) fun _ => ?_
  · exact ⟨Held.received h.1 data, apart u _ _ _ h.2⟩
  refine look_rule fun u => Triple.ite (fun full => ?_) fun room => ?_
  · refine act_rule _ _ (fun _ _ _ => .inr rfl) ?_
    rintro u' w ⟨rfl, h⟩
    have over_ : ¬w.queue.length < ringSize := by rw [h.1.count, full]; exact Nat.lt_irrefl _
    rw [show reader.saw w (.took (UInt8.ofNat data.toNat)) = { w with lost := true } from if_neg over_]
    refine ⟨⟨h.1.fits, h.1.queue, fun _ => ?_, h.1.rx, h.1.tx⟩, apart u' _ _ _ h.2⟩
    rw [BitVec.and_comm, BitVec.and_or_distrib_left]
    exact fun none => absurd (BitVec.or_eq_zero_iff.mp none).2 (by decide)
  · refine (take_with (F := fun u _ => u.ring.count < ringSize ∧ F u) _ (Nat.le_refl _) (fun _ _ h => h.1)
      fun u _ _ h => apart u _ _ _ h.2).mono (fun _ hc => hc.mono ?_) (fun _ _ hc => hc) fun _ _ hc => hc
    rintro u' w ⟨rfl, h⟩
    exact ⟨h.1, lt_of_le_of_ne h.1.fits.count room, h.2⟩

theorem takeBytes_with (apart : Apart F) (n : ℕ) :
    Triple (Assert reader (Kept F)) (takeBytes n) (fun _ => Assert reader (Kept F)) E := by
  induction n with
  | zero => exact pure_rule
  | succ n ih =>
    refine Triple.bind (read_rule _) fun _ => Triple.when (fun _ => ?_) fun _ hc _ => hc
    exact Triple.bind (takeByte_with apart) fun _ => ih

theorem uartCapture_with (apart : Apart F) :
    Triple (Assert reader (Kept F)) uartCapture (fun _ => Assert reader (Kept F)) E := by
  refine Triple.bind (takeBytes_with apart 64) fun _ => change_rule _ fun u w h => ?_
  split
  · exact h
  · exact ⟨⟨h.1.fits, h.1.queue, h.1.lost, h.1.rx, h.1.tx⟩, apart u u.ring u.errors _ h.2⟩

/-- An empty FIFO leaves the ring as it is. -/
theorem uartCapture_empty {c : Context Own} (good : Assert reader Good c)
    (empty : c.world.register c.clock uartFr &&& uartRxEmpty ≠ 0) :
    Triple (· = c) uartCapture (fun _ => Assert reader Good) E := by
  refine Triple.bind (Q := fun _ => Assert reader Good) ?_ fun _ => change_rule _ fun u w h => ?_
  · rintro c rfl
    have run : (takeBytes 64).run c = (.ok (), { c with clock := c.clock + 1 }) :=
      (run_bind_ok rfl).trans (congrFun (if_neg empty) _)
    rw [run]
    exact good
  · split
    · exact h
    · exact ⟨⟨h.1.fits, h.1.queue, h.1.lost, h.1.rx, h.1.tx⟩, h.2.calls, h.2.wakes⟩

end Bytes

/-! ### Interrupts -/

section Interrupts

variable {E : Status → Context Own → Prop}

theorem flagTransmit_flags : Triple (Assert reader (Kept Wakes)) flagTransmit (fun _ => Assert reader (Kept Wakes)) E := by
  refine look_rule fun u => Triple.when (fun armed => ?_) fun _ hc _ => hc.mono fun _ _ h => h.2
  refine Triple.bind (read_rule _) fun _ => Triple.when (fun _ => ?_) fun _ hc _ => hc.mono fun _ _ h => h.2
  refine Triple.bind (change_rule (B := Kept Wakes) _ ?_) fun _ => glance_rule fun _ => write_kept _ _
  rintro u' w ⟨rfl, held, wakes⟩
  exact ⟨⟨held.fits, held.queue, held.lost, held.rx, held.tx.flag armed⟩, wakes⟩

/-- The routine flags what it has to before it queues the deferred procedure. -/
theorem uartIsr_keeps : Triple (Assert reader Good) uartIsr (fun _ => Assert reader Good) E := by
  refine glance_rule fun u => Triple.ite (fun _ => pure_rule) fun _ => ?_
  refine Triple.bind (read_rule _) fun status => Triple.ite (fun _ => pure_rule) fun _ => ?_
  have forgets (c : Context Own) (hc : Assert reader Good c) : Assert reader (Kept fun _ => True) c :=
    hc.mono fun _ _ h => ⟨h.1, trivial⟩
  refine Triple.bind (Q := fun _ => Assert reader (Kept fun _ => True)) (Triple.when (fun _ => ?_) ?_) fun _ => ?_
  · exact (uartCapture_with fun _ _ _ _ _ => trivial).mono forgets (fun _ _ hc => hc) fun _ _ hc => hc
  · exact fun c hc _ => forgets c hc
  refine Triple.bind (write_kept _ _) fun _ => Triple.bind (flagReceive_with (G := fun u _ => Wakes u)
    (fun _ _ _ _ _ _ _ _ => rfl) fun _ _ _ none _ armed some => absurd (none armed) some) fun _ => ?_
  refine Triple.bind flagTransmit_flags fun _ => Triple.bind (read_rule _) fun _ => ?_
  refine look_rule fun u => Triple.bind (Triple.when (Q := fun _ => Assert reader Good) (fun _ => ?_) ?_) fun _ =>
    pure_rule
  · refine change_rule _ ?_
    rintro u' w ⟨-, held, wakes⟩
    exact ⟨⟨held.fits, held.queue, held.lost, held.rx, held.tx⟩, fun _ => .inl rfl, wakes⟩
  · refine fun _ hc none => hc.mono ?_
    rintro u' w ⟨rfl, held, wakes⟩
    exact ⟨held, fun pending => absurd (pending.imp id .inl) none, wakes⟩

theorem startDpc_keeps : Triple (Assert reader Good) (startDpc : Drive Unit) (fun _ => Assert reader Good) E :=
  change_rule _ fun _ _ h =>
    ⟨⟨h.1.fits, h.1.queue, h.1.lost, h.1.rx, h.1.tx⟩, fun _ => .inr (Nat.succ_pos _), h.2.wakes⟩

theorem uartDpc_keeps :
    Triple (Assert reader Good) (do
        enterDpc
        uartDpc : Drive Unit) (fun _ => Assert reader Good) E := by
  refine Triple.bind (change_rule (B := Kept Wakes) _ fun u w h => ?_) fun _ =>
    commitReady_with fun u _ waits h rx tx => ⟨fun pending => ?_, fun isOpen armed some => ?_⟩
  · exact ⟨⟨h.1.fits, h.1.queue, h.1.lost, h.1.rx, h.1.tx⟩, h.2.wakes⟩
  · rcases pending with yes | yes
    · exact absurd (rx.symm.trans yes) Bool.false_ne_true
    · exact absurd (tx.symm.trans yes) Bool.false_ne_true
  · revert armed
    change u.rx.commit.armed = true → u.rx.commit.pending = true
    unfold Notice.commit
    split
    · exact nofun
    · exact fun armed => h isOpen armed some

end Interrupts

/-! ### The other sections -/

section Sections

variable {E : Status → Context Own → Prop}

theorem uartOpen_keeps :
    Triple (Assert reader Good) uartOpen (fun _ => Assert reader Good) fun _ => Assert reader Good := by
  refine glance_rule fun u => Triple.bind (Quiet.require _ Awake steady_awake) fun _ => ?_
  refine Triple.bind (act_rule (B := Good) _ _ (fun _ _ _ => trivial) fun u w h => ?_) fun _ => ?_
  · exact ⟨⟨Ring.Fits.clear (by decide) _, Ring.contents_clear _ _, nofun, h.1.rx.drop, h.1.tx.drop⟩,
      fun pending => pending.elim nofun nofun, nofun⟩
  have rest : Quiet (do
      write uartLcrh 0
      write uartRsr 0
      uartProgram
      write uartIcr 0x7ff
      interruptMask) := .bind (.write _ _) fun _ => .bind (.write _ _) fun _ => .bind quiet_uartProgram fun _ =>
    .bind (.write _ _) fun _ => quiet_interruptMask
  exact rest Awake steady_awake

/-- A port that is closed. -/
def Shut (u : Uart) : Prop := u.isOpen = false ∧ Calls u

theorem steady_shut : Steady Shut := fun _ _ same h => ⟨same.isOpen.trans h.1, steady_calls same h.2⟩

theorem uartClose_keeps :
    Triple (Assert reader Good) uartClose (fun _ => Assert reader Good) fun _ => Assert reader Good := by
  refine Triple.bind (change_rule (B := Kept Shut) _ fun u w h => ?_) fun _ => ?_
  · exact ⟨⟨h.1.fits, h.1.queue, h.1.lost, h.1.rx, h.1.tx⟩, rfl, h.2.calls⟩
  have shut (c : Context Own) (hc : Assert reader (Kept Shut) c) : Assert reader Good c := hc.mono fun u _ h =>
    ⟨h.1, h.2.2, fun isOpen => absurd (h.2.1.symm.trans isOpen) Bool.false_ne_true⟩
  have ends : Quiet (change fun u : Uart => { u with waitMask := 0, events := 0 }) :=
    .change _ fun _ => ⟨rfl, rfl, rfl, rfl, rfl, id⟩
  refine Triple.mono (P := Assert reader (Kept Shut)) ?_ (fun _ hc => hc) (fun _ => shut) fun _ => shut
  refine Triple.bind (quiet_interruptMask Shut steady_shut) fun _ => Triple.bind (write_kept _ _) fun _ => ?_
  refine Triple.bind (read_rule _) fun _ => Triple.bind (clearRing_with (G := fun u _ => Shut u) fun _ _ h => h) fun _ => ?_
  exact ends Shut steady_shut

/-- The reader asks only while no notification is armed, so that none is missed. -/
theorem uartReceive_keeps (length : ℕ) :
    Triple (Assert reader (Kept fun u => u.rx.armed = false ∧ Calls u)) (uartReceive length)
      (fun _ => Assert reader Good) E := by
  refine Triple.mono (P := Assert reader (Kept fun u => u.rx.armed = false ∧ Calls u))
    (Q := fun _ => Assert reader (Kept fun u => u.rx.armed = false ∧ Calls u)) (glance_rule fun u => ?_) (fun _ hc => hc)
    (fun _ _ hc => hc.mono fun u _ h => ⟨h.1, h.2.2, fun _ armed => ?_⟩) fun _ _ hc => hc
  · refine Triple.when (fun _ => ?_) fun _ hc _ => hc
    exact Triple.bind (uartCapture_with fun _ _ _ _ h => h) fun _ => hand_with length fun _ _ h _ => h
  · exact absurd (h.2.1.symm.trans armed) Bool.false_ne_true

theorem uartRxEnable_keeps :
    Triple (Assert reader Good) (uartRxEnable : Drive Unit) (fun _ => Assert reader Good) E :=
  uartRxEnable_with (fun _ _ h empty => ⟨h.calls, fun _ _ some => absurd empty some⟩)
    fun _ _ _ _ => ⟨fun _ => .inl rfl, fun _ _ _ => rfl⟩

theorem uartRxCancel_keeps :
    Triple (Assert reader Good) (uartRxCancel : Drive Bool) (fun _ => Assert reader Good) E :=
  cancel_with .receive fun _ _ h => ⟨fun pending => h.calls (pending.imp nofun id), nofun⟩

theorem uartTxEnable_keeps :
    Triple (Assert reader Good) uartTxEnable (fun _ => Assert reader Good) fun _ => Assert reader Good := by
  refine Triple.bind (act_rule (B := Kept fun u => u.tx.armed = true ∧ Awake u) _ _ (fun _ _ _ => trivial)
    fun u w h => ?_) fun _ => ?_
  · exact ⟨⟨h.1.fits, h.1.queue, h.1.lost, h.1.rx, h.1.tx.arm⟩, rfl, h.2.calls, h.2.wakes⟩
  refine Triple.bind (read_rule _) fun _ => Triple.ite (fun _ => ?_) fun _ => ?_
  · refine Triple.bind (change_rule (B := Kept Wakes) _ fun u w h => ?_) fun _ => change_rule _ fun u w h => ?_
    · exact ⟨⟨h.1.fits, h.1.queue, h.1.lost, h.1.rx, h.1.tx.flag h.2.1⟩, h.2.2.wakes⟩
    · exact ⟨⟨h.1.fits, h.1.queue, h.1.lost, h.1.rx, h.1.tx⟩, fun _ => .inl rfl, h.2⟩
  · have quiet := quiet_interruptMask Awake steady_awake
    exact quiet.mono (fun _ hc => hc.mono fun _ _ h => ⟨h.1, h.2.2⟩) (fun _ _ hc => hc) fun _ _ hc => hc

theorem uartTxCancel_keeps :
    Triple (Assert reader Good) uartTxCancel (fun _ => Assert reader Good) fun _ => Assert reader Good :=
  Triple.bind (cancel_with .transmit fun _ _ h => ⟨fun pending => h.calls (pending.imp id nofun), h.wakes⟩) fun cancelled =>
    Quiet.bind quiet_interruptMask (fun _ => .pure cancelled) Awake steady_awake

/-- A purge, once it has captured, where the ring is cleared or nothing was missed. -/
theorem purgeFifos_keeps (rx tx : Bool) :
    Triple (Assert reader (Kept fun u => Calls u ∧ (rx = true ∨ Wakes u))) (purgeFifos rx tx)
      (fun _ => Assert reader Good) E := by
  refine Triple.bind (Q := fun _ => Assert reader (Kept fun u => Calls u ∧ (rx = true ∨ Wakes u))) ?_ fun _ => ?_
  · refine Triple.when (fun _ => glance_rule fun u => ?_) fun _ hc _ => hc
    exact Triple.bind (write_kept _ _) fun _ => Triple.bind (write_kept _ _) fun _ =>
      Triple.bind (write_kept _ _) fun _ => write_kept _ _
  refine Triple.bind (Q := fun _ => Assert reader Good) (Triple.when (fun _ => ?_) fun _ hc keep => ?_) fun _ => ?_
  · exact clearRing_with fun u _ h => ⟨h.1, fun _ _ some => absurd rfl some⟩
  · exact hc.mono fun _ _ h => ⟨h.1, h.2.1, h.2.2.resolve_left keep⟩
  · exact Triple.bind (write_kept _ _) fun _ => Triple.bind (write_kept _ _) fun _ =>
      Triple.bind (read_rule _) fun _ => pure_rule

/-- A purge of the other direction may take bytes only while no notification waits for them. -/
theorem uartPurge_keeps (rx tx : Bool) {c : Context Own} (good : Assert reader Good c)
    (awaited : rx = true ∨ c.state.rx.armed = false ∨ c.state.rx.pending = true ∨
      c.world.register c.clock uartFr &&& uartRxEmpty ≠ 0) :
    Triple (· = c) (uartPurge rx tx) (fun _ => Assert reader Good) E := by
  have captured {F : Uart → Prop} (apart : Apart F) (hf : F c.state) (enough : ∀ u, F u → rx = true ∨ Wakes u) :
      Triple (· = c) (uartPurge rx tx) (fun _ => Assert reader Good) E := by
    refine Triple.bind ((uartCapture_with (F := fun u => Calls u ∧ F u) fun u _ _ _ h => ?_).mono ?_ (fun _ _ hc => ?_)
      fun _ _ hc => hc) fun _ => purgeFifos_keeps rx tx
    · exact ⟨h.1, apart u _ _ _ h.2⟩
    · rintro _ rfl
      exact ⟨good.1, good.2.1, good.2.2.calls, hf⟩
    · exact hc.mono fun u _ h => ⟨h.1, h.2.1, enough u h.2.2⟩
  rcases awaited with clears | none | pending | empty
  · exact captured (F := fun _ => True) (fun _ _ _ _ _ => trivial) trivial fun _ _ => .inl clears
  · refine captured (F := fun u => u.rx.armed = false) (fun _ _ _ _ h => h) none fun u h => .inr fun _ armed => ?_
    exact absurd (h.symm.trans armed) Bool.false_ne_true
  · exact captured (F := fun u => u.rx.pending = true) (fun _ _ _ _ h => h) pending fun _ h => .inr fun _ _ _ => h
  · refine Triple.bind (uartCapture_empty good empty) fun _ => (purgeFifos_keeps rx tx).mono (fun _ hc => ?_)
      (fun _ _ hc => hc) fun _ _ hc => hc
    exact hc.mono fun _ _ h => ⟨h.1, h.2.calls, .inr h.2.wakes⟩

end Sections

end Pi5Drivers.Rp1Uart
