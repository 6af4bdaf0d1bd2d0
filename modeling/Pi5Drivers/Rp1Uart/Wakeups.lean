import Pi5Drivers.Rp1Uart.Sections

/-! The RP1 serial port over whole runs. The sections come in any order, with any values of
the registers, but the framework does not read while it waits for a notification. -/

namespace Pi5Drivers.Rp1Uart

open Serial Effect Recorded

/-! ### Runs -/

/-- The sections under the lock, and what the framework does between them. The calls that
start and stop the timer after a section may come at any time. -/
inductive Step
  | prepare (uid : BitVec 32)
  | start
  | stop
  | restore
  | interruptEnable
  | interruptDisable
  | fileOpen
  | fileClose
  | isr
  | startDpc
  | dpc
  | callReady (d : Direction) (k : ℕ)
  | callWait (events : BitVec 32)
  | receive (length : ℕ)
  | rxEnable
  | rxCancel
  | transmit (bytes : List UInt8)
  | txEnable
  | txCancel
  | drain
  | drainCancel
  | txPurge
  | startTimer
  | stopTimer
  | fireTimer
  | drainTimer
  | purge (rx tx : Bool)
  | wait (mask : BitVec 32)
  | control (code : Code)

/-- The framework calls what was queued or committed, and does not read while a receive
notification is armed. -/
def Step.Possible (u : Uart) : Step → Prop
  | startDpc => u.dpcQueued = true
  | dpc => 0 < u.dpcStarted
  | callReady d k => k ∈ (u.notice d).committed
  | callWait events => events ∈ u.waits
  | receive _ => u.rx.armed = false
  | fireTimer => u.timer = true
  | drainTimer => 0 < u.timerStarted
  | _ => True

instance (u : Uart) : (e : Step) → Decidable (e.Possible u)
  | .startDpc => inferInstanceAs (Decidable (u.dpcQueued = true))
  | .dpc => inferInstanceAs (Decidable (0 < u.dpcStarted))
  | .callReady d k => inferInstanceAs (Decidable (k ∈ (u.notice d).committed))
  | .callWait events => inferInstanceAs (Decidable (events ∈ u.waits))
  | .receive _ => inferInstanceAs (Decidable (u.rx.armed = false))
  | .fireTimer => inferInstanceAs (Decidable (u.timer = true))
  | .drainTimer => inferInstanceAs (Decidable (0 < u.timerStarted))
  | .prepare _ | .start | .stop | .restore | .interruptEnable | .interruptDisable | .fileOpen | .fileClose | .isr
  | .rxEnable | .rxCancel | .transmit _ | .txEnable | .txCancel | .drain | .drainCancel | .txPurge | .startTimer
  | .stopTimer | .purge .. | .wait _ | .control _ => inferInstanceAs (Decidable True)

def ignore {α : Type} (x : Drive α) : Drive Unit := do
  let _ ← x
  pure ()

def Step.effect : Step → Drive Unit
  | prepare uid => uartPrepare uid
  | start => uartStart
  | stop => uartStop
  | restore => uartRestore
  | interruptEnable => uartInterruptEnable
  | interruptDisable => uartInterruptDisable
  | fileOpen => uartOpen
  | fileClose => uartClose
  | isr => ignore uartIsr
  | startDpc => Serial.startDpc
  | dpc => do
    enterDpc
    uartDpc
  | callReady d k => Serial.callReady d k
  | callWait events => Serial.callWait events
  | receive length => uartReceive length
  | rxEnable => uartRxEnable
  | rxCancel => ignore uartRxCancel
  | transmit bytes => uartTransmit bytes
  | txEnable => uartTxEnable
  | txCancel => ignore uartTxCancel
  | drain => uartDrain
  | drainCancel => ignore uartDrainCancel
  | txPurge => uartTxPurge
  | startTimer => Serial.startTimer
  | stopTimer => Serial.stopTimer
  | fireTimer => Serial.fireTimer
  | drainTimer => do
    enterTimer
    ignore uartDrainTimer
  | purge rx tx => uartPurge rx tx
  | wait mask => uartWait mask
  | control code => ignore (uartControl code)

/-- The context of a device that is added. -/
def added : Uart where
  clockHz := 0
  baud := 115200
  line := 0x70
  control := 0x301
  mask := 0
  waitMask := 0
  events := 0
  errors := 0
  ring := ⟨fun _ => 0, 0, 0, 0⟩
  flow := Handflow.zero
  chars := Chars.zero
  boot _ := 0
  online := false
  isOpen := false
  rx := ⟨false, false, 0, []⟩
  tx := ⟨false, false, 0, []⟩
  own := ⟨0, false, false⟩
  dpcQueued := false
  dpcStarted := 0
  waits := []
  timer := false
  timerStarted := 0

def system (world : World) : System (Context Own) Step where
  init := ⟨world, 0, added, []⟩
  next c e := if e.Possible c.state then some (e.effect.run c).2 else none

/-- A purge that leaves the received bytes alone comes only while the FIFO is empty, or while no
receive notification is armed that is not pending. -/
def Step.Awaited (c : Context Own) : Step → Prop
  | purge rx _ => rx = true ∨ c.state.rx.armed = false ∨ c.state.rx.pending = true ∨
      c.world.register c.clock uartFr &&& uartRxEmpty ≠ 0
  | _ => True

section Runs

variable {world : World} {c c' : Context Own} {F : Uart → Prop}

theorem ignore_with {α : Type} {x : Drive α} (h : Triple (Assert reader Good) x (fun _ => Assert reader Good)
    fun _ => Assert reader Good) :
    Triple (Assert reader Good) (ignore x) (fun _ => Assert reader Good) fun _ => Assert reader Good :=
  Triple.bind h fun _ => pure_rule

/-- Every section keeps what a port owes, if only the purge does not take bytes behind an armed
notification. -/
theorem Step.keeps {e : Step} (good : Assert reader Good c) (possible : e.Possible c.state) (awaited : e.Awaited c) :
    Triple (· = c) e.effect (fun _ => Assert reader Good) fun _ => Assert reader Good := by
  have keeps {x : Drive Unit} (h : Triple (Assert reader Good) x (fun _ => Assert reader Good)
      fun _ => Assert reader Good) : Triple (· = c) x (fun _ => Assert reader Good) fun _ => Assert reader Good :=
    h.mono (fun _ eq => eq ▸ good) (fun _ _ hc => hc) fun _ _ hc => hc
  have quiet {x : Drive Unit} (h : Quiet x) := keeps (h Awake steady_awake)
  cases e with
  | prepare uid => exact quiet (quiet_uartPrepare uid)
  | start => exact quiet quiet_uartStart
  | stop => exact quiet quiet_uartStop
  | restore => exact quiet quiet_uartRestore
  | interruptEnable => exact quiet quiet_uartInterruptEnable
  | interruptDisable => exact quiet quiet_uartInterruptDisable
  | fileOpen => exact keeps uartOpen_keeps
  | fileClose => exact keeps uartClose_keeps
  | isr => exact keeps (ignore_with uartIsr_keeps)
  | startDpc => exact keeps startDpc_keeps
  | dpc => exact keeps uartDpc_keeps
  | callReady d k =>
    refine (callReady_with (F := fun u _ => k ∈ (u.notice d).committed ∧ Awake u) (G := fun u _ => Awake u) d k
      (fun _ _ h => h.1) fun u _ h => ?_).mono ?_ (fun _ _ hc => hc) fun _ _ hc => hc
    · cases d <;> exact ⟨h.2.calls, h.2.wakes⟩
    · rintro _ rfl
      exact ⟨good.1, good.2.1, possible, good.2.2⟩
  | callWait events =>
    exact keeps (callWait_with events fun _ _ _ h => ⟨h.calls, h.wakes⟩)
  | receive length =>
    refine (uartReceive_keeps length).mono ?_ (fun _ _ hc => hc) fun _ _ hc => hc
    rintro _ rfl
    exact ⟨good.1, good.2.1, possible, good.2.2.calls⟩
  | rxEnable => exact keeps uartRxEnable_keeps
  | rxCancel => exact keeps (ignore_with uartRxCancel_keeps)
  | transmit bytes => exact quiet (quiet_uartTransmit bytes)
  | txEnable => exact keeps uartTxEnable_keeps
  | txCancel => exact keeps (ignore_with uartTxCancel_keeps)
  | drain => exact quiet (x := uartDrain) (.change _ fun _ => ⟨rfl, rfl, rfl, rfl, rfl, id⟩)
  | txPurge => exact quiet (x := uartTxPurge) (.change _ fun _ => ⟨rfl, rfl, rfl, rfl, rfl, id⟩)
  | startTimer => exact quiet (x := Serial.startTimer) (.change _ fun _ => ⟨rfl, rfl, rfl, rfl, rfl, id⟩)
  | stopTimer => exact quiet (x := Serial.stopTimer) (.change _ fun _ => ⟨rfl, rfl, rfl, rfl, rfl, id⟩)
  | fireTimer => exact quiet (x := Serial.fireTimer) (.change _ fun _ => ⟨rfl, rfl, rfl, rfl, rfl, id⟩)
  | drainCancel =>
    have : Quiet uartDrainCancel := .look fun _ => .bind (.change _ fun _ => ⟨rfl, rfl, rfl, rfl, rfl, id⟩) fun _ => .pure _
    exact quiet (.bind this fun _ => .pure _)
  | drainTimer =>
    exact quiet (.bind (.change _ fun _ => ⟨rfl, rfl, rfl, rfl, rfl, id⟩) fun _ => .bind quiet_uartDrainTimer fun _ => .pure _)
  | purge rx tx => exact uartPurge_keeps rx tx good awaited
  | wait mask => exact quiet (quiet_uartWait mask)
  | control code => exact keeps (ignore_with (uartControl_with code steady_awake fun _ h => ⟨h.calls, h.wakes⟩))

theorem good_of_reaches (h : (system world).Reaches (fun c e => e.Awaited c) c) : Assert reader Good c := by
  refine h.invariant (I := Assert reader Good) ?_ fun {c c'} e good awaited next => ?_
  · exact ⟨trivial, ⟨⟨rfl, (by decide : 0 < ringSize), Nat.zero_le _⟩, rfl, nofun, ⟨rfl, nofun, nofun, nofun, .nil, nofun, .nil⟩,
      ⟨rfl, nofun, nofun, nofun, .nil, nofun, .nil⟩⟩, fun pending => pending.elim nofun nofun, nofun⟩
  · obtain ⟨possible, result⟩ := Option.ite_none_right_eq_some.mp next
    cases result
    have := Step.keeps good possible awaited rfl
    rcases run : e.effect.run c with ⟨_ | _, c'⟩ <;> rw [run] at this <;> exact this

/-- Where a port is open and a receive notification is armed while bytes wait, the notification is
pending and the deferred procedure is still to run, if no purge that leaves the received bytes
alone took some behind an armed notification. No notification is answered twice, the bytes are
handed on in the order in which they were taken, and a byte that was dropped is flagged until
it was reported. -/
theorem wakeups_kept (h : (system world).Reaches (fun c e => e.Awaited c) c) :
    (c.state.isOpen = true → c.state.rx.armed = true → c.state.ring.count ≠ 0 →
      c.state.rx.pending = true ∧ c.state.Due) ∧
    (∀ d, (answers d c.trace).Nodup) ∧
    reader.InOrder c.trace ∧ (reader.watch c.trace).queue = c.state.ring.contents ringSize ∧
    ((reader.watch c.trace).lost = true → c.state.errors &&& serialErrorQueueoverrun ≠ 0) := by
  obtain ⟨order, held, awake⟩ := good_of_reaches h
  refine ⟨fun isOpen armed some => ?_, held.nodup_answers, order, held.queue.symm, held.lost⟩
  have pending := awake.wakes isOpen armed some
  exact ⟨pending, awake.calls (.inl pending)⟩

end Runs

/-- A byte lies in the FIFO at the times that are given. -/
def arriving (times : List ℕ) : World where
  register time offset :=
    if offset = uartFr then (if time ∈ times then 0 else uartRxEmpty)
    else if offset = uartMis then uartRxIrq
    else 0x41
  retrieve _ := .ok ()
  resources _ := .ok ()
  clock _ := .ok 100000000
  route _ := .ok ()

/-- A byte is received, its notification is called back, the byte is read, and the next
notification is cancelled before a purge. -/
def wakeRun : List Step :=
  [.interruptEnable, .fileOpen, .rxEnable, .isr, .startDpc, .dpc, .callReady .receive 0, .receive 4, .rxEnable, .rxCancel,
    .purge false false]

instance (c : Context Own) : (e : Step) → Decidable (e.Awaited c)
  | .purge rx _ => inferInstanceAs (Decidable (rx = true ∨ c.state.rx.armed = false ∨ c.state.rx.pending = true ∨
      c.world.register c.clock uartFr &&& uartRxEmpty ≠ 0))
  | .prepare _ | .start | .stop | .restore | .interruptEnable | .interruptDisable | .fileOpen | .fileClose | .isr
  | .startDpc | .dpc | .callReady .. | .callWait _ | .receive _ | .rxEnable | .rxCancel | .transmit _ | .txEnable
  | .txCancel | .drain | .drainCancel | .txPurge | .startTimer | .stopTimer | .fireTimer | .drainTimer | .wait _
  | .control _ => inferInstanceAs (Decidable True)

theorem wakeRun_kept : ∃ c, (system (arriving [4])).runWhile (fun c e => e.Awaited c)
      (system (arriving [4])).init wakeRun = some c ∧
    (.handed 0x41 ∈ c.trace ∧ answers .receive c.trace = [1, 0]) ∧ reader.InOrder c.trace := by
  have run : ((system (arriving [4])).runWhile (fun c e => e.Awaited c) (system (arriving [4])).init wakeRun).any fun c =>
      decide (Event.handed 0x41 ∈ c.trace ∧ answers .receive c.trace = [1, 0]) := by decide +kernel
  obtain ⟨c, result, good⟩ := (Option.any_eq_true _ _).mp run
  exact ⟨c, result, of_decide_eq_true good, (wakeups_kept (System.Reaches.runWhile .init result)).2.2.1⟩

/-- A purge of the transmitter takes a byte, clears the interrupt, and leaves the reader waiting. -/
theorem purge_strands : ∃ c, (system (arriving [3])).Reachable c ∧
    c.state.isOpen = true ∧ c.state.rx.armed = true ∧ c.state.ring.count ≠ 0 ∧ c.state.rx.pending = false ∧
    ¬c.state.Due := by
  have run : ((system (arriving [3])).runFrom (system (arriving [3])).init
      [.interruptEnable, .fileOpen, .rxEnable, .purge false true]).any fun c =>
      c.state.isOpen = true ∧ c.state.rx.armed = true ∧ c.state.ring.count ≠ 0 ∧ c.state.rx.pending = false ∧
        c.state.dpcQueued = false ∧ c.state.dpcStarted = 0 := by decide +kernel
  obtain ⟨c, result, good⟩ := (Option.any_eq_true _ _).mp run
  obtain ⟨isOpen, armed, some, none, queued, started⟩ := of_decide_eq_true good
  refine ⟨c, System.reachable_of_run result, isOpen, armed, some, none, fun due => ?_⟩
  exact due.elim (fun yes => absurd (queued.symm.trans yes) Bool.false_ne_true) fun pos => absurd started pos.ne'

end Pi5Drivers.Rp1Uart
