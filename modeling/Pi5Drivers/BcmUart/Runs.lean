import Pi5Drivers.BcmUart.Sections

/-! The BCM7271 serial port over whole runs. The sections come in any order, with any values of
the registers. The framework does not read while it waits for a notification, and it makes
the power transitions in their order. -/

namespace Pi5Drivers.BcmUart

open Serial Effect Recorded

/-! ### Runs -/

/-- The sections under the lock, the power transitions, and what the framework does between. -/
inductive Step
  | prepare
  | release
  | start
  | interruptEnable
  | interruptDisable
  | stop
  | restore
  | fileOpen
  | fileClose
  | stopQuirkTimer
  | apply (properties : Option UartDescriptor)
  | isr
  | startDpc
  | dpc
  | startQuirkTimer (delay : BitVec 32)
  | callReady (d : Direction) (k : ℕ)
  | callWait (events : BitVec 32)
  | receive (length : ℕ)
  | rxEnable
  | rxCancel
  | transmit (bytes : List UInt8)
  | txEnable
  | txCancel
  | fireTimer
  | quirkTimer
  | purge (rx tx : Bool)
  | wait (mask : BitVec 32)
  | control (code : Code)

/-- The framework calls what was queued, committed or set, and does not read while a receive
notification is armed. -/
def Step.Possible (u : Uart) : Step → Prop
  | prepare => u.own.power = .removed
  | release | start => u.own.power = .down
  | interruptEnable => u.own.power = .entered
  | interruptDisable => u.own.power = .running
  | stop => u.own.power = .disabled
  | restore => u.own.power = .stopped
  | stopQuirkTimer => 0 < u.own.timerStops
  | startDpc => u.dpcQueued = true
  | dpc => 0 < u.dpcStarted
  | startQuirkTimer delay => delay ∈ u.own.timerStarts
  | callReady d k => k ∈ (u.notice d).committed
  | callWait events => events ∈ u.waits
  | receive _ => u.rx.armed = false
  | fireTimer => u.timer = true
  | quirkTimer => 0 < u.timerStarted
  | _ => True

instance (u : Uart) : (e : Step) → Decidable (e.Possible u)
  | .prepare => inferInstanceAs (Decidable (u.own.power = .removed))
  | .release | .start => inferInstanceAs (Decidable (u.own.power = .down))
  | .interruptEnable => inferInstanceAs (Decidable (u.own.power = .entered))
  | .interruptDisable => inferInstanceAs (Decidable (u.own.power = .running))
  | .stop => inferInstanceAs (Decidable (u.own.power = .disabled))
  | .restore => inferInstanceAs (Decidable (u.own.power = .stopped))
  | .stopQuirkTimer => inferInstanceAs (Decidable (0 < u.own.timerStops))
  | .startDpc => inferInstanceAs (Decidable (u.dpcQueued = true))
  | .dpc => inferInstanceAs (Decidable (0 < u.dpcStarted))
  | .startQuirkTimer delay => inferInstanceAs (Decidable (delay ∈ u.own.timerStarts))
  | .callReady d k => inferInstanceAs (Decidable (k ∈ (u.notice d).committed))
  | .callWait events => inferInstanceAs (Decidable (events ∈ u.waits))
  | .receive _ => inferInstanceAs (Decidable (u.rx.armed = false))
  | .fireTimer => inferInstanceAs (Decidable (u.timer = true))
  | .quirkTimer => inferInstanceAs (Decidable (0 < u.timerStarted))
  | .fileOpen | .fileClose | .apply _ | .isr | .rxEnable | .rxCancel | .transmit _ | .txEnable | .txCancel | .purge ..
  | .wait _ | .control _ => inferInstanceAs (Decidable True)

def ignore {α : Type} (x : Drive α) : Drive Unit := do
  let _ ← x
  pure ()

def Step.effect : Step → Drive Unit
  | prepare => uartPrepare
  | release => setPower .removed
  | start => uartStart
  | interruptEnable => uartInterruptEnable
  | interruptDisable => uartInterruptDisable
  | stop => uartStop
  | restore => uartRestore
  | fileOpen => uartOpen
  | fileClose => uartClose
  | stopQuirkTimer => BcmUart.stopQuirkTimer
  | apply properties => uartApply properties
  | isr => ignore uartIsr
  | startDpc => Serial.startDpc
  | dpc => do
    enterDpc
    uartDpc
  | startQuirkTimer delay => BcmUart.startQuirkTimer delay
  | callReady d k => Serial.callReady d k
  | callWait events => Serial.callWait events
  | receive length => uartReceive length
  | rxEnable => uartRxEnable
  | rxCancel => ignore uartRxCancel
  | transmit bytes => uartTransmit bytes
  | txEnable => uartTxEnable
  | txCancel => ignore uartTxCancel
  | fireTimer => Serial.fireTimer
  | quirkTimer => do
    enterTimer
    uartQuirkTimer
  | purge rx tx => uartPurge rx tx
  | wait mask => uartWait mask
  | control code => ignore (uartControl code)

/-- The context of a device that is added. -/
def added : Uart where
  clockHz := 0
  baud := 115200
  line := 3
  control := 0x2a
  mask := 0
  waitMask := 0
  events := 0
  errors := 0
  ring := ⟨fun _ => 0, 0, 0, 0⟩
  flow := Handflow.zero
  chars := Chars.zero
  boot _ := 0
  online := false
  isOpen := false
  rx := ⟨false, false, 0, []⟩
  tx := ⟨false, false, 0, []⟩
  own := ⟨false, false, false, [], 0, .removed⟩
  dpcQueued := false
  dpcStarted := 0
  waits := []
  timer := false
  timerStarted := 0

def system (world : World) : System (Context Own) Step where
  init := ⟨world, 0, added, []⟩
  next c e := if e.Possible c.state then some (e.effect.run c).2 else none

/-- A port is closed only while it is not paused. The timer is stopped after a close, or expires
while the port is not online, only if something else ends the quirk. -/
def Step.Careful (u : Uart) : Step → Prop
  | fileClose => u.own.rxPaused = false
  | stopQuirkTimer => Ends { u with timer := false }
  | quirkTimer => u.online = true ∨ Ends { u with timerStarted := u.timerStarted - 1 }
  | _ => True

section Runs

variable {world : World} {c c' : Context Own}

theorem ignore_keeps {α : Type} {x : Drive α} (h : Triple (Assert reader Good) x (fun _ => Assert reader Good)
    fun _ => Assert reader Good) :
    Triple (Assert reader Good) (ignore x) (fun _ => Assert reader Good) fun _ => Assert reader Good :=
  Triple.bind h fun _ => pure_rule

/-- Every section keeps what holds between the sections. -/
theorem Step.keeps {e : Step} (good : Assert reader Good c) (possible : e.Possible c.state) (careful : e.Careful c.state) :
    Triple (· = c) e.effect (fun _ => Assert reader Good) fun _ => Assert reader Good := by
  have keeps {x : Drive Unit} (h : Triple (Assert reader Good) x (fun _ => Assert reader Good)
      fun _ => Assert reader Good) : Triple (· = c) x (fun _ => Assert reader Good) fun _ => Assert reader Good :=
    h.mono (fun _ eq => eq ▸ good) (fun _ _ hc => hc) fun _ _ hc => hc
  have told {x : Drive Unit} {R : Uart → Prop} (h : Triple (Assert reader (Ready R)) x (fun _ => Assert reader Good)
      fun _ => Assert reader Good) (hr : R c.state) :
      Triple (· = c) x (fun _ => Assert reader Good) fun _ => Assert reader Good :=
    h.mono (fun _ eq => eq ▸ ⟨good.1, good.2.1, good.2.2.1, hr⟩) (fun _ _ hc => hc) fun _ _ hc => hc
  have owes : Owes c.state := good.2.2.2
  cases e with
  | prepare => exact told uartPrepare_keeps ⟨possible, owes⟩
  | release =>
    refine (setPower_keeps .down (by decide) (by decide) (by decide)).mono (fun _ eq => ?_) (fun _ _ hc => hc)
      fun _ _ hc => hc
    exact eq ▸ ⟨good.1, good.2.1, good.2.2.1.1, possible, owes⟩
  | start => exact told uartStart_keeps ⟨possible, owes⟩
  | interruptEnable => exact told uartInterruptEnable_keeps ⟨possible, owes⟩
  | interruptDisable => exact told uartInterruptDisable_keeps ⟨possible, owes⟩
  | stop => exact told uartStop_keeps ⟨possible, owes⟩
  | restore => exact told uartRestore_keeps ⟨possible, owes⟩
  | fileOpen => exact keeps uartOpen_keeps
  | fileClose => exact told uartClose_keeps ⟨careful, owes⟩
  | stopQuirkTimer => exact told stopQuirkTimer_keeps ⟨careful, owes⟩
  | apply properties => exact keeps (uartApply_keeps properties)
  | isr => exact keeps (ignore_keeps uartIsr_keeps)
  | startDpc => exact keeps startDpc_keeps
  | dpc => exact keeps uartDpc_keeps
  | startQuirkTimer delay => exact keeps (startQuirkTimer_keeps delay)
  | callReady d k =>
    refine told (R := fun u => k ∈ (u.notice d).committed ∧ Owes u) (callReady_with d k (fun _ _ h => h.2.1) fun u _ h => ?_)
      ⟨possible, owes⟩
    cases d <;> exact ⟨h.1, h.2.2⟩
  | callWait events => exact keeps (callWait_with events fun _ _ _ h => h)
  | receive length => exact told (uartReceive_keeps length) ⟨possible, owes⟩
  | rxEnable => exact keeps uartRxEnable_keeps
  | rxCancel => exact keeps (ignore_keeps uartRxCancel_keeps)
  | transmit bytes => exact keeps (uartTransmit_keeps bytes)
  | txEnable => exact keeps uartTxEnable_keeps
  | txCancel => exact keeps (ignore_keeps uartTxCancel_keeps)
  | fireTimer => exact keeps fireTimer_keeps
  | quirkTimer => exact told uartQuirkTimer_keeps ⟨careful, owes⟩
  | purge rx tx => exact keeps (uartPurge_keeps rx tx)
  | wait mask =>
    refine keeps (Triple.bind (Q := fun _ => Assert reader Good) (Triple.require (fun _ hc _ => hc) fun _ hc _ => hc) fun _ => ?_)
    exact change_with _ (fun _ => ⟨rfl, rfl, rfl, rfl⟩) fun _ _ h => h
  | control code => exact keeps (ignore_keeps (uartControl_keeps code))

theorem owes_added : Owes added :=
  ⟨⟨⟨by decide, fun there => absurd rfl there⟩, Nat.zero_le _, nofun, nofun⟩, nofun, nofun,
    fun pending => pending.elim nofun (Or.rec nofun nofun), nofun⟩

theorem good_init : Assert reader Good (system world).init :=
  ⟨trivial, ⟨⟨rfl, (by decide : 0 < ringSize), Nat.zero_le _⟩, rfl, nofun, ⟨rfl, nofun, nofun, nofun, .nil, nofun, .nil⟩,
    ⟨rfl, nofun, nofun, nofun, .nil, nofun, .nil⟩⟩, ⟨(by decide : (0 : BitVec 32) &&& 0x80 = 0), nofun⟩, owes_added⟩

theorem good_of_reaches (h : (system world).Reaches (fun c e => e.Careful c.state) c) : Assert reader Good c := by
  refine h.invariant (I := Assert reader Good) good_init fun {c c'} e good careful next => ?_
  obtain ⟨possible, result⟩ := Option.ite_none_right_eq_some.mp next
  cases result
  have := Step.keeps good possible careful rfl
  rcases run : e.effect.run c with ⟨_ | _, c'⟩ <;> rw [run] at this <;> exact this

end Runs

/-! ### A paused port that is closed -/

/-- A byte is always there. -/
def flooding : World where
  register _ offset := if offset = uartLsr then uartRxReady else if offset = uartIir then 4 else 0
  retrieve _ := .ok ()
  resources _ := .ok ()
  clock _ := .ok 81000000
  route _ := .ok ()

/-- A port that was opened in such a world, with so many bytes. -/
structure Filled (n : ℕ) (paused : Bool) (c : Context Own) : Prop where
  world : c.world = flooding
  on : c.state.online = true ∧ c.state.isOpen = true
  idle : c.state.rx.armed = false
  count : c.state.ring.count = n
  paused : c.state.own.rxPaused = paused

section Flood

variable {n : ℕ} {paused : Bool} {E : Status → Context Own → Prop}

theorem takeBytes_fills (k : ℕ) (room : n + k ≤ highWater) :
    Triple (Filled n paused) (takeBytes k) (fun _ => Filled (n + k) paused) E := by
  induction k generalizing n with
  | zero => exact Triple.pure fun _ h => h
  | succ k ih =>
    refine look_bind fun c h => Triple.mono (P := Filled n paused) (Triple.when (fun _ => ?_) fun c' h' no => ?_)
      (fun _ eq => eq ▸ h) (fun _ _ h => h) fun _ _ h => h
    · refine Triple.bind (Q := fun state c => state = uartRxReady ∧ Filled n paused c) ?_ fun state => Triple.assume fun ready => ?_
      · exact fun c h => ⟨congrArg (fun world : World => world.register c.clock uartLsr) h.world,
          h.world, h.on, h.idle, h.count, h.paused⟩
      refine Triple.bind (Q := fun _ => Filled n paused) (Triple.modify fun c h => ⟨h.world, h.on, h.idle, h.count, h.paused⟩)
        fun _ => Triple.when (fun _ => ?_) fun _ _ no => absurd (ready ▸ (by decide : uartRxReady &&& uartRxReady ≠ 0)) no
      refine Triple.bind (Q := fun _ => Filled n paused) (fun _ h => ⟨h.world, h.on, h.idle, h.count, h.paused⟩) fun data => ?_
      refine Triple.bind (Q := fun _ => Filled (n + 1) paused) (Triple.bind (Q := fun _ => Filled n paused)
        (Triple.modify fun c h => ⟨h.world, h.on, h.idle, h.count, h.paused⟩) fun _ => Triple.modify fun c h =>
          ⟨h.world, h.on, h.idle, congrArg (· + 1) h.count, h.paused⟩) fun _ => ?_
      rw [← Nat.add_assoc, Nat.add_right_comm]
      exact ih (by omega)
    · exact absurd (h.count ▸ (by omega : n < highWater)) no

theorem write_fills (offset : ℕ) (value : BitVec 32) :
    Triple (Filled n paused) (write offset value) (fun _ => Filled n paused) E :=
  Triple.modify fun _ h => ⟨h.world, h.on, h.idle, h.count, h.paused⟩

theorem uartInterruptMask_fills : Triple (Filled n paused) uartInterruptMask (fun _ => Filled n paused) E := by
  refine Triple.bind (Q := fun _ => Filled n paused) (Triple.modify fun _ h => ⟨h.world, h.on, h.idle, h.count, h.paused⟩)
    fun _ => look_bind fun c h => ?_
  refine Triple.mono (P := Filled n paused) ?_ (fun _ eq => eq ▸ h) (fun _ _ h => h) fun _ _ h => h
  refine Triple.bind (write_fills _ _) fun _ => Triple.bind (write_fills _ _) fun _ => ?_
  exact Triple.bind (Q := fun _ => Filled n paused) (fun _ h => ⟨h.world, h.on, h.idle, h.count, h.paused⟩) fun _ =>
    Triple.pure fun _ h => h

theorem pause_fills : Triple (Filled n false) pause (fun _ => Filled n (decide (highWater ≤ n))) E := by
  refine look_bind fun c h => Triple.when (fun full => ?_) fun _ eq few => ?_
  · refine Triple.bind (Q := fun _ => Filled n true) (Triple.modify fun _ eq => ?_) fun _ => ?_
    · exact eq ▸ ⟨h.world, h.on, h.idle, h.count, rfl⟩
    · rw [decide_eq_true (h.count ▸ full.1)]
      exact uartInterruptMask_fills
  · have few : ¬highWater ≤ n := fun full => few ⟨h.count.symm ▸ full, h.paused⟩
    rw [decide_eq_false few]
    exact eq ▸ h

/-- A reader with no room takes nothing, but the ring fills. -/
theorem uartReceive_fills (room : n + 64 ≤ highWater) :
    Triple (Filled n false) (uartReceive 0) (fun _ => Filled (n + 64) (decide (highWater ≤ n + 64))) E := by
  refine look_bind fun c h => Triple.mono (P := Filled n false) (Triple.when (fun _ => ?_) fun _ _ off => absurd (h.on) off)
    (fun _ eq => eq ▸ h) (fun _ _ h => h) fun _ _ h => h
  refine Triple.bind (Triple.bind (takeBytes_fills 64 room) fun _ => Triple.bind pause_fills fun _ => Triple.modify fun c h => ?_)
    fun _ => Triple.bind (Triple.pure fun _ h => h) fun _ => look_bind fun c h => Triple.when (fun few => ?_) fun _ eq _ => eq ▸ h
  · by_cases none : c.state.errors = 0
    · simpa only [if_pos none] using h
    · simp only [if_neg none]
      exact ⟨h.world, h.on, h.idle, h.count, h.paused⟩
  · have full : highWater ≤ n + 64 := of_decide_eq_true (h.paused.symm.trans few.1)
    have some : n + 64 < lowWater := h.count ▸ few.2
    exact absurd (full.trans_lt some) (by decide)

/-- The rest of a closed port is forgotten, but not that it was paused. -/
theorem uartClose_fills :
    Triple (Filled n paused) uartClose (fun _ c => c.state.own.rxPaused = paused ∧ c.state.ring.count = 0) E :=
  fun _ h => ⟨h.paused, rfl⟩

/-- The steps that open a port. -/
def opens : List Step := [.prepare, .start, .interruptEnable, .fileOpen]

theorem opens_run : ((system flooding).runFrom (system flooding).init opens).isSome = true := by decide

theorem filled_opens : ∃ c, (system flooding).Reachable c ∧ Filled 0 false c := by
  refine ⟨_, System.reachable_of_run (l := opens) (Option.some_get opens_run).symm, rfl, ?_, ?_, ?_, ?_⟩
  all_goals decide

theorem filled_reachable (k : ℕ) (room : 64 * k ≤ highWater) :
    ∃ c, (system flooding).Reachable c ∧ Filled (64 * k) (decide (highWater ≤ 64 * k)) c := by
  induction k with
  | zero => exact filled_opens
  | succ k ih =>
    obtain ⟨c, reach, filled⟩ := ih (by omega)
    rw [decide_eq_false (by omega)] at filled
    have := uartReceive_fills (E := fun _ _ => False) (by omega : 64 * k + 64 ≤ highWater) filled
    rcases run : (uartReceive 0).run c with ⟨_ | _, t⟩ <;> rw [run] at this
    · exact this.elim
    · refine ⟨t, System.Reachable.step (.receive 0) reach ?_, this⟩
      exact (if_pos filled.idle).trans (congrArg (fun r => some r.2) run)

end Flood

/-- A receive timeout is always pending, and there is never a byte. -/
def timingOut : World := { flooding with register := fun _ offset => if offset = uartIir then 12 else 0 }

/-- The file is closed and opened again, and the quirk is entered before the close stops the timer. -/
def reopens : List Step :=
  opens ++ [.fileClose, .fileOpen, .isr, .startDpc, .dpc, .startQuirkTimer 1, .stopQuirkTimer]

instance (u : Uart) : Decidable (Ends u) := inferInstanceAs (Decidable (_ → _))

instance (u : Uart) : (e : Step) → Decidable (e.Careful u)
  | .fileClose => inferInstanceAs (Decidable (u.own.rxPaused = false))
  | .stopQuirkTimer => inferInstanceAs (Decidable (Ends { u with timer := false }))
  | .quirkTimer => inferInstanceAs (Decidable (u.online = true ∨ Ends { u with timerStarted := u.timerStarted - 1 }))
  | .prepare | .release | .start | .interruptEnable | .interruptDisable | .stop | .restore | .fileOpen | .apply _ | .isr
  | .startDpc | .dpc | .startQuirkTimer _ | .callReady .. | .callWait _ | .receive _ | .rxEnable | .rxCancel | .transmit _
  | .txEnable | .txCancel | .fireTimer | .purge .. | .wait _ | .control _ => inferInstanceAs (Decidable True)

/-- The quirk is entered and ended by its timer, twice, and the port is closed in between. -/
def ended : List Step :=
  opens ++ [.rxEnable, .isr, .startDpc, .dpc, .startQuirkTimer 1, .fireTimer, .quirkTimer, .isr, .fileClose, .stopQuirkTimer,
    .fileOpen, .isr, .startDpc, .dpc]

end Pi5Drivers.BcmUart
