import Pi5Drivers.Ethernet.Interrupts

/-! What holds of the interrupt in every run: work that arrives is noticed, and a status
that was acknowledged is taken unless a deferred procedure leaves it to one that has
already taken what there was. -/

namespace Pi5Drivers.Ethernet

namespace Line

variable {l : Line}

/-- A deferred procedure is due. -/
def Due (l : Line) : Prop := 0 < l.queued ∨ 0 < l.entering ∨ 0 < l.continued

instance (l : Line) : Decidable l.Due := inferInstanceAs (Decidable (_ ∨ _))

/-- The adapter runs with a link, and its interrupt is wanted. -/
def Live (l : Line) : Prop := l.running = true ∧ l.speed ≠ 0 ∧ l.irqSuppressed = false ∧ l.surpriseRemoved = false

instance (l : Line) : Decidable l.Live := inferInstanceAs (Decidable (_ ∧ _))

/-- New work raises an interrupt, or a deferred procedure sees to it. -/
def Attended (l : Line) : Prop := l.Live → l.enabled = true ∨ l.Due ∨ l.dpcActive = true

/-- What was acknowledged will be taken. -/
def Heeded (l : Line) : Prop := l.Live → l.irqPending ≠ 0 → l.Due

/-! ### The invariant -/

structure Sound (l : Line) : Prop where
  running : l.irqRunning = true ↔ l.running = true ∧ l.speed ≠ 0 ∧ l.surpriseRemoved = false
  armed : l.irqRunning = true → l.irqDeferred = false → l.irqSuppressed = false → l.enabled = true
  deferred : l.irqRunning = true → l.irqDeferred = true → l.Due ∨ l.dpcActive = true

/-- What was acknowledged while the interrupt is live will be taken. -/
def Taken (l : Line) : Prop := l.irqRunning = true → l.irqPending ≠ 0 → l.Due

/-- The deferred procedure that gets the lock does not leave what was acknowledged behind. -/
def Careful (l : Line) : Signal → Prop
  | .enterDpc _ => l.dpcActive = true → l.irqPending ≠ 0 → 0 < l.queued ∨ 1 < l.entering ∨ 0 < l.continued
  | _ => True

theorem Sound.attended (h : l.Sound) : l.Attended := by
  rintro ⟨running, speed, wanted, present⟩
  have live := h.running.mpr ⟨running, speed, present⟩
  cases deferred : l.irqDeferred with
  | false => exact .inl (h.armed live deferred wanted)
  | true => exact .inr (h.deferred live deferred)

theorem Sound.heeded (h : l.Sound) (taken : l.Taken) : l.Heeded := by
  rintro ⟨running, speed, -, present⟩
  exact taken (h.running.mpr ⟨running, speed, present⟩)

/-! ### Callbacks -/

@[simp] theorem mask_eq (l : Line) : l.mask = { l with enabled := l.surpriseRemoved && l.enabled } := by
  unfold mask
  split
  · rename_i present
    simp [present]
  · rename_i removed
    have removed : l.surpriseRemoved = true := by simpa using removed
    simp only [removed, Bool.true_and]
    exact removed ▸ rfl

theorem due_queueDpc (l : Line) (another : Bool) : (l.queueDpc another).Due := by
  left
  cases another <;> simp [queueDpc]

/-- An interrupt that does not run makes no demands. -/
theorem Sound.of_stopped (off : l.irqRunning = false) (idle : l.running = false ∨ l.speed = 0 ∨ l.surpriseRemoved = true) :
    l.Sound := by
  refine ⟨?_, by simp [off], by simp [off]⟩
  rw [off]
  constructor
  · intro no
    cases no
  · rintro ⟨running, speed, present⟩
    simp [running, speed, present] at idle

theorem sound_fail (l : Line) (reason : BitVec 32) : (l.fail reason).Sound :=
  .of_stopped (by simp [fail, stopInterrupts]) (.inl (by simp [fail, stopInterrupts]))

theorem Sound.interrupt (h : l.Sound) (status : BitVec 32) (another : Bool) : (l.interrupt status another).Sound := by
  unfold Line.interrupt
  split
  · exact h
  · split
    · exact h
    · exact ⟨h.running, fun _ no => by simp [queueDpc] at no, fun _ _ => .inl (due_queueDpc _ another)⟩

theorem Sound.disableInterrupt (h : l.Sound) : l.disableInterrupt.Sound := by
  refine ⟨?_, fun _ _ no => ?_, fun live deferred => ?_⟩
  · simpa [Line.disableInterrupt] using h.running
  · simp [Line.disableInterrupt] at no
  · simp only [Line.disableInterrupt, mask_eq] at live deferred ⊢
    exact h.deferred live deferred

theorem Sound.enableInterrupt (h : l.Sound) : l.enableInterrupt.Sound := by
  refine ⟨h.running, fun live now _ => ?_, h.deferred⟩
  have live : l.irqRunning = true := live
  have now : l.irqDeferred = false := now
  simp [Line.enableInterrupt, live, now, (h.running.mp live).2.2]

theorem Sound.startHardware (h : l.Sound) (speed : ℕ) (present : l.surpriseRemoved = false) (off : l.running = false) :
    (l.startHardware speed).Sound := by
  have still : l.irqRunning = false := by
    cases live : l.irqRunning with
    | false => rfl
    | true => simp [(h.running.mp live).1] at off
  unfold Line.startHardware
  by_cases fast : speed ≠ 0
  · simp only [fast, if_true, ne_eq, not_false_eq_true]
    refine ⟨?_, fun _ _ wanted => ?_, fun _ no => ?_⟩
    · simp [startInterrupts, fast, present]
    · have wanted : l.irqSuppressed = false := by simpa [startInterrupts] using wanted
      simp [startInterrupts, wanted]
    · simp [startInterrupts] at no
  · simp only [fast, if_false]
    exact .of_stopped (by simpa using still) (.inr (.inl (by simpa using fast)))

/-- Deferred procedures that are counted differently, as long as some are due. -/
theorem Sound.recount (h : l.Sound) (q e c : ℕ) (due : l.Due → 0 < q ∨ 0 < e ∨ 0 < c) :
    Sound { l with queued := q, entering := e, continued := c } :=
  ⟨h.running, h.armed, fun live deferred => (h.deferred live deferred).imp_left due⟩

theorem Sound.enterDpc (h : l.Sound) (status : BitVec 32) : (l.enterDpc status).Sound := by
  unfold Line.enterDpc
  by_cases idle : Idle { l with entering := l.entering - 1 }
  · simp only [idle, if_true]
    refine ⟨h.running, h.armed, fun live deferred => ?_⟩
    obtain ⟨running, speed, present⟩ := h.running.mp live
    -- an adapter that is live is left to the procedure that is active
    have active : l.dpcActive = true := by simpa [Idle, running, speed, present] using idle
    exact .inr active
  · simp only [idle, if_false]
    split
    · exact sound_fail _ _
    · exact ⟨h.running, h.armed, fun _ _ => .inr rfl⟩

theorem Sound.finishDpc (h : l.Sound) (found : Found) (another : Bool) : (l.finishDpc found another).Sound := by
  unfold Line.finishDpc
  split
  · cases found with
    | more => exact ⟨h.running, h.armed, fun _ _ => .inl (.inr (.inr (Nat.succ_pos _)))⟩
    | again => exact ⟨h.running, h.armed, fun _ _ => .inl (due_queueDpc l another)⟩
    | nothing =>
      refine ⟨h.running, fun live _ wanted => ?_, fun _ no => ?_⟩
      · have live : l.irqRunning = true := live
        have wanted : l.irqSuppressed = false := wanted
        simp [rearmInterrupts, live, wanted, (h.running.mp live).2.2]
      · simp [rearmInterrupts] at no
  · rename_i off
    have still : ¬l.irqRunning = true := fun live => off ⟨(h.running.mp live).1, (h.running.mp live).2.2⟩
    exact ⟨h.running, h.armed, fun live => absurd live still⟩

/-! ### Steps -/

/-- The adapter does not run before it is started. -/
def Stopped (l : Line) : Prop := l.phase = .down ∨ l.phase = .stopping → l.running = false

theorem Stopped.step (h : l.Stopped) (e : Signal) (possible : l.Possible e) : (l.step e).Stopped := by
  cases e with
  | interrupt status another =>
    simp only [Line.step, Line.interrupt]
    split
    · exact h
    · split
      · exact h
      · exact h
  | disableInterrupt => simpa [Stopped, Line.step, Line.disableInterrupt] using h
  | enableInterrupt => exact h
  | dequeue => exact h
  | resume => exact h
  | enterDpc status =>
    simp only [Line.step, Line.enterDpc]
    split
    · exact h
    · split
      · intro _
        simp [fail, stopInterrupts]
      · exact h
  | corrupt =>
    intro _
    simp [Line.step, fail, stopInterrupts]
  | finishDpc found another =>
    simp only [Line.step, Line.finishDpc]
    split
    · cases found <;> exact h
    · exact h
  | stopHardware =>
    intro _
    simp [Line.step, Line.stopHardware, stopInterrupts]
  | stopped => exact fun _ => h (.inr possible.1)
  | startHardware speed =>
    intro down
    simp only [Line.step, Line.startHardware] at down
    split at down <;> simp [startInterrupts] at down
  | remove =>
    intro _
    rfl

theorem Sound.step (h : l.Sound) (stopped : l.Stopped) (e : Signal) (possible : l.Possible e) : (l.step e).Sound := by
  cases e with
  | interrupt status another => exact h.interrupt status another
  | disableInterrupt => exact h.disableInterrupt
  | enableInterrupt => exact h.enableInterrupt
  | dequeue => exact h.recount _ _ _ fun _ => .inr (.inl (Nat.succ_pos _))
  | resume => exact h.recount _ _ _ fun _ => .inr (.inl (Nat.succ_pos _))
  | enterDpc status => exact h.enterDpc status
  | corrupt => exact sound_fail l _
  | finishDpc found another => exact h.finishDpc found another
  | stopHardware =>
    refine .of_stopped ?_ (.inl ?_)
    · simp [Line.step, Line.stopHardware, stopInterrupts]
    · simp [Line.step, Line.stopHardware, stopInterrupts]
  | stopped => exact ⟨h.running, h.armed, h.deferred⟩
  | startHardware speed => exact h.startHardware speed possible.2 (stopped (.inl possible.1))
  | remove => exact .of_stopped rfl (.inl rfl)

/-- A step that leaves what is pending and what is due alone. -/
theorem Taken.of_eq {m : Line} (h : l.Taken) (running : m.irqRunning = true → l.irqRunning = true)
    (pending : m.irqPending = l.irqPending) (due : l.Due → m.Due) : m.Taken :=
  fun live ne => due (h (running live) (pending ▸ ne))

theorem taken_of_none (none : l.irqPending = 0) : l.Taken := fun _ ne => absurd none ne

theorem Sound.taken_enterDpc (sound : l.Sound) (status : BitVec 32) (careful : l.Careful (.enterDpc status)) :
    (l.enterDpc status).Taken := by
  unfold Line.enterDpc
  by_cases idle : Idle { l with entering := l.entering - 1 }
  · simp only [idle, if_true]
    intro live ne
    obtain ⟨running, speed, present⟩ := sound.running.mp live
    have active : l.dpcActive = true := by simpa [Idle, running, speed, present] using idle
    rcases careful active ne with queued | entering | continued
    · exact .inl queued
    · exact .inr (.inl (Nat.sub_pos_of_lt entering))
    · exact .inr (.inr continued)
  · simp only [idle, if_false]
    split
    · exact taken_of_none (by simp [fail, stopInterrupts])
    · exact taken_of_none rfl

theorem Taken.step (h : l.Taken) (sound : l.Sound) (e : Signal) (careful : l.Careful e) : (l.step e).Taken := by
  cases e with
  | interrupt status another =>
    simp only [Line.step, Line.interrupt]
    split
    · exact h
    · split
      · exact h
      · exact fun _ _ => due_queueDpc _ another
  | disableInterrupt =>
    simp only [Line.step, Line.disableInterrupt, mask_eq]
    exact h.of_eq (fun live => live) rfl fun due => due
  | enableInterrupt => exact h.of_eq (fun live => live) rfl fun due => due
  | dequeue => exact h.of_eq (fun live => live) rfl fun _ => .inr (.inl (Nat.succ_pos _))
  | resume => exact h.of_eq (fun live => live) rfl fun _ => .inr (.inl (Nat.succ_pos _))
  | enterDpc status => exact sound.taken_enterDpc status careful
  | corrupt => exact taken_of_none (by simp [Line.step, fail, stopInterrupts])
  | finishDpc found another =>
    simp only [Line.step, Line.finishDpc]
    split
    · cases found with
      | more => exact h.of_eq (fun live => live) rfl fun _ => .inr (.inr (Nat.succ_pos _))
      | again => exact h.of_eq (fun live => live) rfl fun _ => due_queueDpc l another
      | nothing => exact h.of_eq (fun live => live) rfl fun due => due
    · exact h.of_eq (fun live => live) rfl fun due => due
  | stopHardware => exact taken_of_none (by simp [Line.step, Line.stopHardware, stopInterrupts])
  | stopped => exact h.of_eq (fun live => live) rfl fun due => due
  | startHardware speed =>
    simp only [Line.step, Line.startHardware]
    split
    · exact taken_of_none rfl
    · simp only [mask_eq]
      exact h.of_eq (fun live => live) rfl fun due => due
  | remove => exact fun live => absurd live Bool.false_ne_true

/-! ### Runs -/

theorem line_next {m : Line} {e : Signal} (next : line.next l e = some m) : l.Possible e ∧ m = l.step e := by
  simp only [line] at next
  split at next
  · rename_i possible
    exact ⟨possible, (Option.some_inj.mp next).symm⟩
  · cases next

theorem sound_reached {P : Line → Signal → Prop} (h : line.Reaches P l) : l.Stopped ∧ l.Sound := by
  refine h.invariant (I := fun l => l.Stopped ∧ l.Sound) ⟨fun _ => rfl, .of_stopped rfl (.inl rfl)⟩ fun {l m} e kept _ next => ?_
  obtain ⟨possible, rfl⟩ := line_next next
  exact ⟨kept.1.step e possible, kept.2.step kept.1 e possible⟩

theorem taken_reached (h : line.Reaches Careful l) : l.Sound ∧ l.Taken := by
  have : l.Stopped ∧ l.Sound ∧ l.Taken := by
    refine h.invariant (I := fun l => l.Stopped ∧ l.Sound ∧ l.Taken)
      ⟨fun _ => rfl, .of_stopped rfl (.inl rfl), taken_of_none rfl⟩ fun {l m} e kept careful next => ?_
    obtain ⟨possible, rfl⟩ := line_next next
    exact ⟨kept.1.step e possible, kept.2.1.step kept.1 e possible, kept.2.2.step kept.2.1 e careful⟩
  exact this.2

end Line

/-- In every run new work is noticed; and in every run in which no deferred procedure
leaves an acknowledged status to one that is already active, the status is taken. -/
theorem interrupts_served (l : Line) : (line.Reachable l → l.Attended) ∧
    (line.Reaches Line.Careful l → l.Attended ∧ l.Heeded) := by
  refine ⟨fun h => (Line.sound_reached h).2.attended, fun h => ?_⟩
  obtain ⟨sound, taken⟩ := Line.taken_reached h
  exact ⟨sound.attended, sound.heeded taken⟩

/-- A deferred procedure that was queued before a stop runs after the next start. While
it is active an interrupt queues another one, which leaves; the first one then unmasks
the interrupt. -/
def staleRun : List Signal :=
  [.startHardware 1000, .interrupt 2 false, .stopHardware, .stopped, .startHardware 1000, .dequeue, .enterDpc 0,
    .interrupt 0x800 false, .dequeue, .enterDpc 0, .finishDpc .nothing false]

/-- The fatal status of the second interrupt is then left behind. -/
theorem fatal_unheeded : ¬∀ l, line.Reachable l → l.Attended ∧ l.Heeded := by
  intro h
  have run : (line.runFrom line.init staleRun).any fun l => l.Live ∧ l.irqPending &&& gemIrqFatal ≠ 0 ∧ ¬l.Due ∧
      l.dpcActive = false := by decide +kernel
  rcases result : line.runFrom line.init staleRun with _ | l
  · simp [result] at run
  · simp only [result, Option.any_some, decide_eq_true_eq] at run
    obtain ⟨live, fatal, unattended, -⟩ := run
    have pending : l.irqPending ≠ 0 := by
      intro none
      simp [none] at fatal
    exact unattended ((h l (System.reachable_of_run result)).2 live pending)

end Pi5Drivers.Ethernet
