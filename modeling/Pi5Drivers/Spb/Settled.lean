import Pi5Drivers.Lib.Sums
import Pi5Drivers.Spb.Handoff
import Pi5Drivers.I2c.Driver
import Pi5Drivers.Spi.Driver

/-! What holds of a request whatever the order of the steps. As long as it is the current one, the worker
that was enqueued for it is the only one that has to do with it; when it is no longer, the cancel
routine and the worker agree on who is the last, and the last one completes it. -/

namespace Pi5Drivers.Spb.Handoff

/-- The cancel routine was called, and has not said yet that it has returned. -/
def Cancel.Running : Cancel → Prop
  | .entry | .wake | .hand => True
  | .none | .complete | .release | .done => False

namespace Request

variable (q : Request) (r : ℕ) (current : Prop)

/-- How often the request was completed, and its reference taken and released. -/
def Counts (completed taken released : ℕ) : Prop :=
  q.answers.length = completed ∧ q.taken = taken ∧ q.released = released

/-- Only `Begin` has to do with the request. -/
def Alone : Prop := q.run = .none ∧ q.cancel = .none ∧ q.cancelable = .unmarked

/-- The context is as `Begin` has made it. -/
def Clean : Prop := q.context.finished = false ∧ q.context.returned = false

/-- The worker has not finished, and the cancel routine was not called, is running or has returned. -/
def Shared : Prop :=
  q.context.finished = false ∧ q.Counts 0 1 0 ∧
    (q.cancelable = .marked ∧ q.cancel = .none ∧ q.context.returned = false ∨
      q.cancelable = .called ∧
        (q.cancel.Running ∧ q.context.returned = false ∨ q.cancel = .done ∧ q.context.returned = true))

/-- The cancel routine does nothing more. -/
def Left : Prop := q.cancelable = .unmarked ∧ q.cancel = .none ∨ q.cancelable = .called ∧ q.cancel = .done

/-- The cancel routine is the last one. -/
def Cancelling : Prop :=
  q.cancelable = .called ∧
    (q.cancel.Running ∧ q.context.finished = true ∧ q.Counts 0 1 0 ∨ q.cancel = .complete ∧ q.Counts 0 1 0 ∨
      q.cancel = .release ∧ q.Counts 1 1 0)

/-- What holds of a request whose worker was enqueued. -/
def Enqueued : Prop :=
  match q.run with
  | .none => False
  | .queued | .entry => current ∧ q.Shared
  | .working p _ => p = r ∧ current ∧ q.Shared
  | .unmark p => p = r ∧ ¬current ∧ q.Shared
  | .hand p => p = r ∧ ¬current ∧ q.cancelable = .called ∧ q.Shared
  | .complete p => p = r ∧ ¬current ∧ q.Left ∧ q.Counts 0 1 0
  | .release p => p = r ∧ ¬current ∧ q.Left ∧ q.Counts 1 1 0
  | .done => ¬current ∧ (q.Left ∧ q.Counts 1 1 1 ∨ q.Cancelling)

/-- What holds of the `r`-th request when it was dispatched. -/
def Good : Prop :=
  match q.begin with
  | .none => False
  | .entry | .fail _ => ¬current ∧ q.Alone ∧ q.Counts 0 0 0
  | .lock => ¬current ∧ q.Alone ∧ q.Clean ∧ q.Counts 0 0 0
  | .failed => ¬current ∧ q.Alone ∧ q.Counts 1 0 0
  | .mark => current ∧ q.Alone ∧ q.Clean ∧ q.Counts 0 1 0
  | .forget _ => current ∧ q.Alone ∧ q.Counts 0 1 0
  | .complete => ¬current ∧ q.Alone ∧ q.Counts 0 1 0
  | .release => ¬current ∧ q.Alone ∧ q.Counts 1 1 0
  | .withdrawn => ¬current ∧ q.Alone ∧ q.Counts 1 1 1
  | .enqueue => current ∧ q.run = .none ∧ q.Shared
  | .enqueued => q.Enqueued r current

/-- What holds of it before. -/
def Later : Prop := q.begin = .none ∧ q.cancel = .none ∧ q.run = .none ∧ ¬current

end Request

/-- What is dispatched is good. -/
structure Inv (s : State) : Prop where
  good : ∀ r < s.dispatched, (s.requests r).Good r (s.current = some r)
  later : ∀ r, s.dispatched ≤ r → (s.requests r).Later (s.current = some r)

/-- Two changes of one request are one change. -/
theorem State.put_put (s : State) (r : ℕ) (f g : Request → Request) : (s.put r f).put r g = s.put r fun q => g (f q) := by
  simp only [put, Function.update_self, Function.update_idem]

namespace Inv

variable {s t : State} {r : ℕ} {f : Request → Request} {current : Option ℕ}

theorem lt_of_begin (h : Inv s) (begun : (s.requests r).begin ≠ .none) : r < s.dispatched :=
  Nat.lt_of_not_le fun le => begun (h.later r le).1

theorem lt_of_cancel (h : Inv s) (called : (s.requests r).cancel ≠ .none) : r < s.dispatched :=
  Nat.lt_of_not_le fun le => called (h.later r le).2.1

theorem lt_of_run (h : Inv s) (runs : (s.requests r).run ≠ .none) : r < s.dispatched :=
  Nat.lt_of_not_le fun le => runs (h.later r le).2.2.1

/-- A step that concerns one request alone, except that it may become the current one or cease to be it. -/
theorem replace (h : Inv s) (lt : r < s.dispatched)
    (others : ∀ p ≠ r, (current = some p) = (s.current = some p)) (new : (f (s.requests r)).Good r (current = some r)) :
    Inv (State.put { s with current := current } r f) where
  good p hp := by
    change (Function.update s.requests r _ p).Good p (current = some p)
    by_cases eq : p = r
    · subst eq
      rwa [Function.update_self]
    · rw [Function.update_of_ne eq, others p eq]
      exact h.good p hp
  later p le := by
    change s.dispatched ≤ p at le
    have ne : p ≠ r := by omega
    change (Function.update s.requests r _ p).Later (current = some p)
    rw [Function.update_of_ne ne, others p ne]
    exact h.later p le

theorem put (h : Inv s) (lt : r < s.dispatched) (new : (f (s.requests r)).Good r (s.current = some r)) :
    Inv (s.put r f) :=
  h.replace lt (fun _ _ => rfl) new

theorem enter (h : Inv s) (lt : r < s.dispatched) (free : s.current = none)
    (new : (f (s.requests r)).Good r True) : Inv ((s.enter r).put r f) := by
  refine h.replace lt (fun p ne => ?_) (eq_self (some r) ▸ new)
  rw [free, Option.some.injEq]
  exact propext ⟨fun eq => absurd eq.symm ne, nofun⟩

theorem leave (h : Inv s) (lt : r < s.dispatched) (here : s.current = some r)
    (new : (f (s.requests r)).Good r False) : Inv (s.leave.put r f) := by
  have no (p : ℕ) : (none = some p) = False := propext ⟨nofun, False.elim⟩
  refine h.replace lt (fun p ne => ?_) (no r ▸ new)
  rw [here, Option.some.injEq, no]
  exact propext ⟨False.elim, fun eq => ne eq.symm⟩

end Inv

namespace Request.Good

variable {q : Request} {r : ℕ} {current : Prop}

/-- A worker runs only for a request for which it was enqueued. -/
theorem enqueued (h : q.Good r current) (runs : q.run ≠ .none) : q.begin = .enqueued ∧ q.Enqueued r current := by
  cases phase : q.begin <;> simp only [Good, phase] at h
  case enqueued => exact ⟨rfl, h⟩
  case enqueue => exact absurd h.2.1 runs
  all_goals exact absurd h.2.1.1 runs

/-- A step of a cancel routine that has not returned yet, before or after the worker has finished. -/
theorem cancel {q' : Request} (h : q.Good r current) (called : q.cancel ≠ .none) (open' : q.cancel ≠ .done)
    (begin : q'.begin = q.begin) (run : q'.run = q.run) (kept : q'.cancelable = q.cancelable)
    (before : q.Shared → q'.Shared) (after : q.Cancelling → q'.Left ∧ q'.Counts 1 1 1 ∨ q'.Cancelling) : q'.Good r current := by
  have inLeft : ¬q.Left := fun left => left.elim (fun h => called h.2) fun h => open' h.2
  cases phase : q.begin <;> simp only [Good, phase, begin] at h ⊢
  case enqueue => exact ⟨h.1, run ▸ h.2.1, before h.2.2⟩
  case enqueued =>
    cases stage : q.run <;> simp only [Enqueued, stage, run] at h ⊢
    case queued | entry => exact ⟨h.1, before h.2⟩
    case working | unmark => exact ⟨h.1, h.2.1, before h.2.2⟩
    case hand => exact ⟨h.1, h.2.1, kept ▸ h.2.2.1, before h.2.2.2⟩
    case complete | release => exact absurd h.2.2.1 inLeft
    case done => exact ⟨h.1, h.2.elim (fun left => absurd left.1 inLeft) after⟩
  all_goals exact absurd h.2.1.2.1 called

/-- The system calls the cancel routine of a request that may be cancelled. -/
theorem ask {q' : Request} (h : q.Good r current) (marked : q.cancelable = .marked) (begin : q'.begin = q.begin)
    (run : q'.run = q.run) (called : q'.cancelable = .called) (shared : q.Shared → q'.Shared) : q'.Good r current := by
  have inLeft : ¬q.Left := fun left => left.elim (fun h => nomatch h.1.symm.trans marked) fun h => nomatch h.1.symm.trans marked
  cases phase : q.begin <;> simp only [Good, phase, begin] at h ⊢
  case enqueue => exact ⟨h.1, run ▸ h.2.1, shared h.2.2⟩
  case enqueued =>
    cases stage : q.run <;> simp only [Enqueued, stage, run] at h ⊢
    case queued | entry => exact ⟨h.1, shared h.2⟩
    case working | unmark => exact ⟨h.1, h.2.1, shared h.2.2⟩
    case hand => exact ⟨h.1, h.2.1, called, shared h.2.2.2⟩
    case complete | release => exact absurd h.2.2.1 inLeft
    case done => exact h.2.elim (fun left => absurd left.1 inLeft) fun last => nomatch last.1.symm.trans marked
  all_goals exact nomatch h.2.1.2.2.symm.trans marked

end Request.Good

/-! ### Every step -/

section Steps

variable {s t : State} {r p : ℕ} {fails : Option Status} {device : Except Status Bool}

theorem begun_of_step (step : beginStep s r fails = some t) : (s.requests r).begin ≠ .none := by
  intro none
  rw [beginStep, none] at step
  cases step

theorem called_of_step (step : cancelStep s r = some t) : (s.requests r).cancel ≠ .none ∧ (s.requests r).cancel ≠ .done := by
  constructor <;> intro idle <;> rw [cancelStep, idle] at step <;> cases step

theorem runs_of_step (step : workStep s r device = some t) : (s.requests r).run ≠ .none := by
  intro idle
  rw [workStep, idle] at step
  cases step

theorem Inv.begin (h : Inv s) (step : beginStep s r fails = some t) : Inv t := by
  have lt := h.lt_of_begin (begun_of_step step)
  have good := h.good r lt
  unfold beginStep at step
  cases phase : (s.requests r).begin <;> rw [phase] at step <;> simp only [Request.Good, phase] at good <;> cases step
  case entry =>
    obtain ⟨other, alone, counts⟩ := good
    refine h.put lt ?_
    split
    · exact ⟨other, alone, ⟨rfl, rfl⟩, counts⟩
    · exact ⟨other, alone, counts⟩
  case lock =>
    obtain ⟨other, alone, clean, counts⟩ := good
    split
    · exact h.put lt ⟨other, alone, counts⟩
    · rename_i free
      refine h.enter lt (by_contra fun some => free (.inl some)) ⟨trivial, alone, clean, counts.1, ?_, counts.2.2⟩
      exact congrArg (· + 1) counts.2.1
  case mark =>
    obtain ⟨here, alone, clean, counts⟩ := good
    refine h.put lt ?_
    split
    · exact ⟨here, alone, counts⟩
    · exact ⟨here, alone.1, clean.1, counts, .inl ⟨rfl, alone.2.1, clean.2⟩⟩
  case forget status =>
    obtain ⟨here, alone, counts⟩ := good
    exact h.leave lt here ⟨not_false, alone, counts⟩
  case complete =>
    obtain ⟨other, alone, counts⟩ := good
    exact h.put lt ⟨other, alone, congrArg (· + 1) counts.1, counts.2⟩
  case release =>
    obtain ⟨other, alone, counts⟩ := good
    exact h.put lt ⟨other, alone, counts.1, counts.2.1, congrArg (· + 1) counts.2.2⟩
  case enqueue =>
    obtain ⟨here, idle, shared⟩ := good
    refine h.put lt ?_
    rw [if_neg]
    · exact ⟨here, shared⟩
    · rintro ⟨p, -, queued⟩
      have runs : (s.requests p).run = .queued := by
        split at queued
        · assumption
        · cases queued
      have runs' : (s.requests p).run ≠ .none := by
        rw [runs]
        exact nofun
      obtain ⟨-, holds⟩ := (h.good p (h.lt_of_run runs')).enqueued runs'
      simp only [Request.Enqueued, runs] at holds
      obtain rfl : p = r := Option.some.inj (holds.1.symm.trans here)
      cases idle.symm.trans runs
  case fail status =>
    obtain ⟨other, alone, counts⟩ := good
    exact h.put lt ⟨other, alone, congrArg (· + 1) counts.1, counts.2⟩

theorem Inv.ask (h : Inv s) (step : askStep s r = some t) : Inv t := by
  unfold askStep at step
  obtain ⟨⟨lt, -, -⟩, step⟩ := Option.ite_none_right_eq_some.mp step
  cases step
  refine h.put lt ?_
  split
  · rename_i marked
    refine (h.good r lt).ask marked rfl rfl rfl ?_
    rintro ⟨open', counts, ⟨-, -, returned⟩ | ⟨called, -⟩⟩
    · exact ⟨open', counts, .inr ⟨rfl, .inl ⟨trivial, returned⟩⟩⟩
    · cases called.symm.trans marked
  · exact h.good r lt

theorem Inv.cancel (h : Inv s) (step : cancelStep s r = some t) : Inv t := by
  have called := called_of_step step
  have lt := h.lt_of_cancel called.1
  have good := h.good r lt
  unfold cancelStep at step
  cases phase : (s.requests r).cancel <;> rw [phase] at step <;> cases step
  case entry | wake =>
    refine h.put lt (good.cancel called.1 called.2 rfl rfl rfl ?_ ?_)
    · rintro ⟨open', counts, marked | ⟨called, running | returned⟩⟩
      · cases phase.symm.trans marked.2.1
      · exact ⟨open', counts, .inr ⟨called, .inl ⟨trivial, running.2⟩⟩⟩
      · cases phase.symm.trans returned.1
    · rintro ⟨called, running | complete | release⟩
      · exact .inr ⟨called, .inl ⟨trivial, running.2⟩⟩
      · cases phase.symm.trans complete.1
      · cases phase.symm.trans release.1
  case hand =>
    refine h.put lt (good.cancel called.1 called.2 rfl rfl rfl ?_ ?_)
    · rintro ⟨open', counts, marked | ⟨called, running | returned⟩⟩
      · cases phase.symm.trans marked.2.1
      · exact ⟨open', counts, .inr ⟨called, .inr ⟨if_neg (by rw [open']; exact nofun), rfl⟩⟩⟩
      · cases phase.symm.trans returned.1
    · rintro ⟨called, running | complete | release⟩
      · exact .inr ⟨called, .inr (.inl ⟨if_pos running.2.1, running.2.2⟩)⟩
      · cases phase.symm.trans complete.1
      · cases phase.symm.trans release.1
  case complete =>
    refine h.put lt (good.cancel called.1 called.2 rfl rfl rfl ?_ ?_)
    · rintro ⟨open', counts, marked | ⟨called, running | returned⟩⟩
      · cases phase.symm.trans marked.2.1
      · rw [phase] at running
        exact running.1.elim
      · cases phase.symm.trans returned.1
    · rintro ⟨called, running | complete | release⟩
      · rw [phase] at running
        exact running.1.elim
      · exact .inr ⟨called, .inr (.inr ⟨rfl, congrArg (· + 1) complete.2.1, complete.2.2⟩)⟩
      · cases phase.symm.trans release.1
  case release =>
    refine h.put lt (good.cancel called.1 called.2 rfl rfl rfl ?_ ?_)
    · rintro ⟨open', counts, marked | ⟨called, running | returned⟩⟩
      · cases phase.symm.trans marked.2.1
      · rw [phase] at running
        exact running.1.elim
      · cases phase.symm.trans returned.1
    · rintro ⟨called, running | complete | release⟩
      · rw [phase] at running
        exact running.1.elim
      · cases phase.symm.trans complete.1
      · exact .inl ⟨.inr ⟨called, rfl⟩, release.2.1, release.2.2.1, congrArg (· + 1) release.2.2.2⟩

theorem Inv.start (h : Inv s) (step : startStep s r = some t) : Inv t := by
  unfold startStep at step
  split at step
  · rename_i queued
    cases step
    have runs : (s.requests r).run ≠ .none := by
      rw [queued]
      exact nofun
    have lt := h.lt_of_run runs
    obtain ⟨begin, holds⟩ := (h.good r lt).enqueued runs
    refine h.put lt ?_
    simp only [Request.Enqueued, queued] at holds
    simp only [Request.Good, begin]
    exact holds
  · cases step

theorem Inv.work (h : Inv s) (step : workStep s r device = some t) : Inv t := by
  have runs := runs_of_step step
  have lt := h.lt_of_run runs
  obtain ⟨begin, holds⟩ := (h.good r lt).enqueued runs
  unfold workStep at step
  cases phase : (s.requests r).run <;> rw [phase] at step <;> simp only [Request.Enqueued, phase] at holds
  case queued | done => cases step
  case entry =>
    cases step
    rw [holds.1]
    refine h.put lt ?_
    simp only [Request.Good, begin]
    exact ⟨rfl, holds⟩
  case working p work =>
    obtain ⟨rfl, here, shared⟩ := holds
    cases work
    case forget =>
      cases step
      refine h.leave lt here ?_
      simp only [Request.Good, begin]
      exact ⟨rfl, not_false, shared⟩
    case publish outcome =>
      cases step
      rw [State.put_put]
      refine h.put lt ?_
      simp only [Request.Good, begin]
      exact ⟨rfl, here, shared⟩
    all_goals
      cases step
      refine h.put lt ?_
      simp only [Request.Good, begin]
      exact ⟨rfl, here, shared⟩
  case unmark p =>
    obtain ⟨rfl, other, open', counts, marked⟩ := holds
    cases step
    split
    · rename_i called
      refine h.put lt ?_
      simp only [Request.Good, begin]
      exact ⟨rfl, other, called, open', counts, marked⟩
    · rename_i called
      rw [State.put_put]
      refine h.put lt ?_
      simp only [Request.Good, begin]
      exact ⟨rfl, other, .inl ⟨rfl, marked.elim (fun h => h.2.1) fun h => absurd h.1 called⟩, counts⟩
  case hand p =>
    obtain ⟨rfl, other, called, open', counts, marked⟩ := holds
    cases step
    rw [State.put_put]
    refine h.put lt ?_
    simp only [Request.Good, begin, Request.Enqueued]
    rcases marked with marked | ⟨-, ⟨running, returned⟩ | ⟨done, returned⟩⟩
    · cases called.symm.trans marked.1
    · rw [returned]
      exact ⟨other, .inr ⟨called, .inl ⟨running, rfl, counts⟩⟩⟩
    · rw [returned]
      exact ⟨rfl, other, .inr ⟨called, done⟩, counts⟩
  case complete p =>
    obtain ⟨rfl, other, left, counts⟩ := holds
    cases step
    rw [State.put_put]
    refine h.put lt ?_
    simp only [Request.Good, begin, Request.complete]
    exact ⟨rfl, other, left, congrArg (· + 1) counts.1, counts.2⟩
  case release p =>
    obtain ⟨rfl, other, left, counts⟩ := holds
    cases step
    rw [State.put_put]
    refine h.put lt ?_
    simp only [Request.Good, begin, Request.release]
    exact ⟨other, .inl ⟨left, counts.1, counts.2.1, congrArg (· + 1) counts.2.2⟩⟩

variable {J : Type} {takes : J → Bool} {e : Event J}

theorem Inv.dispatch (h : Inv s) (job : J) (wakes : ℕ) (context : Context)
    (step : next takes s (.dispatch job wakes context) = some t) : Inv t := by
  cases step
  have other := (h.later _ (Nat.le_refl _)).2.2.2
  refine ⟨fun p hp => ?_, fun p le => ?_⟩
  · change p < s.dispatched + 1 at hp
    change (Function.update s.requests s.dispatched _ p).Good p (s.current = some p)
    by_cases eq : p = s.dispatched
    · subst eq
      rw [Function.update_self]
      exact ⟨other, ⟨rfl, rfl, rfl⟩, rfl, rfl, rfl⟩
    · rw [Function.update_of_ne eq]
      exact h.good p (by omega)
  · change s.dispatched + 1 ≤ p at le
    change (Function.update s.requests s.dispatched _ p).Later (s.current = some p)
    rw [Function.update_of_ne (by omega)]
    exact h.later p (by omega)

/-- Only the requests and the current one matter. -/
theorem Inv.frame (h : Inv s) (online : Bool) (stop : Stop) : Inv { s with online := online, stop := stop } :=
  ⟨h.good, h.later⟩

theorem Inv.halt (h : Inv s) (step : haltStep s = some t) : Inv t := by
  unfold haltStep at step
  split at step
  · cases step
    exact h.frame _ _
  · cases step

theorem Inv.stopping (h : Inv s) (step : stopStep s = some t) : Inv t := by
  unfold stopStep at step
  split at step
  · cases step
  · obtain ⟨-, step⟩ := Option.ite_none_right_eq_some.mp step
    cases step
    exact h.frame _ _
  · cases step
    exact h.frame _ _

theorem Inv.step (h : Inv s) (step : next takes s e = some t) : Inv t := by
  cases e with
  | dispatch job wakes context => exact h.dispatch job wakes context step
  | begin r fails => exact h.begin step
  | ask r => exact h.ask step
  | cancel r => exact h.cancel step
  | start r => exact h.start step
  | work r device => exact h.work step
  | stop => exact h.halt step
  | stopping => exact h.stopping step
  | interrupt enabled =>
    cases step
    exact h.frame _ _

theorem inv_of_reachable (h : (system takes).Reachable s) : Inv s := by
  have init : Inv (system takes).init := by
    refine ⟨fun r hr => absurd hr (Nat.not_lt_zero r), fun r _ => ⟨rfl, rfl, rfl, ?_⟩⟩
    change ¬none = some r
    exact nofun
  exact h.invariant (I := Inv) init fun _ inv _ step => inv.step step

end Steps

/-! ### How far the routines have still to go -/

def Work.rank : Work → ℕ → ℕ
  | .fetch, wakes => 4 * wakes + 16
  | .cancelled, wakes => 4 * wakes + 15
  | .online, wakes => 4 * wakes + 14
  | .timing, wakes => 4 * wakes + 13
  | .program, wakes => 4 * wakes + 12
  | .awake n, _ => 4 * n + 11
  | .live n, _ => 4 * n + 10
  | .deadline n, _ => 4 * n + 9
  | .pump n, _ => 4 * n + 12
  | .retire _, _ => 8
  | .deliver _, _ => 7
  | .publish _, _ => 6
  | .forget, _ => 5

def Run.rank : Run → ℕ → ℕ
  | .queued, wakes => 4 * wakes + 18
  | .entry, wakes => 4 * wakes + 17
  | .working _ work, wakes => work.rank wakes
  | .unmark _, _ => 4
  | .hand _, _ => 3
  | .complete _, _ => 2
  | .release _, _ => 1
  | .none, _ | .done, _ => 0

def Begin.rank : Begin → ℕ → ℕ
  | .entry, wakes => 4 * wakes + 22
  | .lock, wakes => 4 * wakes + 21
  | .mark, wakes => 4 * wakes + 20
  | .enqueue, wakes => 4 * wakes + 19
  | .forget _, _ => 3
  | .complete, _ => 2
  | .release, _ | .fail _, _ => 1
  | .none, _ | .withdrawn, _ | .enqueued, _ | .failed, _ => 0

def Cancel.rank : Cancel → ℕ
  | .entry => 5
  | .wake => 4
  | .hand => 3
  | .complete => 2
  | .release => 1
  | .none | .done => 0

def Stop.rank : Stop → ℕ
  | .flush => 2
  | .hardware => 1
  | .none => 0

def Request.rank (q : Request) : ℕ := q.begin.rank q.wakes + q.cancel.rank + q.run.rank q.wakes

/-- No run of the routines that are under way has more steps. -/
def State.rank (s : State) : ℕ := (∑ r ∈ Finset.range s.dispatched, (s.requests r).rank) + s.stop.rank

section Rank

variable {s t : State} {r : ℕ} {fails : Option Status} {device : Except Status Bool} {f : Request → Request}

theorem State.rank_put (lt : r < s.dispatched) (lower : (f (s.requests r)).rank < (s.requests r).rank) :
    (s.put r f).rank < s.rank := by
  have := sum_update_of_mem Request.rank s.requests (f (s.requests r)) (Finset.mem_range.mpr lt)
  unfold rank
  change (∑ p ∈ Finset.range s.dispatched, (Function.update s.requests r _ p).rank) + s.stop.rank < _
  omega

theorem rank_next (q : Request) (online : Bool) (device : Except Status Bool) (work : Work) (more : work ≠ .forget) :
    (work.next q online device).rank q.wakes < work.rank q.wakes := by
  cases work with
  | forget => exact absurd rfl more
  | publish | retire | deliver => exact Nat.lt_succ_self _
  | deadline left =>
    cases left with
    | zero => exact Nat.lt_succ_self _
    | succ left => exact Nat.lt_succ_self _
  | fetch | timing | program =>
    cases device with
    | ok _ => exact Nat.lt_succ_self _
    | error _ =>
      simp only [Work.next, Work.rank]
      omega
  | cancelled | online | awake | live =>
    simp only [Work.next]
    split
    · simp only [Work.rank]
      omega
    · simp only [Work.rank]
      omega
  | pump left =>
    simp only [Work.next]
    split
    · split
      · simp only [Work.rank]
        omega
      · exact Nat.lt_succ_self _
      · simp only [Work.rank]
        omega
    · simp only [Work.rank]
      omega

theorem rank_begin (h : Inv s) (step : beginStep s r fails = some t) : t.rank < s.rank := by
  have lt := h.lt_of_begin (begun_of_step step)
  unfold beginStep at step
  cases phase : (s.requests r).begin <;> rw [phase] at step <;> cases step
  case entry =>
    refine State.rank_put lt ?_
    simp only [Request.rank, phase]
    split <;> simp only [Begin.rank] <;> omega
  case lock =>
    split
    · refine State.rank_put lt ?_
      simp only [Request.rank, phase, Begin.rank]
      omega
    · refine State.rank_put (s := s.enter r) lt ?_
      change Request.rank _ < (s.requests r).rank
      simp only [Request.rank, State.enter, phase, Begin.rank]
      omega
  case mark =>
    refine State.rank_put lt ?_
    simp only [Request.rank, phase]
    split <;> simp only [Begin.rank] <;> omega
  case forget status =>
    refine State.rank_put (s := s.leave) lt ?_
    change Request.rank _ < (s.requests r).rank
    simp only [Request.rank, State.leave, phase, Begin.rank]
    omega
  case enqueue =>
    refine State.rank_put lt ?_
    simp only [Request.rank, phase]
    split
    · simp only [Begin.rank]
      omega
    · simp only [Begin.rank, Run.rank]
      omega
  case complete | release | fail =>
    refine State.rank_put lt ?_
    simp only [Request.rank, Request.complete, Request.release, phase, Begin.rank]
    omega

theorem rank_cancel (h : Inv s) (step : cancelStep s r = some t) : t.rank < s.rank := by
  have lt := h.lt_of_cancel (called_of_step step).1
  unfold cancelStep at step
  cases phase : (s.requests r).cancel <;> rw [phase] at step <;> cases step
  case hand =>
    refine State.rank_put lt ?_
    simp only [Request.rank, phase]
    split <;> simp only [Cancel.rank] <;> omega
  all_goals
    refine State.rank_put lt ?_
    simp only [Request.rank, Request.complete, Request.release, phase, Cancel.rank]
    omega

theorem rank_start (h : Inv s) (step : startStep s r = some t) : t.rank < s.rank := by
  unfold startStep at step
  split at step
  · rename_i queued
    cases step
    refine State.rank_put (h.lt_of_run (by rw [queued]; exact nofun)) ?_
    simp only [Request.rank, queued, Run.rank]
    omega
  · cases step

theorem rank_work (h : Inv s) (step : workStep s r device = some t) : t.rank < s.rank := by
  have runs := runs_of_step step
  have lt := h.lt_of_run runs
  obtain ⟨-, holds⟩ := (h.good r lt).enqueued runs
  unfold workStep at step
  cases phase : (s.requests r).run <;> rw [phase] at step <;> simp only [Request.Enqueued, phase] at holds
  case queued | done => cases step
  case entry =>
    cases step
    refine State.rank_put lt ?_
    rw [holds.1]
    simp only [Request.rank, phase, Run.rank, Work.rank]
    omega
  case working p work =>
    obtain ⟨rfl, -⟩ := holds
    have lower := rank_next (s.requests p) s.online device work
    cases work
    case forget =>
      cases step
      refine State.rank_put (s := s.leave) lt ?_
      change Request.rank _ < (s.requests p).rank
      simp only [Request.rank, State.leave, phase, Run.rank, Work.rank]
      omega
    case publish outcome =>
      cases step
      rw [State.put_put]
      refine State.rank_put lt ?_
      simp only [Request.rank, phase, Run.rank, Work.rank]
      omega
    all_goals
      cases step
      refine State.rank_put lt ?_
      simp only [Request.rank, phase, Run.rank]
      exact Nat.add_lt_add_left (lower nofun) _
  case unmark p =>
    obtain ⟨rfl, -⟩ := holds
    cases step
    split
    · refine State.rank_put lt ?_
      simp only [Request.rank, phase, Run.rank]
      omega
    · rw [State.put_put]
      refine State.rank_put lt ?_
      simp only [Request.rank, phase, Run.rank]
      omega
  case hand p =>
    obtain ⟨rfl, -⟩ := holds
    cases step
    rw [State.put_put]
    refine State.rank_put lt ?_
    simp only [Request.rank, phase]
    split <;> simp only [Run.rank] <;> omega
  case complete p | release p =>
    obtain ⟨rfl, -⟩ := holds
    cases step
    rw [State.put_put]
    refine State.rank_put lt ?_
    simp only [Request.rank, Request.complete, Request.release, phase, Run.rank]
    omega

theorem rank_stopping (step : stopStep s = some t) : t.rank < s.rank := by
  unfold stopStep at step
  cases phase : s.stop <;> rw [phase] at step
  case none => cases step
  case flush =>
    obtain ⟨-, step⟩ := Option.ite_none_right_eq_some.mp step
    cases step
    simp only [State.rank, phase, Stop.rank]
    omega
  case hardware =>
    cases step
    simp only [State.rank, phase, Stop.rank]
    omega

end Rank

/-! ### What a request can rely on -/

/-- The worker uses the hardware, or the buffers of a request. -/
def Run.Uses (r : ℕ) : Run → Prop
  | .working p _ => p = r
  | _ => False

/-- A routine has still a step to take for the request. -/
def Request.Busy (q : Request) : Prop :=
  ¬(q.begin matches .none | .withdrawn | .enqueued | .failed) ∨ ¬(q.cancel matches .none | .done) ∨ ¬(q.run matches .none | .done)

/-- No routine has a step to take. -/
def State.Quiet (s : State) : Prop := (∀ r < s.dispatched, ¬(s.requests r).Busy) ∧ s.stop = .none

instance (q : Request) : Decidable q.Busy := inferInstanceAs (Decidable (_ ∨ _))

instance (s : State) : Decidable s.Quiet := inferInstanceAs (Decidable (_ ∧ _))

/-- A step that a routine takes, in contrast to what happens to the driver. -/
def Event.Routine {J : Type} : Event J → Prop
  | .begin .. | .cancel _ | .start _ | .work .. | .stopping => True
  | .dispatch .. | .ask _ | .stop | .interrupt _ => False

/-- What every state guarantees. -/
structure Settled {J : Type} (takes : J → Bool) (s : State) : Prop where
  /-- No request is completed twice, and a reference is taken once and released once, after the
  completion. -/
  once : ∀ r < s.dispatched, (s.requests r).answers.length ≤ 1 ∧ (s.requests r).released ≤ (s.requests r).taken ∧ (s.requests r).taken ≤ 1 ∧
    (s.requests r).released ≤ (s.requests r).answers.length
  /-- Once a request is completed the worker does not use the hardware or the buffers for it, and no cancel
  routine runs. -/
  last : ∀ r < s.dispatched, (s.requests r).answers ≠ [] → (∀ p, ¬(s.requests p).run.Uses r) ∧ ¬(s.requests r).cancel.Running ∧ s.current ≠ some r
  /-- The worker runs for the current request only, and only once. -/
  alone : ∀ p r, (s.requests p).run.Uses r → p = r ∧ s.current = some r
  /-- No request is the current one when all are completed, and none follows another without the first being
  cleared. -/
  cleared : ((∀ r < s.dispatched, (s.requests r).answers ≠ []) → s.current = none) ∧
    ∀ e t r, next takes s e = some t → t.current = some r → s.current = some r ∨ s.current = none
  /-- The routines go on until nothing is left to do, -/
  live : ¬s.Quiet → ∃ e t, e.Routine ∧ next takes s e = some t
  /-- which is not long, -/
  short : ∀ e t, e.Routine → next takes s e = some t → t.rank < s.rank
  /-- and then every request was completed, and every reference released. -/
  quiet : s.Quiet → ∀ r < s.dispatched, (s.requests r).answers.length = 1 ∧ (s.requests r).released = (s.requests r).taken


namespace Request.Good

variable {q : Request} {r : ℕ} {current : Prop}

theorem once (h : q.Good r current) :
    q.answers.length ≤ 1 ∧ q.released ≤ q.taken ∧ q.taken ≤ 1 ∧ q.released ≤ q.answers.length := by
  have counted : ∃ n t l, q.Counts n t l ∧ n ≤ 1 ∧ l ≤ t ∧ t ≤ 1 ∧ l ≤ n := by
    cases phase : q.begin <;> simp only [Good, phase] at h
    case lock | mark => exact ⟨_, _, _, h.2.2.2, by decide⟩
    case enqueue => exact ⟨_, _, _, h.2.2.2.1, by decide⟩
    case enqueued =>
      cases stage : q.run <;> simp only [Enqueued, stage] at h
      case queued | entry => exact ⟨_, _, _, h.2.2.1, by decide⟩
      case working | unmark => exact ⟨_, _, _, h.2.2.2.1, by decide⟩
      case hand => exact ⟨_, _, _, h.2.2.2.2.1, by decide⟩
      case complete | release => exact ⟨_, _, _, h.2.2.2, by decide⟩
      case done =>
        rcases h.2 with left | ⟨-, running | complete | release⟩
        · exact ⟨_, _, _, left.2, by decide⟩
        · exact ⟨_, _, _, running.2.2, by decide⟩
        · exact ⟨_, _, _, complete.2, by decide⟩
        · exact ⟨_, _, _, release.2, by decide⟩
    all_goals exact ⟨_, _, _, h.2.2, by decide⟩
  obtain ⟨n, t, l, ⟨rfl, rfl, rfl⟩, bounds⟩ := counted
  exact bounds

theorem last (h : q.Good r current) (answered : q.answers ≠ []) :
    (∀ p, ¬q.run.Uses p) ∧ ¬q.cancel.Running ∧ ¬current := by
  have completed (t l : ℕ) : ¬q.Counts 0 t l := fun counts => answered (List.eq_nil_of_length_eq_zero counts.1)
  have idle (alone : q.Alone) : (∀ p, ¬q.run.Uses p) ∧ ¬q.cancel.Running := by
    rw [alone.1, alone.2.1]
    exact ⟨fun _ => id, id⟩
  have returned (left : q.Left) : ¬q.cancel.Running := by
    rcases left with ⟨-, eq⟩ | ⟨-, eq⟩ <;> rw [eq] <;> exact id
  cases phase : q.begin <;> simp only [Good, phase] at h
  case failed | release | withdrawn => exact ⟨(idle h.2.1).1, (idle h.2.1).2, h.1⟩
  case entry | fail | forget | complete => exact absurd h.2.2 (completed _ _)
  case lock | mark => exact absurd h.2.2.2 (completed _ _)
  case enqueue => exact absurd h.2.2.2.1 (completed _ _)
  case enqueued =>
    cases stage : q.run <;> simp only [Enqueued, stage] at h
    case queued | entry => exact absurd h.2.2.1 (completed _ _)
    case working | unmark => exact absurd h.2.2.2.1 (completed _ _)
    case hand => exact absurd h.2.2.2.2.1 (completed _ _)
    case complete => exact absurd h.2.2.2 (completed _ _)
    case release => exact ⟨fun _ => id, returned h.2.2.1, h.2.1⟩
    case done =>
      refine ⟨fun _ => id, ?_, h.1⟩
      rcases h.2 with left | ⟨-, running | complete | release⟩
      · exact returned left.1
      · exact absurd running.2.2 (completed _ _)
      · exact absurd complete.2 (completed _ _)
      · rw [release.1]
        exact id

theorem quiet (h : q.Good r current) (quiet : ¬q.Busy) : q.answers.length = 1 ∧ q.released = q.taken := by
  obtain ⟨begin, rest⟩ := not_or.mp quiet
  obtain ⟨cancel, run⟩ := not_or.mp rest
  replace begin := not_not.mp begin
  replace cancel := not_not.mp cancel
  replace run := not_not.mp run
  cases phase : q.begin <;> rw [phase] at begin <;> simp only [Good, phase] at h
  case withdrawn | failed => exact ⟨h.2.2.1, h.2.2.2.2.trans h.2.2.2.1.symm⟩
  case enqueued =>
    cases stage : q.run <;> rw [stage] at run <;> simp only [Enqueued, stage] at h
    case done =>
      rcases h.2 with left | ⟨-, running | complete | release⟩
      · exact ⟨left.2.1, left.2.2.2.trans left.2.2.1.symm⟩
      · have runs := running.1
        cases step : q.cancel <;> rw [step] at cancel runs
        case none | done => exact runs.elim
        all_goals exact nomatch cancel
      · rw [complete.1] at cancel
        exact nomatch cancel
      · rw [release.1] at cancel
        exact nomatch cancel
    all_goals exact nomatch run
  all_goals exact nomatch begin

end Request.Good

section Settled

variable {J : Type} {takes : J → Bool} {s t : State} {r : ℕ} {e : Event J}

theorem exists_of_busy (busy : (s.requests r).Busy) : ∃ e t, e.Routine ∧ next takes s e = some t := by
  rcases busy with begin | cancel | run
  · suffices step : ∃ t, beginStep s r none = some t from step.elim fun t step => ⟨.begin r none, t, trivial, step⟩
    cases phase : (s.requests r).begin <;> rw [phase] at begin <;> rw [beginStep, phase]
    case none | withdrawn | enqueued | failed => exact absurd rfl begin
    all_goals exact ⟨_, rfl⟩
  · suffices step : ∃ t, cancelStep s r = some t from step.elim fun t step => ⟨.cancel r, t, trivial, step⟩
    cases phase : (s.requests r).cancel <;> rw [phase] at cancel <;> rw [cancelStep, phase]
    case none | done => exact absurd rfl cancel
    all_goals exact ⟨_, rfl⟩
  · cases phase : (s.requests r).run <;> rw [phase] at run
    case none | done => exact absurd rfl run
    case queued =>
      suffices step : ∃ t, startStep s r = some t from step.elim fun t step => ⟨.start r, t, trivial, step⟩
      rw [startStep, phase]
      exact ⟨_, rfl⟩
    all_goals
      suffices step : ∃ t, workStep s r (.ok true) = some t from step.elim fun t step => ⟨.work r (.ok true), t, trivial, step⟩
      rw [workStep, phase]
    case working p work => cases work <;> exact ⟨_, rfl⟩
    all_goals exact ⟨_, rfl⟩

theorem live (more : ¬s.Quiet) : ∃ e t, e.Routine ∧ next takes s e = some t := by
  by_cases busy : ∃ r < s.dispatched, (s.requests r).Busy
  · obtain ⟨r, -, busy⟩ := busy
    exact exists_of_busy busy
  · have none : ∀ r < s.dispatched, ¬(s.requests r).Busy := fun r hr here => busy ⟨r, hr, here⟩
    refine ⟨.stopping, ?_⟩
    cases phase : s.stop with
    | none => exact absurd ⟨none, phase⟩ more
    | hardware => exact ⟨_, trivial, by rw [next, stopStep, phase]⟩
    | flush =>
      have flushed : s.Flushed := fun r hr => not_not.mp (not_or.mp (not_or.mp (none r hr)).2).2
      exact ⟨_, trivial, by rw [next, stopStep, phase]; exact if_pos flushed⟩

theorem current_of_begin {fails : Option Status} (step : beginStep s r fails = some t) :
    t.current = s.current ∨ t.current = none ∨ s.current = none := by
  unfold beginStep at step
  cases phase : (s.requests r).begin <;> rw [phase] at step <;> cases step
  case lock =>
    split
    · exact .inl rfl
    · rename_i free
      exact .inr (.inr (by_contra fun some => free (.inl some)))
  case forget => exact .inr (.inl rfl)
  all_goals exact .inl rfl

theorem current_of_work {device : Except Status Bool} (step : workStep s r device = some t) :
    t.current = s.current ∨ t.current = none := by
  unfold workStep at step
  cases phase : (s.requests r).run <;> rw [phase] at step
  case working p work =>
    cases work <;> cases step
    case forget => exact .inr rfl
    all_goals exact .inl rfl
  case unmark =>
    cases step
    split <;> exact .inl rfl
  all_goals cases step
  all_goals exact .inl rfl

theorem current_of_step (step : next takes s e = some t) : t.current = s.current ∨ t.current = none ∨ s.current = none := by
  cases e with
  | dispatch | interrupt =>
    cases step
    exact .inl rfl
  | begin r fails => exact current_of_begin step
  | ask r =>
    obtain ⟨-, step⟩ := Option.ite_none_right_eq_some.mp step
    cases step
    exact .inl rfl
  | cancel r =>
    rw [next, cancelStep] at step
    cases phase : (s.requests r).cancel <;> rw [phase] at step <;> cases step <;> exact .inl rfl
  | start r =>
    rw [next, startStep] at step
    cases phase : (s.requests r).run <;> rw [phase] at step <;> cases step
    exact .inl rfl
  | work r device => exact (current_of_work step).imp_right .inl
  | stop =>
    rw [next, haltStep] at step
    cases phase : s.stop <;> rw [phase] at step <;> cases step
    exact .inl rfl
  | stopping =>
    rw [next, stopStep] at step
    cases phase : s.stop <;> rw [phase] at step
    case none => cases step
    case flush =>
      obtain ⟨-, step⟩ := Option.ite_none_right_eq_some.mp step
      cases step
      exact .inl rfl
    case hardware =>
      cases step
      exact .inl rfl

theorem rank_of_step (h : Inv s) (routine : e.Routine) (step : next takes s e = some t) : t.rank < s.rank := by
  cases e with
  | begin r fails => exact rank_begin h step
  | cancel r => exact rank_cancel h step
  | start r => exact rank_start h step
  | work r device => exact rank_work h step
  | stopping => exact rank_stopping step
  | dispatch | ask | stop | interrupt => exact routine.elim

theorem Inv.alone (h : Inv s) {p : ℕ} (uses : (s.requests p).run.Uses r) : p = r ∧ s.current = some r := by
  have runs : (s.requests p).run ≠ .none := by
    intro none
    rw [none] at uses
    exact uses
  obtain ⟨-, holds⟩ := (h.good p (h.lt_of_run runs)).enqueued runs
  cases stage : (s.requests p).run <;> rw [stage] at uses
  case working q work =>
    simp only [Request.Enqueued, stage] at holds
    obtain ⟨rfl, here, -⟩ := holds
    obtain rfl : q = r := uses
    exact ⟨rfl, here⟩
  all_goals exact uses.elim

theorem settled (h : (system takes).Reachable s) : Settled takes s := by
  have inv := inv_of_reachable h
  refine ⟨fun r hr => (inv.good r hr).once, fun r hr answered => ?_, fun p r => inv.alone, ⟨fun all => ?_, fun e t r step here => ?_⟩,
    live, fun e t => rank_of_step inv, fun quiet r hr => (inv.good r hr).quiet (quiet.1 r hr)⟩
  · obtain ⟨-, returned, other⟩ := (inv.good r hr).last answered
    exact ⟨fun p uses => other (inv.alone uses).2, returned, other⟩
  · by_contra some
    obtain ⟨r, here⟩ := Option.ne_none_iff_exists'.mp some
    have hr : r < s.dispatched := Nat.lt_of_not_le fun le => (inv.later r le).2.2.2 here
    exact ((inv.good r hr).last (all r hr)).2.2 here
  · rcases current_of_step step with same | gone | free
    · exact .inl (same ▸ here)
    · exact nomatch gone.symm.trans here
    · exact .inr free

end Settled

/-! ### The two drivers -/

/-- The requests that the I2C driver takes; a request says whether it is a single one, and its transfers. -/
def i2cTakes (job : Bool × List Descriptor) : Bool := (I2c.transfersOf job.1 job.2).isOk

/-- The requests that the SPI driver takes; a request says also whether it is a full duplex one. -/
def spiTakes (job : Bool × Bool × List Descriptor) : Bool := (Spi.transfersOf job.1 job.2.1 job.2.2).isOk

/-- Whatever requests the controllers are given and in whatever order the routines go on, every
request is completed once, by the last routine that has to do with it, and what was referenced is
released. -/
theorem request_settled : (∀ s, (system i2cTakes).Reachable s → Settled i2cTakes s) ∧
    ∀ s, (system spiTakes).Reachable s → Settled spiTakes s :=
  ⟨fun _ => settled, fun _ => settled⟩

/-- A request of two bytes is cancelled while the worker fetches them, and the cancel routine is the last. -/
def cancelledLate : List (Event (Bool × List Descriptor)) :=
  [.interrupt true, .dispatch (true, [⟨2, .toDevice, [[1, 2]], 0⟩]) 5 .zero, .begin 0 none, .begin 0 none, .begin 0 none,
    .begin 0 none, .start 0, .work 0 (.ok true), .ask 0, .cancel 0, .work 0 (.error .insufficientResources), .work 0 (.ok true),
    .work 0 (.ok true), .work 0 (.ok true), .cancel 0, .work 0 (.ok true), .work 0 (.ok true), .cancel 0, .cancel 0, .cancel 0]

theorem cancelledLate_settled : ∃ s, (system i2cTakes).Reachable s ∧ s.dispatched = 1 ∧ (s.requests 0).answers.length = 1 ∧
    (s.requests 0).released = (s.requests 0).taken := by
  have run : ((system i2cTakes).runFrom (system i2cTakes).init cancelledLate).any (fun s => s.dispatched = 1 ∧ s.Quiet) = true := by
    decide
  obtain ⟨s, run, holds⟩ := (Option.any_eq_true _ _).mp run
  obtain ⟨one, quiet⟩ := of_decide_eq_true holds
  have reach := System.reachable_of_run run
  exact ⟨s, reach, one, (request_settled.1 s reach).quiet quiet 0 (by omega)⟩

end Pi5Drivers.Spb.Handoff
