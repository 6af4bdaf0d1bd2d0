import Mathlib.Logic.Function.Basic
import Pi5Drivers.Lib.Runs
import Pi5Drivers.Spb.Request

/-! How a request is handed over between `Begin`, the cancel routine, the worker and the stop of the
device. Each routine is a sequence of steps that no lock separates further, and the steps of all
routines come in any order. The two drivers differ in the transfers they take, and in what their
hardware does. -/

namespace Pi5Drivers.Spb.Handoff

abbrev Outcome := Except Status Unit

/-- Where `Begin` is with a request: at its last step, it has failed it, withdrawn it or enqueued the worker. -/
inductive Begin
  | none
  | entry
  | lock
  | mark
  | forget (status : Status)
  | complete
  | release
  | withdrawn
  | enqueue
  | enqueued
  | fail (status : Status)
  | failed
deriving DecidableEq

/-- Where the cancel routine is. -/
inductive Cancel
  | none
  | entry
  | wake
  | hand
  | complete
  | release
  | done
deriving DecidableEq

/-- Whether the system may call the cancel routine, or has called it. -/
inductive Cancelable
  | unmarked
  | marked
  | called
deriving DecidableEq

/-- What the worker does as long as the request is the current one. It wakes so many times before the
deadline. -/
inductive Work
  | fetch
  | cancelled
  | online
  | timing
  | program
  | awake (wakes : ℕ)
  | live (wakes : ℕ)
  | deadline (wakes : ℕ)
  | pump (wakes : ℕ)
  | retire (outcome : Outcome)
  | deliver (outcome : Outcome)
  | publish (outcome : Outcome)
  | forget

/-- Where a run of the worker is, with the request it took. -/
inductive Run
  | none
  | queued
  | entry
  | working (request : ℕ) (work : Work)
  | unmark (request : ℕ)
  | hand (request : ℕ)
  | complete (request : ℕ)
  | release (request : ℕ)
  | done

/-- The context of a request, as far as the routines share it. In `Completion` the cancel routine says
that it has returned, and the worker that it has finished. -/
structure Context where
  cancelled : Bool
  returned : Bool
  finished : Bool
  status : Outcome

def Context.zero : Context := ⟨false, false, false, .ok ()⟩

/-- A request with the routines that have to do with it; a run of the worker goes with the request whose
`Begin` enqueued it. -/
structure Request where
  valid : Bool
  wakes : ℕ
  context : Context
  begin : Begin
  cancel : Cancel
  run : Run
  asked : Bool
  cancelable : Cancelable
  answers : List Outcome
  taken : ℕ
  released : ℕ

/-- Where the stop of the device is. -/
inductive Stop
  | none
  | flush
  | hardware
deriving DecidableEq

/-- The controller, with the requests in the order in which they were dispatched. -/
structure State where
  current : Option ℕ
  online : Bool
  requests : ℕ → Request
  dispatched : ℕ
  stop : Stop

inductive Event (J : Type)
  /-- A request is dispatched; its context has some old content. -/
  | dispatch (job : J) (wakes : ℕ) (context : Context)
  /-- The next step of `Begin`; marking the request may fail with some status. -/
  | begin (r : ℕ) (fails : Option Status)
  /-- The system wants the request cancelled. -/
  | ask (r : ℕ)
  | cancel (r : ℕ)
  /-- The queued worker starts to run. -/
  | start (r : ℕ)
  /-- The next step of the worker, with what the device makes of it. -/
  | work (r : ℕ) (device : Except Status Bool)
  | stop
  | stopping
  /-- The interrupt is enabled or disabled. -/
  | interrupt (enabled : Bool)

namespace Request

/-- `Complete` up to the reference. -/
def complete (q : Request) : Request :=
  { q with answers := (if q.context.cancelled then .error .cancelled else q.context.status) :: q.answers }

def release (q : Request) : Request := { q with released := q.released + 1 }

end Request

namespace State

def put (s : State) (r : ℕ) (f : Request → Request) : State :=
  { s with requests := Function.update s.requests r (f (s.requests r)) }

def enter (s : State) (r : ℕ) : State := { s with current := some r }

def leave (s : State) : State := { s with current := none }

/-- The worker waits to run. -/
def Queued (s : State) : Prop := ∃ r < s.dispatched, (s.requests r).run matches .queued

/-- No run of the worker is queued or under way. -/
def Flushed (s : State) : Prop := ∀ r < s.dispatched, (s.requests r).run matches .none | .done

instance (s : State) : Decidable s.Queued := inferInstanceAs (Decidable (∃ r < s.dispatched, _))

instance (s : State) : Decidable s.Flushed := inferInstanceAs (Decidable (∀ r < s.dispatched, _))

end State

/-- A step of `Begin`. Enqueuing a worker that is queued already does nothing. -/
def beginStep (s : State) (r : ℕ) (fails : Option Status) : Option State :=
  match (s.requests r).begin with
  | .entry => some <| s.put r fun q =>
    if q.valid then { q with begin := .lock, context := .zero } else { q with begin := .fail .invalidParameter }
  | .lock => some <|
    if s.current ≠ none ∨ s.online = false then s.put r fun q => { q with begin := .fail .deviceNotReady }
    else (s.enter r).put r fun q => { q with begin := .mark, taken := q.taken + 1 }
  | .mark => some <| s.put r fun q =>
    match if q.asked then some .cancelled else fails with
    | some status => { q with begin := .forget status }
    | none => { q with begin := .enqueue, cancelable := .marked }
  | .forget status => some <| s.leave.put r fun q =>
    { q with begin := .complete, context := { q.context with status := .error status } }
  | .complete => some <| s.put r fun q => { q.complete with begin := .release }
  | .release => some <| s.put r fun q => { q.release with begin := .withdrawn }
  | .enqueue => some <| s.put r fun q => { q with begin := .enqueued, run := if s.Queued then q.run else .queued }
  | .fail status => some <| s.put r fun q => { q with begin := .failed, answers := .error status :: q.answers }
  | .none | .withdrawn | .enqueued | .failed => none

/-- A step of the cancel routine. -/
def cancelStep (s : State) (r : ℕ) : Option State :=
  match (s.requests r).cancel with
  | .entry => some <| s.put r fun q => { q with cancel := .wake, context := { q.context with cancelled := true } }
  | .wake => some <| s.put r fun q => { q with cancel := .hand }
  | .hand => some <| s.put r fun q =>
    { q with cancel := if q.context.finished then .complete else .done, context := { q.context with returned := true } }
  | .complete => some <| s.put r fun q => { q.complete with cancel := .release }
  | .release => some <| s.put r fun q => { q.release with cancel := .done }
  | .none | .done => none

/-- What went well so far may still fail at the device. -/
def Work.then (outcome : Outcome) (device : Except Status Bool) : Outcome :=
  match outcome, device with
  | .ok (), .error e => .error e
  | outcome, _ => outcome

/-- How the worker goes on with a request, up to the end of the loop and to the copy of what was received. -/
def Work.next (q : Request) (online : Bool) (device : Except Status Bool) : Work → Work
  | .fetch => match device with
    | .ok _ => .cancelled
    | .error e => .deliver (.error e)
  | .cancelled => if q.context.cancelled then .deliver (.error .cancelled) else .online
  | .online => if online then .timing else .deliver (.error .devicePowerFailure)
  | .timing => match device with
    | .ok _ => .program
    | .error e => .deliver (.error e)
  | .program => match device with
    | .ok _ => .awake q.wakes
    | .error e => .retire (.error e)
  | .awake wakes => if q.context.cancelled then .retire (.error .cancelled) else .live wakes
  | .live wakes => if online then .deadline wakes else .retire (.error .devicePowerFailure)
  | .deadline 0 => .retire (.error .ioTimeout)
  | .deadline (wakes + 1) => .pump wakes
  | .pump wakes =>
    if online then match device with
      | .ok true => .retire (.ok ())
      | .ok false => .awake wakes
      | .error e => .retire (.error e)
    else .retire (.error .devicePowerFailure)
  | .retire outcome => .deliver (Work.then outcome device)
  | .deliver outcome => .publish (Work.then outcome device)
  | .publish _ => .forget
  | .forget => .forget

/-- A step of the worker. -/
def workStep (s : State) (r : ℕ) (device : Except Status Bool) : Option State :=
  match (s.requests r).run with
  | .entry => some <| s.put r fun q =>
    { q with run := match s.current with
      | some p => .working p .fetch
      | none => .done }
  | .working p .forget => some <| s.leave.put r fun q => { q with run := .unmark p }
  | .working p (.publish outcome) => some <|
    (s.put p fun q => { q with context := { q.context with status := outcome } }).put r fun q => { q with run := .working p .forget }
  | .working p work => some <| s.put r fun q => { q with run := .working p (work.next (s.requests p) s.online device) }
  | .unmark p => some <|
    if (s.requests p).cancelable = .called then s.put r fun q => { q with run := .hand p }
    else (s.put p fun q => { q with cancelable := .unmarked }).put r fun q => { q with run := .complete p }
  | .hand p => some <|
    (s.put p fun q => { q with context := { q.context with finished := true } }).put r fun q =>
      { q with run := if (s.requests p).context.returned then .complete p else .done }
  | .complete p => some <| (s.put p Request.complete).put r fun q => { q with run := .release p }
  | .release p => some <| (s.put p Request.release).put r fun q => { q with run := .done }
  | .none | .queued | .done => none

/-- The system asks for cancellation once, and only of a request that is not completed. -/
def askStep (s : State) (r : ℕ) : Option State :=
  if r < s.dispatched ∧ (s.requests r).asked = false ∧ (s.requests r).answers = [] then
    some <| s.put r fun q =>
      if q.cancelable = .marked then { q with asked := true, cancelable := .called, cancel := .entry } else { q with asked := true }
  else none

def startStep (s : State) (r : ℕ) : Option State :=
  match (s.requests r).run with
  | .queued => some <| s.put r fun q => { q with run := .entry }
  | _ => none

/-- The device is to stop. -/
def haltStep (s : State) : Option State :=
  match s.stop with
  | .none => some { s with online := false, stop := .flush }
  | _ => none

/-- A step of the stop, which waits until the worker is flushed. -/
def stopStep (s : State) : Option State :=
  match s.stop with
  | .none => none
  | .flush => if s.Flushed then some { s with stop := .hardware } else none
  | .hardware => some { s with stop := .none }

def fresh (valid : Bool) (wakes : ℕ) (context : Context) : Request :=
  ⟨valid, wakes, context, .entry, .none, .none, false, .unmarked, [], 0, 0⟩

/-- The steps of a driver that takes some jobs. -/
def next {J : Type} (takes : J → Bool) (s : State) : Event J → Option State
  | .dispatch job wakes context => some
    { s with
      requests := Function.update s.requests s.dispatched (fresh (takes job) wakes context)
      dispatched := s.dispatched + 1 }
  | .begin r fails => beginStep s r fails
  | .ask r => askStep s r
  | .cancel r => cancelStep s r
  | .start r => startStep s r
  | .work r device => workStep s r device
  | .stop => haltStep s
  | .stopping => stopStep s
  | .interrupt enabled => some { s with online := enabled }

def system {J : Type} (takes : J → Bool) : System State (Event J) where
  init := ⟨none, false, fun _ => { fresh false 0 .zero with begin := .none }, 0, .none⟩
  next := next takes

end Pi5Drivers.Spb.Handoff
