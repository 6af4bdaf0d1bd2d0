import Pi5Drivers.Mailbox.Channel
import Pi5Drivers.Mailbox.Replies

/-! A clock that is leased belongs to one file, which alone can change it. A lease ends when
the firmware says that the clock is what it was at the start, and a clock whose file goes away
before that is never leased again. -/

namespace Pi5Drivers.Mailbox

open Effect Recorded

/-! ### Leases -/

/-- A lease as a client sees it: `held` by a file since the clock had a rate and a state. -/
inductive Lease
  | free
  | held (file : ℕ) (rate state : BitVec 32)
  | abandoned
deriving DecidableEq, Repr

def ClockLease.lease (l : ClockLease) : Lease :=
  if l.abandoned then .abandoned
  else match l.owner with
    | none => .free
    | some file => .held file l.baselineRate l.baselineState

/-- The firmware's number of a clock. -/
def Clock.number : Clock → BitVec 32
  | .arm => 3
  | .v3d => 5

/-- The answers that tell the rate and the state of a clock. The first one has no state. -/
def Clock.reading (rate state : BitVec 32) : Clock → List (BitVec 32 × BitVec 32 × BitVec 32)
  | .arm => [(0x30002, 3, rate)]
  | .v3d => [(0x30001, 5, state), (0x30002, 5, rate)]

/-- A well-formed request of a file. -/
def Request.Asks (r : Request) (file : ℕ) (operation : Operation) (clock : Clock) : Prop :=
  r.kernelMode = true ∧ r.file = some file ∧ ∃ q, r.input = .ok q ∧ clockRequestValid q = some (operation, clock)

/-- What becomes of a lease when a file goes away. -/
def Lease.without (file : ℕ) : Lease → Lease
  | .held owner rate state => if owner = file then .abandoned else .held owner rate state
  | l => l

/-- What a request of a file that succeeds says about the lease of its clock, before and after,
and about the answers that it got. -/
inductive Granted (clock : Clock) (file : ℕ) (news : List Event) : Operation → Lease → Lease → Prop
  | claim {rate state : BitVec 32} : answers news = clock.reading rate state →
      Granted clock file news .claim .free (.held file rate state)
  | release {rate state : BitVec 32} : answers news = clock.reading rate state →
      Granted clock file news .release (.held file rate state) .free
  | setRate (rate state : BitVec 32) : Granted clock file news .setRate (.held file rate state) (.held file rate state)
  | setState (rate state : BitVec 32) : Granted clock file news .setState (.held file rate state) (.held file rate state)

/-- What an action may do to the leases, by how it ends. -/
inductive Leases (news : List Event) : Action → Except Status Unit → (Clock → ClockLease) → (Clock → ClockLease) → Prop
  | granted {r : Request} {file : ℕ} {operation : Operation} {clock : Clock} {before after : Clock → ClockLease} :
      r.Asks file operation clock → Granted clock file news operation (before clock).lease (after clock).lease →
      (∀ other, other ≠ clock → after other = before other) → Leases news (.control r) (.ok ()) before after
  | refused (r : Request) (s : Status) (before : Clock → ClockLease) :
      Leases news (.control r) (.error s) before before
  | cleanup {file : ℕ} {before after : Clock → ClockLease} :
      (∀ clock, (after clock).lease = (before clock).lease.without file) →
      Leases news (.cleanup file) (.ok ()) before after
  | other {a : Action} (result : Except Status Unit) (before : Clock → ClockLease) : (∀ r, a ≠ .control r) →
      (∀ file, a ≠ .cleanup file) → Leases news a result before before

/-- The commands that change a clock. -/
def Commanding (command : BitVec 32 × BitVec 32) : Prop := command.1 = 0x38001 ∨ command.1 = 0x38002

/-- A command about a clock comes from the file that holds it. -/
def Entitled (clocks : Clock → ClockLease) (a : Action) (command : BitVec 32 × BitVec 32) : Prop :=
  Commanding command → ∃ r file operation clock rate state, a = .control r ∧ r.Asks file operation clock ∧
    (clocks clock).lease = .held file rate state ∧ command.2 = clock.number

/-- An action of the driver's own clients. -/
def Action.Genuine : Action → Prop
  | .transfer .. => False
  | _ => True

/-- What an action leaves behind. -/
def Kept (c : Context) (a : Action) (result : Except Status Unit) (t : Context) : Prop :=
  ∃ news, t.trace = news ++ c.trace ∧ Leases news a result c.state.clocks t.state.clocks ∧
    ∀ command ∈ commands news, Entitled c.state.clocks a command

section Rules

variable {base : List Event} {clocks : Clock → ClockLease} {G : BitVec 32 × BitVec 32 → Prop}
  {R : List (BitVec 32 × BitVec 32 × BitVec 32) → Prop} {α : Type}

/-! ### The record of a request -/

/-- Only two queries may be answered with another name. -/
theorem reply_exact {tag id returned : BitVec 32} (h : mbxReplyIdMatches tag id returned = true)
    (timing : tag ≠ 0x40017) (measured : tag ≠ 0x30047) : returned = id := by
  simpa only [mbxReplyIdMatches, decide_eq_true_eq, timing, measured, false_and, or_false] using h

theorem readBack_notes (clock : Clock) (rate : G (0x30002, clock.number)) (state : G (0x30001, clock.number)) :
    Triple (Assert scribe (Noted base clocks G (· = []))) (readBack clock clock.number)
      (fun values => Assert scribe (Noted base clocks G (· = clock.reading values.1 values.2)))
      fun _ => Assert scribe (Noted base clocks G fun _ => True) := by
  have looseness (answer : ℕ → BitVec 32) {as : List (BitVec 32 × BitVec 32 × BitVec 32)} {tag id : BitVec 32} (c : Context)
      (h : Assert scribe (Answered base clocks G as tag 8 id answer) c) (timing : tag ≠ 0x40017)
      (measured : tag ≠ 0x30047) : Assert scribe (Noted base clocks G (· = (tag, id, answer 1) :: as)) c :=
    h.mono fun d w noted => reply_exact (noted.1 (Nat.le_refl 8)) timing measured ▸ noted.2
  refine Triple.bind (call_notes rate) fun r => ?_
  cases clock with
  | arm =>
    refine Triple.ite (fun bad => by cases bad) fun _ => ?_
    exact Triple.pure fun c h => looseness r c h (by decide) (by decide)
  | v3d =>
    refine Triple.ite (fun _ => ?_) fun bad => absurd rfl bad
    refine Triple.bind (Triple.mono (P := Assert scribe (Noted base clocks G (· = [(0x30002, 5, r 1)]))) (call_notes state)
      (fun c h => looseness r c h (by decide) (by decide)) (fun _ _ h => h) fun _ _ h => h) fun s => ?_
    exact Triple.pure fun c h => looseness s c h (by decide) (by decide)

/-- A request that succeeds, as the scribe sees it. -/
def Fulfilled (base : List Event) (clocks : Clock → ClockLease) (G : BitVec 32 × BitVec 32 → Prop) (clock : Clock)
    (file : ℕ) (operation : Operation) (d : Driver) (w : List Event) : Prop :=
  ∃ news, w = news ++ base ∧ (∀ x ∈ commands news, G x) ∧
    Granted clock file news operation (clocks clock).lease (d.clocks clock).lease ∧
    ∀ other, other ≠ clock → d.clocks other = clocks other

theorem claim_notes (file : ℕ) (clock : Clock) (available : (clocks clock).abandoned = false)
    (rate : G (0x30002, clock.number)) (state : G (0x30001, clock.number)) :
    Triple (Assert scribe (Noted base clocks G (· = []))) (claim file clock clock.number)
      (fun _ => Assert scribe (Fulfilled base clocks G clock file .claim))
      fun _ => Assert scribe (Noted base clocks G fun _ => True) := by
  refine look_rule fun d => ?_
  refine Triple.mono (P := Assert scribe fun d' w => d.clocks = clocks ∧ Noted base clocks G (· = []) d' w)
    (assume_rule fun same => ?_) (fun _ h => h.mono ?_) (fun _ _ h => h) fun _ _ h => h
  rotate_left
  · rintro d' w ⟨rfl, noted⟩
    exact ⟨noted.choose_spec.2.1, noted⟩
  refine Triple.bind (require_rule fun _ _ _ h => h.loose) fun _ => assume_rule fun free => ?_
  refine Triple.bind (readBack_notes clock rate state) fun values => ?_
  refine Triple.bind (require_rule fun _ _ _ h => h.loose) fun _ => assume_rule fun _ => ?_
  refine Triple.bind (change_rule (B := Fulfilled base clocks G clock file .claim) _ ?_) fun _ => pure_rule
  rintro d' w ⟨news, trace, rfl, good, reading⟩
  refine ⟨news, trace, good, ?_, fun other h => if_neg h⟩
  rw [same] at free
  simp only [ite_true, ClockLease.lease, available, free, Bool.false_eq_true, ite_false]
  exact .claim reading

theorem releaseClock_notes (file : ℕ) (clock : Clock) (available : (clocks clock).abandoned = false)
    (owner : (clocks clock).owner = some file) (rate : G (0x30002, clock.number)) (state : G (0x30001, clock.number)) :
    Triple (Assert scribe (Noted base clocks G (· = []))) (releaseClock clock clock.number)
      (fun _ => Assert scribe (Fulfilled base clocks G clock file .release))
      fun _ => Assert scribe (Noted base clocks G fun _ => True) := by
  refine Triple.bind (readBack_notes clock rate state) fun values => look_rule fun d => ?_
  refine Triple.mono (P := Assert scribe fun d' w => d.clocks = clocks ∧
    Noted base clocks G (· = clock.reading values.1 values.2) d' w)
    (assume_rule fun same => ?_) (fun _ h => h.mono ?_) (fun _ _ h => h) fun _ _ h => h
  rotate_left
  · rintro d' w ⟨rfl, noted⟩
    exact ⟨noted.choose_spec.2.1, noted⟩
  refine Triple.bind (require_rule fun _ _ _ h => h.loose) fun _ => assume_rule fun baseline => ?_
  refine Triple.bind (change_rule (B := Fulfilled base clocks G clock file .release) _ ?_) fun _ => pure_rule
  rintro d' w ⟨news, trace, rfl, good, reading⟩
  refine ⟨news, trace, good, ?_, fun other h => if_neg h⟩
  rw [same] at baseline
  simp only [ite_true, ClockLease.lease, available, owner, Bool.false_eq_true, ite_false]
  rw [← baseline.1, ← baseline.2]
  exact .release reading

/-- A command of the owner leaves the lease alone. -/
theorem Noted.fulfilled {d : Driver} {w : List Event} (h : Noted base clocks G R d w) {clock : Clock} {file : ℕ}
    (available : (clocks clock).abandoned = false) (owner : (clocks clock).owner = some file) {operation : Operation}
    (setting : operation = .setRate ∨ operation = .setState) : Fulfilled base clocks G clock file operation d w := by
  obtain ⟨news, trace, rfl, good, -⟩ := h
  refine ⟨news, trace, good, ?_, fun _ _ => rfl⟩
  simp only [ClockLease.lease, available, owner, Bool.false_eq_true, ite_false]
  rcases setting with rfl | rfl
  · exact .setRate _ _
  · exact .setState _ _

theorem setRate_notes (id value : BitVec 32) (good : ∀ tag, G (tag, id)) :
    Triple (Assert scribe (Noted base clocks G (· = []))) (setRate id value)
      (fun _ => Assert scribe (Noted base clocks G fun _ => True)) fun _ => Assert scribe (Noted base clocks G fun _ => True) := by
  refine Triple.bind (call_notes (good _)) fun minimum => ?_
  refine Triple.bind ((call_notes (good _)).mono (fun _ h => h.mono fun _ _ h => h.2) (fun _ _ h => h) fun _ _ h => h)
    fun maximum => ?_
  refine Triple.bind (require_rule fun _ _ _ h => h.2.loose) fun _ => assume_rule fun _ => ?_
  refine Triple.bind ((call_notes (good _)).mono (fun _ h => h.mono fun _ _ h => h.2) (fun _ _ h => h) fun _ _ h => h)
    fun data => ?_
  exact Triple.pure fun _ h => h.mono fun _ _ h => h.2.loose

theorem perform_notes {file : ℕ} {q : ClockControl} {clock : Clock} {operation : Operation} (id : q.id = clock.number)
    (available : (clocks clock).abandoned = false) (owner : operation = .claim ∨ (clocks clock).owner = some file)
    (reading : ∀ tag, ¬Commanding (tag, clock.number) → G (tag, clock.number))
    (setting : (clocks clock).owner = some file → ∀ tag, G (tag, clock.number)) :
    Triple (Assert scribe (Noted base clocks G (· = []))) (perform file q clock operation)
      (fun _ => Assert scribe (Fulfilled base clocks G clock file operation))
      fun _ => Assert scribe (Noted base clocks G fun _ => True) := by
  have rate := reading 0x30002 (by simp [Commanding])
  have state := reading 0x30001 (by simp [Commanding])
  cases operation with
  | claim =>
    rw [perform, id]
    exact claim_notes file clock available rate state
  | release =>
    rw [perform, id]
    exact releaseClock_notes file clock available (owner.resolve_left nofun) rate state
  | setRate =>
    have mine := owner.resolve_left nofun
    rw [perform, id]
    exact (setRate_notes clock.number q.value (setting mine)).mono (fun _ h => h) (fun _ _ h => h.mono fun _ _ h =>
      h.fulfilled available mine (.inl rfl)) fun _ _ h => h
  | setState =>
    have mine := owner.resolve_left nofun
    rw [perform, id]
    refine Triple.bind (call_notes (setting mine _)) fun data => Triple.pure fun _ h => h.mono fun _ _ h => ?_
    exact h.2.fulfilled available mine (.inr rfl)

theorem clockRequestValid_id {q : ClockControl} {operation : Operation} {clock : Clock}
    (h : clockRequestValid q = some (operation, clock)) : q.id = clock.number := by
  unfold clockRequestValid at h
  rcases asked : q.operation with _ | o
  · simp [asked] at h
  · by_cases arm : q.id = 3
    · simp only [asked, arm, ite_true, Option.ite_none_right_eq_some, Option.some_inj, Prod.mk.injEq] at h
      rw [← h.2.2]
      exact arm
    · by_cases v3d : q.id = 5
      · simp only [asked, v3d, show (5 : BitVec 32) ≠ 3 by decide, ite_true, ite_false, Option.ite_none_right_eq_some,
          Option.some_inj, Prod.mk.injEq] at h
        rw [← h.2.2]
        exact v3d
      · simp only [asked, if_neg arm, if_neg v3d, reduceCtorEq] at h

theorem clockControlLocked_notes (file : ℕ) (q : ClockControl) {operation : Operation} {clock : Clock}
    (valid : clockRequestValid q = some (operation, clock))
    (reading : ∀ tag, ¬Commanding (tag, clock.number) → G (tag, clock.number))
    (setting : (clocks clock).abandoned = false → (clocks clock).owner = some file → ∀ tag, G (tag, clock.number)) :
    Triple (Assert scribe (Noted base clocks G (· = []))) (clockControlLocked file q)
      (fun _ => Assert scribe (Fulfilled base clocks G clock file operation))
      fun _ => Assert scribe (Noted base clocks G fun _ => True) := by
  simp only [clockControlLocked, valid]
  refine look_rule fun d => ?_
  refine Triple.mono (P := Assert scribe fun d' w => d.clocks = clocks ∧ Noted base clocks G (· = []) d' w)
    (assume_rule fun same => ?_) (fun _ h => h.mono ?_) (fun _ _ h => h) fun _ _ h => h
  rotate_left
  · rintro d' w ⟨rfl, noted⟩
    exact ⟨noted.choose_spec.2.1, noted⟩
  rw [same]
  refine Triple.bind (require_rule fun _ _ _ h => h.loose) fun _ => assume_rule fun _ => ?_
  refine Triple.bind (require_rule fun _ _ _ h => h.loose) fun _ => assume_rule fun available => ?_
  refine Triple.bind (require_rule fun _ _ _ h => h.loose) fun _ => assume_rule fun owner => ?_
  exact Triple.bind (perform_notes (clockRequestValid_id valid) available owner reading (setting available))
    fun value => pure_rule

theorem fromWorld_notes (f : World → ℕ → Except Status α) :
    Triple (Assert scribe (Noted base clocks G R)) (fromWorld f) (fun _ => Assert scribe (Noted base clocks G R))
      fun _ => Assert scribe (Noted base clocks G R) := by
  refine Triple.bind (ask_rule _) fun r => ?_
  cases r with
  | ok a => exact pure_rule
  | error s => exact Triple.stop fun _ h => h

theorem clockControl_notes (r : Request) (clocks : Clock → ClockLease) :
    Triple (Assert scribe (Noted base clocks (Entitled clocks (.control r)) (· = []))) (clockControl r)
      (fun _ => Assert scribe fun d w => ∃ file operation clock, r.Asks file operation clock ∧
        Fulfilled base clocks (Entitled clocks (.control r)) clock file operation d w)
      fun _ => Assert scribe (Noted base clocks (Entitled clocks (.control r)) fun _ => True) := by
  unfold clockControl
  split
  · rename_i file kernel named
    refine Triple.bind (require_rule fun _ _ _ h => h.loose) fun _ => assume_rule fun _ => ?_
    rcases input : r.input with s | q
    · exact fun _ h => h.mono fun _ _ h => h.loose
    refine Triple.bind (Q := fun a c => a = q ∧ Assert scribe (Noted base clocks (Entitled clocks (.control r)) (· = [])) c)
      (fun _ h => ⟨rfl, h⟩) fun a => Triple.assume fun same => ?_
    subst same
    refine Triple.bind (require_rule fun _ _ _ h => h.loose) fun _ => assume_rule fun valid => ?_
    obtain ⟨⟨operation, clock⟩, valid⟩ := Option.isSome_iff_exists.mp valid
    refine Triple.bind (Triple.ofExcept (Q := fun _ => Assert scribe (Noted base clocks (Entitled clocks (.control r)) (· = [])))
      (fun _ _ h => h) fun _ _ h => h.mono fun _ _ h => h.loose) fun _ => ?_
    refine Triple.bind ((fromWorld_notes _).mono (fun _ h => h) (fun _ _ h => h)
      fun _ _ h => h.mono fun _ _ h => h.loose) fun _ => ?_
    have asks : r.Asks file operation clock := ⟨kernel, named, a, input, valid⟩
    refine (clockControlLocked_notes file a valid (fun tag reading setting => absurd setting reading)
      fun available owner tag _ => ?_).mono (fun _ h => h) (fun _ _ h => h.mono fun _ _ h =>
        ⟨file, operation, clock, asks, h⟩) fun _ _ h => h
    refine ⟨r, file, operation, clock, (clocks clock).baselineRate, (clocks clock).baselineState, rfl, asks, ?_, rfl⟩
    simp only [ClockLease.lease, available, owner, Bool.false_eq_true, ite_false]
  · exact Triple.stop fun _ h => h.mono fun _ _ h => h.loose

/-! ### The other actions -/

/-- A part of the driver that is none of the clients' business. -/
def Plain (x : Drive Status α) : Prop := ∀ base clocks,
  Triple (Assert scribe (Noted base clocks (¬Commanding ·) fun _ => True)) x
    (fun _ => Assert scribe (Noted base clocks (¬Commanding ·) fun _ => True))
    fun _ => Assert scribe (Noted base clocks (¬Commanding ·) fun _ => True)

namespace Plain

variable {β : Type}

theorem bind {x : Drive Status α} {f : α → Drive Status β} (hx : Plain x) (hf : ∀ a, Plain (f a)) : Plain (x >>= f) :=
  fun base clocks => Triple.bind (hx base clocks) fun a => hf a base clocks

theorem pure (a : α) : Plain (Pure.pure a : Drive Status α) := fun _ _ => pure_rule

theorem stop (s : Status) : Plain (Effect.stop s : Drive Status α) := fun _ _ => Triple.stop fun _ h => h

theorem require (p : Prop) [Decidable p] (s : Status) : Plain (Effect.require p s) :=
  fun _ _ => Triple.require (fun _ h _ => h) fun _ h _ => h

theorem when {p : Prop} [Decidable p] {x : Drive Status Unit} (hx : Plain x) : Plain (Effect.when p x) :=
  fun base clocks => Triple.when (fun _ => hx base clocks) fun _ h _ => h

theorem ask (f : World → ℕ → α) : Plain (Recorded.ask f : Drive Status α) := fun _ _ => ask_rule f

theorem look : Plain (Recorded.look : Drive Status Driver) := fun _ _ _ h => h

theorem change {f : Driver → Driver} (h : ∀ d, (f d).clocks = d.clocks) : Plain (Recorded.change f : Drive Status Unit) :=
  fun _ _ => change_rule _ fun d _ noted => noted.congr (h d)

theorem record {e : Event} (quiet : e.Quiet) : Plain (Recorded.record e : Drive Status Unit) :=
  fun _ _ => record_rule _ (fun _ _ _ => trivial) fun _ _ h => h.quiet quiet

theorem fromWorld (f : World → ℕ → Except Status α) : Plain (Mailbox.fromWorld f) := fun _ _ => fromWorld_notes f

theorem call {tag : BitVec 32} {words : List (BitVec 32)} (h : ¬Commanding (tag, words.getD 0 0)) :
    Plain (Mailbox.call tag words) := fun base clocks c ⟨order, news, trace, same, good, _⟩ => by
  have start : Assert scribe (Noted base clocks (¬Commanding ·) (· = answers news)) c := ⟨order, news, trace, same, good, rfl⟩
  exact ((call_notes h).mono (fun _ h => h) (fun _ _ h => h.mono fun _ _ h => h.2.loose) fun _ _ h => h) start

theorem free : Plain Mailbox.free := by
  refine bind look fun d => ?_
  cases d.buffer with
  | none => exact pure _
  | some b => exact bind (record trivial) fun _ => change fun _ => rfl

end Plain

theorem allocateBuffer_plain : Plain allocateBuffer := by
  refine Plain.bind (.ask _) fun b => ?_
  cases b with
  | none => exact .stop _
  | some b =>
    refine Plain.bind (.change fun _ => rfl) fun _ => ?_
    split
    · refine Plain.bind .free fun _ => Plain.bind (.fromWorld _) fun low => ?_
      cases low with
      | none => exact .stop _
      | some low => exact Plain.bind (.change fun _ => rfl) fun _ => .pure _
    · exact .pure _

theorem clearBuffer_plain (b : Common) : Plain (clearBuffer b) := by
  refine fun base clocks => Triple.each fun i _ => Triple.mapError ?_
  refine Triple.bind (record_rule _ (fun _ _ _ => trivial) fun _ _ h => h.quiet (e := .stored b.id i 0) trivial) fun _ => ?_
  exact change_rule _ fun _ _ h => h.congr rfl

theorem prepare_plain : Plain prepare := by
  refine Plain.bind (.fromWorld _) fun _ => Plain.bind (.require _ _) fun _ => Plain.bind (.fromWorld _) fun _ => ?_
  refine Plain.bind .look fun _ => Plain.bind (.require _ _) fun _ => Plain.bind (.fromWorld _) fun _ => ?_
  refine Plain.bind (.ask _) fun _ => Plain.bind (.require _ _) fun _ => Plain.bind (.change fun _ => rfl) fun _ => ?_
  refine Plain.bind (.ask _) fun _ => Plain.bind (.require _ _) fun _ => Plain.bind (.change fun _ => rfl) fun _ => ?_
  refine Plain.bind allocateBuffer_plain fun b => ?_
  split
  · exact .stop _
  refine Plain.bind (.change fun _ => rfl) fun _ => Plain.bind (.require _ _) fun _ => ?_
  refine Plain.bind (clearBuffer_plain b) fun _ => Plain.bind (.fromWorld _) fun _ => ?_
  refine Plain.bind (.change fun _ => rfl) fun _ => Plain.bind .look fun _ => Plain.bind (.require _ _) fun _ => ?_
  refine Plain.bind (.change fun _ => rfl) fun _ => Plain.bind (.fromWorld _) fun _ => ?_
  refine Plain.bind (.require _ _) fun _ => Plain.bind (.fromWorld _) fun _ => Plain.bind (.change fun _ => rfl) fun _ => ?_
  exact Plain.bind (.call (by simp [Commanding])) fun _ => .pure _

theorem release_plain : Plain release := by
  refine Plain.bind (.change fun _ => rfl) fun _ => Plain.bind .look fun _ => ?_
  refine Plain.bind (.when (Plain.bind (.fromWorld _) fun _ => .change fun _ => rfl)) fun _ => ?_
  exact Plain.bind (.when .free) fun _ => .change fun _ => rfl

theorem query_request {q : Query} {tag : BitVec 32} {words : List (BitVec 32)} (h : q.request = some (tag, words))
    (id : BitVec 32) : ¬Commanding (tag, id) := by
  cases q <;> simp only [Query.request, clockQuery, Option.ite_none_right_eq_some, Option.some_inj, Prod.mk.injEq] at h <;>
    first | rw [← h.1]; simp [Commanding] | rw [← h.2.1]; simp [Commanding]

theorem query_plain (q : Query) : Plain (query q) := by
  unfold query
  split
  · exact .stop _
  · rename_i tag words request
    exact Plain.bind (.fromWorld _) fun _ => .call (query_request request _)

end Rules

/-! ### Steps -/

section Steps

variable {c : Context}

theorem noted_start (c : Context) {G : BitVec 32 × BitVec 32 → Prop} :
    Assert scribe (Noted c.trace c.state.clocks G (· = [])) c := by
  refine ⟨scribe_order _, [], ?_, rfl, fun _ h => absurd h List.not_mem_nil, rfl⟩
  rw [scribe_watch]
  rfl

theorem Plain.kept {x : Drive Status Unit} (plain : Plain x) {a : Action} (control : ∀ r, a ≠ .control r)
    (cleanup : ∀ file, a ≠ .cleanup file) : Kept c a (x.run c).1 (x.run c).2 := by
  have after := plain c.trace c.state.clocks ((noted_start c).mono fun _ _ h => h.loose)
  have noted : Assert scribe (Noted c.trace c.state.clocks (¬Commanding ·) fun _ => True) (x.run c).2 := by
    rcases run : x.run c with ⟨r | r, t⟩ <;> rw [run] at after <;> exact after
  obtain ⟨-, news, trace, same, good, -⟩ := noted
  rw [scribe_watch] at trace
  refine ⟨news, trace, ?_, fun command h bad => absurd bad (good command h)⟩
  rw [same]
  exact .other _ _ control cleanup

theorem control_kept (r : Request) :
    Kept c (.control r) ((Action.control r).perform.run c).1 ((Action.control r).perform.run c).2 := by
  have after := clockControl_notes r c.state.clocks (noted_start c)
  rcases run : (clockControl r).run c with ⟨s | v, t⟩ <;> rw [run] at after
  · have whole : (Action.control r).perform.run c = (.error s, t) := run_bind_error run
    rw [whole]
    obtain ⟨-, news, trace, same, good, -⟩ := after
    rw [scribe_watch] at trace
    refine ⟨news, trace, ?_, good⟩
    change Leases news _ _ _ t.state.clocks
    rw [same]
    exact .refused r s _
  · have whole : (Action.control r).perform.run c = (.ok (), t) := run_bind_ok run
    rw [whole]
    obtain ⟨-, file, operation, clock, asks, news, trace, good, granted, others⟩ := after
    rw [scribe_watch] at trace
    exact ⟨news, trace, .granted asks granted others, good⟩

/-- What is left of a lease when its file goes away. -/
theorem cleanup_lease (file : ℕ) (l : ClockLease) :
    (if l.owner = some file then { l with owner := none, abandoned := true } else l).lease = l.lease.without file := by
  by_cases gone : l.abandoned = true
  · by_cases mine : l.owner = some file <;> simp [ClockLease.lease, Lease.without, gone, mine]
  · rcases owner : l.owner with _ | owner_
    · simp [ClockLease.lease, Lease.without, gone, owner]
    · by_cases mine : owner_ = file <;> simp [ClockLease.lease, Lease.without, gone, owner, mine]

theorem cleanup_kept (file : ℕ) :
    Kept c (.cleanup file) ((Action.cleanup file).perform.run c).1 ((Action.cleanup file).perform.run c).2 := by
  refine ⟨[], rfl, .cleanup fun clock => ?_, fun _ h => absurd h List.not_mem_nil⟩
  cases clock <;> exact cleanup_lease file _

theorem action_kept {a : Action} (genuine : a.Genuine) : Kept c a (a.perform.run c).1 (a.perform.run c).2 := by
  cases a with
  | prepare => exact prepare_plain.kept nofun nofun
  | release => exact release_plain.kept nofun nofun
  | claimElsewhere => exact (Plain.change fun _ => rfl).kept nofun nofun
  | query q => exact (Plain.bind (query_plain q) fun _ => .pure _).kept nofun nofun
  | control r => exact control_kept r
  | cleanup file => exact cleanup_kept file
  | transfer => exact genuine.elim

/-- A clock that is held after a step was held before it, or was claimed in it. -/
theorem Leases.held {news : List Event} {a : Action} {result : Except Status Unit} {before after : Clock → ClockLease}
    (h : Leases news a result before after) {clock : Clock} {file : ℕ} {rate state : BitVec 32}
    (held : (after clock).lease = .held file rate state) :
    (before clock).lease = .held file rate state ∨ answers news = clock.reading rate state := by
  cases h with
  | refused | other => exact .inl held
  | cleanup without =>
    rw [without] at held
    rcases old : (before clock).lease with _ | ⟨owner, r, s⟩ | _ <;> simp only [old, Lease.without] at held
    · cases held
    · split at held
      · cases held
      · exact .inl held
    · cases held
  | @granted _ _ _ leased _ _ _ granted others =>
    by_cases same : clock = leased
    · subst same
      rw [held] at granted
      generalize (before clock).lease = old at granted
      cases granted with
      | claim reading => exact .inr reading
      | setRate | setState => exact .inl rfl
    · exact .inl (others clock same ▸ held)

/-- A clock that was abandoned stays so. -/
theorem Leases.abandoned {news : List Event} {a : Action} {result : Except Status Unit} {before after : Clock → ClockLease}
    (h : Leases news a result before after) {clock : Clock} (gone : (before clock).lease = .abandoned) :
    (after clock).lease = .abandoned := by
  cases h with
  | refused | other => exact gone
  | cleanup without => simp only [without, gone, Lease.without]
  | @granted _ _ _ leased _ _ _ granted others =>
    by_cases same : clock = leased
    · subst same
      rw [gone] at granted
      cases granted
    · rw [others clock same]
      exact gone

end Steps

/-! ### Runs -/

/-- The lease of a clock goes back to answers that told its rate and state. -/
def Grounded (c : Context) : Prop := ∀ clock file rate state, (c.state.clocks clock).lease = .held file rate state →
  ∃ newer news older, c.trace = newer ++ (news ++ older) ∧ answers news = clock.reading rate state

variable {w : World} {c t : Context}

theorem genuine_next {a : Action} (genuine : a.Genuine) (next : (channel w).next c a = some t) :
    Kept c a (a.perform.run c).1 t := by
  obtain rfl : (a.perform.run c).2 = t := Option.some_inj.mp next
  exact action_kept genuine

theorem Grounded.next {a : Action} (h : Grounded c) (genuine : a.Genuine) (next : (channel w).next c a = some t) :
    Grounded t := by
  obtain ⟨news, trace, leases, -⟩ := genuine_next genuine next
  intro clock file rate state held
  rcases leases.held held with before | reading
  · obtain ⟨newer, told, older, split, reading⟩ := h clock file rate state before
    exact ⟨news ++ newer, told, older, by rw [trace, split, List.append_assoc], reading⟩
  · exact ⟨[], news, c.trace, trace, reading⟩

theorem abandoned_run {clock : Clock} {l : List Action} (genuine : ∀ a ∈ l, a.Genuine)
    (run : (channel w).runFrom c l = some t) (gone : (c.state.clocks clock).lease = .abandoned) :
    (t.state.clocks clock).lease = .abandoned := by
  induction l generalizing c with
  | nil =>
    cases run
    exact gone
  | cons a l ih =>
    obtain ⟨u, next, rest⟩ := Option.bind_eq_some_iff.mp run
    obtain ⟨here, later⟩ := List.forall_mem_cons.mp genuine
    obtain ⟨news, -, leases, -⟩ := genuine_next here next
    exact ih later rest (leases.abandoned gone)

/-- In every run of requests of any files, whatever the firmware answers: a clock is free, held
by one file or abandoned; a step grants what it should, and only the holder of a clock commands
it; a clock that is held was read when it was claimed; an abandoned clock stays abandoned. -/
theorem leases_kept (w : World) (c : Context) (h : (channel w).Reaches (fun _ a => a.Genuine) c) :
    (∀ a : Action, a.Genuine → Kept c a (a.perform.run c).1 (a.perform.run c).2) ∧ Grounded c ∧
    ∀ clock l t, (c.state.clocks clock).lease = .abandoned → (∀ a ∈ l, a.Genuine) →
      (channel w).runFrom c l = some t → (t.state.clocks clock).lease = .abandoned := by
  have grounded : Grounded c := h.invariant (I := Grounded) (fun clock _ _ _ held => by cases clock <;> cases held)
    fun a safe genuine next => safe.next genuine next
  exact ⟨fun a genuine => action_kept genuine, grounded, fun clock l t gone genuine run => abandoned_run genuine run gone⟩

/-- A firmware that tells the rate of the clock of the processors when it is asked a second time. -/
def obliging : World :=
  { mistaken with
    rxStatus := fun time => if time = 9 ∨ time = 17 then fifoEmpty else 0
    reply := fun time i => if 17 ≤ time then [32, 0x80000000, 0x30002, 8, 0x80000008, 3, 1000].getD i 0 else mistakenReply time i }

/-- A file claims that clock. -/
def claimRun : List Action := [.prepare, .control ⟨true, some 1, true, .ok ⟨1, some .claim, 3, 0⟩, .ok ()⟩]

theorem claim_kept : ∃ c, (channel obliging).runFrom (channel obliging).init claimRun = some c ∧
    (c.state.clocks .arm).lease = .held 1 1000 0 ∧
    (∀ a : Action, a.Genuine → Kept c a (a.perform.run c).1 (a.perform.run c).2) ∧ Grounded c ∧
    ∀ clock l t, (c.state.clocks clock).lease = .abandoned → (∀ a ∈ l, a.Genuine) →
      (channel obliging).runFrom c l = some t → (t.state.clocks clock).lease = .abandoned := by
  have run : ((channel obliging).runFrom (channel obliging).init claimRun).any fun c =>
      (c.state.clocks .arm).lease = .held 1 1000 0 := by decide +kernel
  have genuine : ∀ a ∈ claimRun, a.Genuine := by simp [claimRun, Action.Genuine]
  rcases result : (channel obliging).runFrom (channel obliging).init claimRun with _ | c
  · simp [result] at run
  · simp only [result, Option.any_some, decide_eq_true_eq] at run
    exact ⟨c, rfl, run, leases_kept _ c (System.reaches_of_run genuine result)⟩

end Pi5Drivers.Mailbox
