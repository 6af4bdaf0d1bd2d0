import Pi5Drivers.Mailbox.Driver

/-! What the firmware may do to memory is contained. An observer that sees the stores to the
shared buffer, the messages, the replies and the end of the buffers never sees a message
while another one is out or after a fault, nor a buffer that is written or given back while a
message is out. -/

namespace Pi5Drivers.Mailbox

open Effect Recorded

/-! ### The observer -/

/-- The messages that have not had their reply, and whether the channel is faulted. -/
structure Watch where
  outstanding : List (BitVec 32)
  faulted : Bool

/-- A reply is exact if it names the message. -/
def Watch.saw (w : Watch) : Event → Watch
  | .sent message _ => { w with outstanding := message :: w.outstanding }
  | .received reply => { w with outstanding := w.outstanding.erase reply }
  | .faulted => { w with faulted := true }
  | .stored .. | .freed _ | .answered .. => w

def Watch.Allows (w : Watch) : Event → Prop
  | .sent .. => w.outstanding = [] ∧ w.faulted = false
  | .stored .. | .freed _ => w.outstanding = []
  | .received _ | .faulted | .answered .. => True

def observer : Observer Event Watch := ⟨⟨[], false⟩, Watch.saw, Watch.Allows⟩

/-- What the flags of the driver say about what the observer saw. The first argument is whether
the channel was faulted at some time before. -/
structure Agrees (before : Bool) (d : Driver) (w : Watch) : Prop where
  fault : d.fault = w.faulted
  outstanding : d.unsafeBuffer = true ↔ w.outstanding ≠ []
  single : w.outstanding.length ≤ 1
  claimed : d.unsafeBuffer = true → d.bootClaim = true
  online : d.online = true → d.bootClaim = true
  sticky : before = true → d.fault = true

/-- The channel can be used. -/
def Ready (before : Bool) (d : Driver) (w : Watch) : Prop :=
  Agrees before d w ∧ d.bootClaim = true ∧ d.fault = false ∧ d.unsafeBuffer = false

/-- The flags agree, and the driver owns the mailbox. -/
def Owned (before : Bool) (d : Driver) (w : Watch) : Prop := Agrees before d w ∧ d.bootClaim = true

section Rules

variable {before : Bool} {d : Driver} {w : Watch} {α : Type}

theorem Agrees.calm (h : Agrees before d w) (safe : d.unsafeBuffer = false) : w.outstanding = [] :=
  not_not.mp fun some => by simp [h.outstanding.mpr some] at safe

/-- The flags and the events of a driver that only changed other fields agree as before. -/
theorem Agrees.congr (h : Agrees before d w) {e : Driver} (fault : e.fault = d.fault)
    (unsafeBuffer : e.unsafeBuffer = d.unsafeBuffer) (claim : e.bootClaim = d.bootClaim) (online : e.online = d.online) :
    Agrees before e w :=
  ⟨fault.trans h.fault, unsafeBuffer ▸ h.outstanding, h.single, fun u => claim ▸ h.claimed (unsafeBuffer ▸ u),
    fun on => claim ▸ h.online (online ▸ on), fun b => fault ▸ h.sticky b⟩

theorem Agrees.fail (h : Agrees before d w) : Agrees before { d with fault := true } { w with faulted := true } :=
  ⟨rfl, h.outstanding, h.single, h.claimed, h.online, fun _ => rfl⟩

theorem setFault_rule {A : Driver → Watch → Prop}
    (h : ∀ d w, A d w → A { d with fault := true } { w with faulted := true }) :
    Triple (Assert observer A) setFault (fun _ => Assert observer A) fun _ => Assert observer A := by
  refine Triple.bind (record_rule (B := fun d w => A { d with fault := true } w) _ (fun _ _ _ => trivial) h) fun _ => ?_
  exact change_rule _ fun _ _ hd => hd

/-- A transfer that fails leaves the flags in agreement. -/
theorem fail_rule {Q : Unit → Context → Prop} (result : MbxResult) (fatal : Bool) :
    Triple (Assert observer (Owned before)) (fail result fatal) Q fun _ => Assert observer (Owned before) := by
  refine Triple.bind (Triple.when (fun _ => setFault_rule fun d w h => ⟨h.1.fail, h.2⟩) fun _ h _ => h) fun _ => ?_
  exact Triple.stop fun _ h => h

theorem store_rule (id index : ℕ) (value : BitVec 32) {A : Driver → Watch → Prop} {E : MbxResult → Context → Prop}
    (calm : ∀ d w, A d w → w.outstanding = [])
    (h : ∀ d w words, A d w → A { d with words := words } w) :
    Triple (Assert observer A) (store id index value) (fun _ => Assert observer A) E := by
  refine Triple.bind (record_rule (B := A) _ calm fun _ _ hd => hd) fun _ => ?_
  exact change_rule _ fun d w hd => h d w _ hd

theorem awaitRoom_rule (n : ℕ) :
    Triple (Assert observer (Ready before)) (awaitRoom n) (fun _ => Assert observer (Ready before))
      fun _ => Assert observer (Owned before) := by
  induction n with
  | zero =>
    refine Triple.bind (ask_rule _) fun _ => Triple.ite (fun _ => pure_rule) fun _ => ?_
    exact (fail_rule _ _).mono (fun _ h => h.mono fun _ _ h => ⟨h.1, h.2.1⟩) (fun _ _ h => h) fun _ _ h => h
  | succ n ih => exact Triple.bind (ask_rule _) fun _ => Triple.ite (fun _ => pure_rule) fun _ => ih

/-- A message is out. -/
def Out (before : Bool) (sent : BitVec 32) (d : Driver) (w : Watch) : Prop :=
  Owned before d w ∧ w.outstanding = [sent]

theorem takeReply_rule (sent : BitVec 32) :
    Triple (Assert observer (Out before sent)) (takeReply sent) (fun _ => Assert observer (Owned before))
      fun _ => Assert observer (Owned before) := by
  refine Triple.bind (ask_rule _) fun reply => ?_
  by_cases exact_ : reply = sent
  · subst exact_
    refine Triple.bind (record_rule (B := fun d w => Owned before { d with unsafeBuffer := false } w) _
      (fun _ _ _ => trivial) fun d w h => ?_) fun _ => ?_
    · have empty : (w.saw (.received reply)).outstanding = [] := by simp [Watch.saw, h.2]
      have agrees := h.1.1
      exact ⟨⟨agrees.fault, by simp [observer, empty], by simp [observer, empty],
        fun bad => absurd bad Bool.false_ne_true, agrees.online, agrees.sticky⟩, h.1.2⟩
    · rw [if_neg (by simp)]
      exact change_rule _ fun _ _ h => h
  · refine Triple.bind (record_rule (B := Owned before) _ (fun _ _ _ => trivial) fun d w h => ?_) fun _ => ?_
    · have same : w.saw (.received reply) = w := by
        rw [Watch.saw, List.erase_of_not_mem (by simp [h.2, exact_])]
      change Owned before d (w.saw (.received reply))
      rw [same]
      exact h.1
    · rw [if_pos exact_]
      exact fail_rule _ _

theorem awaitReply_rule (sent : BitVec 32) (n : ℕ) :
    Triple (Assert observer (Out before sent)) (awaitReply sent n) (fun _ => Assert observer (Owned before))
      fun _ => Assert observer (Owned before) := by
  induction n with
  | zero =>
    refine Triple.bind (ask_rule _) fun _ => Triple.ite (fun _ => takeReply_rule sent) fun _ => ?_
    exact (fail_rule _ _).mono (fun _ h => h.mono fun _ _ h => h.1) (fun _ _ h => h) fun _ _ h => h
  | succ n ih => exact Triple.bind (ask_rule _) fun _ => Triple.ite (fun _ => takeReply_rule sent) fun _ => ih

theorem exchange_rule (tag : BitVec 32) (bytes id : ℕ) :
    Triple (Assert observer (Ready before)) (exchange tag bytes id) (fun _ => Assert observer (Owned before))
      fun _ => Assert observer (Owned before) := by
  refine glance_rule fun d => ?_
  refine Triple.bind (Triple.each fun s _ => store_rule id s.1 s.2 (fun _ _ h => h.1.calm h.2.2.2)
    fun _ _ _ h => ⟨h.1.congr rfl rfl rfl rfl, h.2⟩) fun _ => ?_
  refine glance_rule fun d => ?_
  refine Triple.bind (change_rule (B := fun d w => Ready before { d with unsafeBuffer := false } w ∧ d.unsafeBuffer = true)
    _ fun d w h => ?_) fun _ => ?_
  · obtain ⟨agrees, claim, fine, safe⟩ := h
    exact ⟨⟨agrees.congr rfl safe.symm rfl rfl, claim, fine, rfl⟩, rfl⟩
  refine Triple.bind (record_rule (B := Out before (d.address ||| 8)) _ (fun d w h => ?_) fun d w h => ?_) fun _ => ?_
  · obtain ⟨⟨agrees, -, fine, -⟩, -⟩ := h
    exact ⟨agrees.calm rfl, by rw [← agrees.fault]; exact fine⟩
  · obtain ⟨⟨agrees, claim, fine, -⟩, pending⟩ := h
    have empty : w.outstanding = [] := agrees.calm rfl
    refine ⟨⟨⟨agrees.fault, ?_, ?_, fun _ => claim, agrees.online, agrees.sticky⟩, claim⟩, ?_⟩ <;>
      simp [observer, Watch.saw, empty, pending]
  · exact Triple.bind (ask_rule _) fun n => awaitReply_rule _ n

theorem takeWords_rule (tag : BitVec 32) (bytes : ℕ) :
    Triple (Assert observer (Owned before)) (takeWords tag bytes) (fun _ => Assert observer (Owned before))
      fun _ => Assert observer (Owned before) := by
  refine Triple.bind (ask_rule _) fun reply => ?_
  refine Triple.ite (fun _ => fail_rule _ _) fun _ => Triple.ite (fun _ => fail_rule _ _) fun _ => ?_
  refine Triple.ite (fun _ => fail_rule _ _) fun _ => change_rule _ fun _ _ h => ⟨h.1.congr rfl rfl rfl rfl, h.2⟩

theorem mbxTransfer_rule (tag : BitVec 32) (bytes : ℕ) :
    Triple (Assert observer (Owned before)) (mbxTransfer tag bytes) (fun _ => Assert observer (Owned before))
      fun _ => Assert observer (Owned before) := by
  refine look_rule fun d => ?_
  refine Triple.bind (require_rule fun _ _ _ h => h.2) fun _ => ?_
  refine Triple.bind (require_rule fun _ _ _ h => h.2.2) fun _ => ?_
  refine Triple.bind (ask_rule _) fun status => ?_
  refine Triple.ite (fun _ => (fail_rule _ _).mono (fun _ h => h.mono fun _ _ h => h.2.2.2) (fun _ _ h => h)
    fun _ _ h => h) fun _ => ?_
  refine Triple.bind (ask_rule _) fun n => ?_
  refine Triple.bind ((awaitRoom_rule n).mono (fun _ h => h.mono ?_) (fun _ _ h => h) fun _ _ h => h) fun _ => ?_
  · rintro d' w ⟨⟨fine, safe⟩, -, rfl, owned⟩
    exact ⟨owned.1, owned.2, fine, safe⟩
  · exact Triple.bind (exchange_rule tag bytes _) fun _ => takeWords_rule tag bytes

/-- A part of the driver that leaves the flags in agreement, however it ends. -/
def Agreeing (before : Bool) (x : Drive Status α) : Prop :=
  Triple (Assert observer (Agrees before)) x (fun _ => Assert observer (Agrees before)) fun _ =>
    Assert observer (Agrees before)

theorem transfer_rule (tag : BitVec 32) (bytes : ℕ) : Agreeing before (transfer tag bytes) := by
  refine look_rule fun d => ?_
  refine Triple.bind (require_rule fun _ _ _ h => h.2) fun _ => ?_
  refine Triple.bind (Triple.mapError ((mbxTransfer_rule tag bytes).mono (fun _ h => h.mono ?_) (fun _ _ h => h)
    fun _ _ h => h.mono fun _ _ h => h.1)) fun _ => ?_
  · rintro d' w ⟨⟨online, -⟩, rfl, agrees⟩
    exact ⟨agrees, agrees.online online⟩
  refine glance_rule fun d => Triple.ite (fun _ => ?_) fun _ => ?_
  · refine Triple.bind ?_ fun _ => Triple.stop fun _ h => h
    refine Triple.bind (record_rule (B := fun d w => Agrees before { d with fault := true } w) _ (fun _ _ _ => trivial)
      fun _ _ h => h.1.fail) fun _ => ?_
    exact change_rule _ fun _ _ h => h
  · exact record_rule _ (fun _ _ _ => trivial) fun _ _ h => h.1

theorem agreeing_require {p : Prop} [Decidable p] (e : Status) : Agreeing before (require p e) :=
  Triple.require (fun _ h _ => h) fun _ h _ => h

theorem agreeing_stop (e : Status) : Agreeing before (stop e : Drive Status α) := Triple.stop fun _ h => h

theorem call_rule (tag : BitVec 32) (words : List (BitVec 32)) : Agreeing before (call tag words) := by
  refine Triple.bind (change_rule _ fun _ _ h => h.congr rfl rfl rfl rfl) fun _ => ?_
  exact Triple.bind (transfer_rule tag _) fun _ => glance_rule fun _ => pure_rule

theorem fromWorld_rule {β : Type} {A : Driver → Watch → Prop} (f : World → ℕ → Except Status β) :
    Triple (Assert observer A) (fromWorld f) (fun _ => Assert observer A) fun _ => Assert observer A := by
  refine Triple.bind (ask_rule _) fun r => ?_
  cases r with
  | ok a => exact pure_rule
  | error s => exact Triple.stop fun _ h => h

/-! ### Start and end -/

/-- The flags agree, and the driver never owned the mailbox. -/
def Fresh (before : Bool) (d : Driver) (w : Watch) : Prop := Agrees before d w ∧ d.bootClaim = false

theorem Fresh.calm (h : Fresh before d w) : w.outstanding = [] :=
  h.1.calm (Bool.eq_false_iff.mpr fun pending => by simpa [h.1.claimed pending] using h.2)

theorem Fresh.congr (h : Fresh before d w) {e : Driver} (fault : e.fault = d.fault)
    (unsafeBuffer : e.unsafeBuffer = d.unsafeBuffer) (claim : e.bootClaim = d.bootClaim) (online : e.online = d.online) :
    Fresh before e w :=
  ⟨h.1.congr fault unsafeBuffer claim online, claim.trans h.2⟩

theorem free_rule {A : Driver → Watch → Prop} (calm : ∀ d w, A d w → w.outstanding = [])
    (h : ∀ d w, A d w → A { d with buffer := none } w) :
    Triple (Assert observer A) free (fun _ => Assert observer A) fun _ => Assert observer A := by
  refine glance_rule fun d => ?_
  cases d.buffer with
  | none => exact pure_rule
  | some b => exact Triple.bind (record_rule (B := A) _ calm fun _ _ h => h) fun _ => change_rule _ h

/-- A part of the start before the driver owns the mailbox. -/
def Starting (before : Bool) (x : Drive Status α) : Prop :=
  Triple (Assert observer (Fresh before)) x (fun _ => Assert observer (Fresh before)) fun _ =>
    Assert observer (Agrees before)

theorem starting_of {x : Drive Status α} (h : Triple (Assert observer (Fresh before)) x
    (fun _ => Assert observer (Fresh before)) fun _ => Assert observer (Fresh before)) : Starting before x :=
  h.mono (fun _ h => h) (fun _ _ h => h) fun _ _ h => h.mono fun _ _ h => h.1

theorem starting_require {p : Prop} [Decidable p] (e : Status) : Starting before (require p e) :=
  starting_of (Triple.require (fun _ h _ => h) fun _ h _ => h)

theorem starting_change {f : Driver → Driver} (h : ∀ d w, Fresh before d w → Fresh before (f d) w) :
    Starting before (change f) :=
  change_rule f h

theorem starting_stop (e : Status) : Starting before (stop e : Drive Status α) := starting_of (Triple.stop fun _ h => h)

theorem allocateBuffer_rule : Starting before allocateBuffer := by
  refine Triple.bind (ask_rule _) fun b => ?_
  cases b with
  | none => exact starting_stop _
  | some b =>
    refine Triple.bind (starting_change fun _ _ h => h.congr rfl rfl rfl rfl) fun _ => ?_
    refine Triple.ite (fun _ => ?_) fun _ => pure_rule
    refine Triple.bind (starting_of (free_rule (fun _ _ h => h.calm) fun _ _ h => h.congr rfl rfl rfl rfl)) fun _ => ?_
    refine Triple.bind (starting_of (fromWorld_rule _)) fun low => ?_
    cases low with
    | none => exact starting_stop _
    | some low => exact Triple.bind (starting_change fun _ _ h => h.congr rfl rfl rfl rfl) fun _ => pure_rule

theorem clearBuffer_rule (b : Common) : Starting before (clearBuffer b) := by
  refine Triple.each fun i _ => Triple.mapError ?_
  exact store_rule _ _ _ (fun _ _ h => h.calm) fun _ _ _ h => h.congr rfl rfl rfl rfl

/-- The mailbox is claimed for good, and the first message is sent. -/
theorem prepare_rule : Agreeing before prepare := by
  refine Triple.bind (fromWorld_rule _) fun values => ?_
  refine Triple.bind (agreeing_require _) fun _ => ?_
  refine Triple.bind (fromWorld_rule _) fun values => look_rule fun d => ?_
  refine Triple.bind (require_rule fun _ _ _ h => h.2) fun _ => ?_
  -- From here on no message is out, since the driver never owned the mailbox.
  refine Triple.bind (Q := fun _ => Assert observer (Fresh before))
    ((starting_of (fromWorld_rule _)).mono (fun _ h => h.mono ?_) (fun _ _ h => h) fun _ _ h => h) fun _ => ?_
  · rintro d' w ⟨⟨-, -, -, new⟩, rfl, agrees⟩
    exact ⟨agrees, new⟩
  refine Triple.bind (ask_rule _) fun mapped => Triple.bind (starting_require _) fun _ => ?_
  refine Triple.bind (starting_change fun _ _ h => h.congr rfl rfl rfl rfl) fun _ => ?_
  refine Triple.bind (ask_rule _) fun adapter => Triple.bind (starting_require _) fun _ => ?_
  refine Triple.bind (starting_change fun _ _ h => h.congr rfl rfl rfl rfl) fun _ => ?_
  refine Triple.bind allocateBuffer_rule fun b => ?_
  split
  · exact Triple.stop fun _ h => h.mono fun _ _ h => h.1
  refine Triple.bind (starting_change fun _ _ h => h.congr rfl rfl rfl rfl) fun _ => ?_
  refine Triple.bind (starting_require _) fun _ => Triple.bind (clearBuffer_rule b) fun _ => ?_
  refine Triple.bind (starting_of (fromWorld_rule _)) fun _ => ?_
  refine Triple.bind (starting_change fun _ _ h => h.congr rfl rfl rfl rfl) fun _ => glance_rule fun d => ?_
  refine Triple.bind (starting_require _) fun _ => ?_
  -- The claim stays, whatever fails after it.
  refine Triple.bind (change_rule (B := Owned before) _ fun d w h => ?_) fun _ => ?_
  · exact ⟨⟨h.1.fault, h.1.outstanding, h.1.single, fun _ => rfl, fun _ => rfl, h.1.sticky⟩, rfl⟩
  have escape {β : Type} {x : Drive Status β} (h : Triple (Assert observer (Owned before)) x
      (fun _ => Assert observer (Owned before)) fun _ => Assert observer (Owned before)) :
      Triple (Assert observer (Owned before)) x (fun _ => Assert observer (Owned before)) fun _ =>
        Assert observer (Agrees before) := h.mono (fun _ h => h) (fun _ _ h => h) fun _ _ h => h.mono fun _ _ h => h.1
  refine Triple.bind (escape (fromWorld_rule _)) fun values => ?_
  refine Triple.bind (escape (Triple.require (fun _ h _ => h) fun _ h _ => h)) fun _ => ?_
  refine Triple.bind (escape (fromWorld_rule _)) fun _ => ?_
  refine Triple.bind (change_rule (B := Agrees before) _ fun d w h => ?_) fun _ => ?_
  · exact ⟨h.1.fault, h.1.outstanding, h.1.single, h.1.claimed, fun _ => h.2, h.1.sticky⟩
  exact Triple.bind (call_rule _ _) fun _ => pure_rule

theorem release_rule : Agreeing before release := by
  refine Triple.bind (change_rule (B := fun d w => d.online = false ∧ Agrees before d w) _ fun d w h => ?_) fun _ => ?_
  · exact ⟨rfl, h.fault, h.outstanding, h.single, h.claimed, fun bad => absurd bad Bool.false_ne_true, h.sticky⟩
  refine look_rule fun d => ?_
  refine Triple.bind (Q := fun _ => Assert observer fun e w => e.unsafeBuffer = d.unsafeBuffer ∧ Agrees before e w)
    (Triple.when (fun _ => ?_) fun _ h _ => h.mono ?_) fun _ => ?_
  · refine Triple.bind ((fromWorld_rule _).mono (fun _ h => h) (fun _ _ h => h) fun _ _ h =>
      h.mono fun _ _ h => h.2.2) fun _ => change_rule _ ?_
    rintro e w ⟨rfl, -, agrees⟩
    exact ⟨rfl, agrees.congr rfl rfl rfl rfl⟩
  · rintro e w ⟨rfl, -, agrees⟩
    exact ⟨rfl, agrees⟩
  refine Triple.bind (Q := fun _ => Assert observer (Agrees before)) (Triple.when (fun safe => ?_) fun _ h _ =>
    h.mono fun _ _ h => h.2) fun _ => ?_
  · refine (free_rule (A := fun e w => e.unsafeBuffer = d.unsafeBuffer ∧ Agrees before e w) (fun e w h =>
      h.2.calm (h.1.trans safe)) fun _ _ h => ⟨h.1, h.2.congr rfl rfl rfl rfl⟩).mono (fun _ h => h) ?_ ?_ <;>
      exact fun _ _ h => h.mono fun _ _ h => h.2
  · exact change_rule _ fun _ _ h => h.congr rfl rfl rfl rfl

/-! ### Requests -/

theorem query_rule (q : Query) : Agreeing before (query q) := by
  unfold query
  split
  · exact agreeing_stop _
  · exact Triple.bind (fromWorld_rule _) fun _ => call_rule _ _

theorem setClock_rule (c : Clock) (f : ClockLease → ClockLease) : Agreeing before (setClock c f) :=
  change_rule _ fun _ _ h => h.congr rfl rfl rfl rfl

theorem readBack_rule (clock : Clock) (id : BitVec 32) : Agreeing before (readBack clock id) := by
  refine Triple.bind (call_rule _ _) fun rate => Triple.ite (fun _ => ?_) fun _ => pure_rule
  exact Triple.bind (call_rule _ _) fun state => pure_rule

theorem claim_rule (file : ℕ) (clock : Clock) (id : BitVec 32) : Agreeing before (claim file clock id) := by
  refine glance_rule fun d => Triple.bind (agreeing_require _) fun _ => Triple.bind (readBack_rule _ _) fun values => ?_
  exact Triple.bind (agreeing_require _) fun _ => Triple.bind (setClock_rule _ _) fun _ => pure_rule

theorem releaseClock_rule (clock : Clock) (id : BitVec 32) : Agreeing before (releaseClock clock id) := by
  refine Triple.bind (readBack_rule _ _) fun values => glance_rule fun d => ?_
  exact Triple.bind (agreeing_require _) fun _ => Triple.bind (setClock_rule _ _) fun _ => pure_rule

theorem setRate_rule (id value : BitVec 32) : Agreeing before (setRate id value) := by
  refine Triple.bind (call_rule _ _) fun minimum => Triple.bind (call_rule _ _) fun maximum => ?_
  exact Triple.bind (agreeing_require _) fun _ => Triple.bind (call_rule _ _) fun _ => pure_rule

theorem perform_rule (file : ℕ) (q : ClockControl) (clock : Clock) (operation : Operation) :
    Agreeing before (perform file q clock operation) := by
  cases operation with
  | claim => exact claim_rule _ _ _
  | release => exact releaseClock_rule _ _
  | setRate => exact setRate_rule _ _
  | setState => exact Triple.bind (call_rule _ _) fun _ => pure_rule

theorem clockControlLocked_rule (file : ℕ) (q : ClockControl) : Agreeing before (clockControlLocked file q) := by
  unfold clockControlLocked
  split
  · exact agreeing_stop _
  refine glance_rule fun d => Triple.bind (agreeing_require _) fun _ => Triple.bind (agreeing_require _) fun _ => ?_
  exact Triple.bind (agreeing_require _) fun _ => Triple.bind (perform_rule _ _ _ _) fun _ => pure_rule

theorem clockControl_rule (r : Request) : Agreeing before (clockControl r) := by
  unfold clockControl
  split
  · refine Triple.bind (agreeing_require _) fun _ => Triple.bind (Triple.ofExcept (fun _ _ h => h) fun _ _ h => h) fun q => ?_
    refine Triple.bind (agreeing_require _) fun _ => ?_
    refine Triple.bind (Triple.ofExcept (fun _ _ h => h) fun _ _ h => h) fun _ => ?_
    exact Triple.bind (fromWorld_rule _) fun _ => clockControlLocked_rule _ _
  · exact agreeing_stop _

theorem clockCleanup_rule (file : ℕ) : Agreeing before (clockCleanup file) := Triple.each fun _ _ => setClock_rule _ _

end Rules

end Pi5Drivers.Mailbox
