import Pi5Drivers.Mailbox.Driver

/-! What a part of the driver sends and what it is answered. The words of a message are
those of the caller, so the commands in a trace are the ones that the driver meant to give,
and each answer names what was asked for. -/

namespace Pi5Drivers.Mailbox

open Effect Recorded

/-! ### Messages -/

/-- The shared buffer after some stores. -/
def written : List (ℕ × BitVec 32) → (ℕ → BitVec 32) → ℕ → BitVec 32
  | [], words => words
  | s :: l, words => written l fun i => if i = s.1 then s.2 else words i

theorem written_append (l m : List (ℕ × BitVec 32)) (words : ℕ → BitVec 32) :
    written (l ++ m) words = written m (written l words) := by
  induction l generalizing words with
  | nil => rfl
  | cons s l ih => exact ih _

theorem written_of_forall {l : List (ℕ × BitVec 32)} {i : ℕ} (h : ∀ s ∈ l, s.1 ≠ i) (words : ℕ → BitVec 32) :
    written l words i = words i := by
  induction l generalizing words with
  | nil => rfl
  | cons s l ih =>
    rw [written, ih fun t ht => h t (List.mem_cons_of_mem s ht)]
    exact if_neg (Ne.symm (h s List.mem_cons_self))

variable {tag : BitVec 32} {bytes : ℕ} {data : ℕ → BitVec 32}

/-- A message holds its tag. -/
theorem message_tag (words : ℕ → BitVec 32) : written (message tag bytes data) words 2 = tag := by
  rw [message, written_append, written_of_forall (fun s hs => ?_), written_append]
  · rfl
  · obtain ⟨i, -, rfl⟩ := List.mem_map.mp hs
    change 5 + i ≠ 2
    omega

/-- And what is asked for. -/
theorem message_selector (some_ : 4 ≤ bytes) (words : ℕ → BitVec 32) :
    written (message tag bytes data) words 5 = data 0 := by
  obtain ⟨n, hn⟩ : ∃ n, bytes / 4 = n + 1 := ⟨bytes / 4 - 1, by omega⟩
  rw [message, written_append, hn, List.range_succ_eq_map, List.map_cons, written, written_of_forall (fun s hs => ?_)]
  · rfl
  · simp only [List.map_map, List.mem_map, List.mem_range] at hs
    obtain ⟨i, -, rfl⟩ := hs
    change 5 + (i + 1) ≠ 5
    omega

/-! ### The record of a run -/

/-- Reads every event. -/
def scribe : Observer Event (List Event) := ⟨[], fun w e => e :: w, fun _ _ => True⟩

theorem scribe_watch (l : List Event) : scribe.watch l = l := by
  induction l with
  | nil => rfl
  | cons e l ih => exact congrArg (e :: ·) ih

theorem scribe_order (l : List Event) : scribe.InOrder l := by
  induction l with
  | nil => trivial
  | cons e l ih => exact ⟨trivial, ih⟩

/-- The answers, the newest first: the tag, what it is about, and the value. -/
def answers : List Event → List (BitVec 32 × BitVec 32 × BitVec 32)
  | [] => []
  | .answered tag data :: l => (tag, data 0, data 1) :: answers l
  | _ :: l => answers l

/-- The commands: the tag, and what it is about. -/
def commands : List Event → List (BitVec 32 × BitVec 32)
  | [] => []
  | .sent _ words :: l => (words 2, words 5) :: commands l
  | _ :: l => commands l

/-- Neither a command nor an answer. -/
def Event.Quiet : Event → Prop
  | .sent .. | .answered .. => False
  | _ => True

/-- Since the trace `base`, the leases are `clocks`, the answers are in `R` and the commands in `G`. -/
def Noted (base : List Event) (clocks : Clock → ClockLease) (G : BitVec 32 × BitVec 32 → Prop)
    (R : List (BitVec 32 × BitVec 32 × BitVec 32) → Prop) (d : Driver) (w : List Event) : Prop :=
  ∃ news, w = news ++ base ∧ d.clocks = clocks ∧ (∀ x ∈ commands news, G x) ∧ R (answers news)

section Rules

variable {base : List Event} {clocks : Clock → ClockLease} {G : BitVec 32 × BitVec 32 → Prop}
  {R : List (BitVec 32 × BitVec 32 × BitVec 32) → Prop} {d : Driver} {w : List Event} {α : Type}

theorem Noted.congr (h : Noted base clocks G R d w) {e : Driver} (same : e.clocks = d.clocks) :
    Noted base clocks G R e w :=
  let ⟨news, trace, leases, good, answered⟩ := h
  ⟨news, trace, same.trans leases, good, answered⟩

theorem Noted.loose (h : Noted base clocks G R d w) : Noted base clocks G (fun _ => True) d w :=
  let ⟨news, trace, leases, good, _⟩ := h
  ⟨news, trace, leases, good, trivial⟩

theorem Noted.quiet (h : Noted base clocks G R d w) {e : Event} (quiet : e.Quiet) : Noted base clocks G R d (e :: w) := by
  obtain ⟨news, rfl, rest⟩ := h
  refine ⟨e :: news, rfl, ?_⟩
  cases e with
  | sent | answered => exact quiet.elim
  | stored | received | faulted | freed => exact rest

theorem Noted.sent (h : Noted base clocks G R d w) {message : BitVec 32} {words : ℕ → BitVec 32}
    (good : G (words 2, words 5)) : Noted base clocks G R d (.sent message words :: w) :=
  let ⟨news, trace, leases, before, answered⟩ := h
  ⟨.sent message words :: news, by rw [trace]; rfl, leases, List.forall_mem_cons.mpr ⟨good, before⟩, answered⟩

theorem Noted.answered {as : List (BitVec 32 × BitVec 32 × BitVec 32)} (h : Noted base clocks G (· = as) d w)
    (tag : BitVec 32) (data : ℕ → BitVec 32) :
    Noted base clocks G (· = (tag, data 0, data 1) :: as) d (.answered tag data :: w) :=
  let ⟨news, trace, leases, before, answers⟩ := h
  ⟨.answered tag data :: news, by rw [trace]; rfl, leases, before, congrArg (_ :: ·) answers⟩

/-! ### Transfers -/

/-- The flags of the channel do not matter to an assertion. -/
structure Settled (A : Driver → List Event → Prop) : Prop where
  fault : ∀ d w, A d w → A { d with fault := true } (.faulted :: w)
  received : ∀ d w reply, A d w → A d (.received reply :: w)
  safe : ∀ d w, A d w → A { d with unsafeBuffer := false } w

variable {A : Driver → List Event → Prop}

theorem Noted.settled : Settled (Noted base clocks G R) where
  fault _ _ h := (h.quiet (e := .faulted) trivial).congr rfl
  received _ _ reply h := h.quiet (e := .received reply) trivial
  safe _ _ h := h.congr rfl

theorem Noted.settled_data : Settled fun d w => d.data = data ∧ Noted base clocks G R d w where
  fault _ _ h := ⟨h.1, (h.2.quiet (e := .faulted) trivial).congr rfl⟩
  received _ _ reply h := ⟨h.1, h.2.quiet (e := .received reply) trivial⟩
  safe _ _ h := ⟨h.1, h.2.congr rfl⟩

theorem fail_settled (closed : Settled A) {Q : Unit → Context → Prop} (result : MbxResult) (fatal : Bool) :
    Triple (Assert scribe A) (fail result fatal) Q fun _ => Assert scribe A := by
  refine Triple.bind (Triple.when (fun _ => ?_) fun _ h _ => h) fun _ => Triple.stop fun _ h => h
  refine Triple.bind (record_rule (B := fun d w => A { d with fault := true } w) _ (fun _ _ _ => trivial) closed.fault)
    fun _ => ?_
  exact change_rule _ fun _ _ h => h

theorem awaitRoom_settled (closed : Settled A) (n : ℕ) :
    Triple (Assert scribe A) (awaitRoom n) (fun _ => Assert scribe A) fun _ => Assert scribe A := by
  induction n with
  | zero => exact Triple.bind (ask_rule _) fun _ => Triple.ite (fun _ => pure_rule) fun _ => fail_settled closed _ _
  | succ n ih => exact Triple.bind (ask_rule _) fun _ => Triple.ite (fun _ => pure_rule) fun _ => ih

theorem takeReply_settled (closed : Settled A) (sent : BitVec 32) :
    Triple (Assert scribe A) (takeReply sent) (fun _ => Assert scribe A) fun _ => Assert scribe A := by
  refine Triple.bind (ask_rule _) fun reply => ?_
  refine Triple.bind (record_rule (B := A) _ (fun _ _ _ => trivial) fun d w h => closed.received d w reply h) fun _ => ?_
  exact Triple.ite (fun _ => fail_settled closed _ _) fun _ => change_rule _ closed.safe

theorem awaitReply_settled (closed : Settled A) (sent : BitVec 32) (n : ℕ) :
    Triple (Assert scribe A) (awaitReply sent n) (fun _ => Assert scribe A) fun _ => Assert scribe A := by
  have taken := takeReply_settled closed sent
  induction n with
  | zero => exact Triple.bind (ask_rule _) fun _ => Triple.ite (fun _ => taken) fun _ => fail_settled closed _ _
  | succ n ih => exact Triple.bind (ask_rule _) fun _ => Triple.ite (fun _ => taken) fun _ => ih

/-- The stores of a message leave it in the shared buffer. -/
theorem stores_note (id : ℕ) (final : ℕ → BitVec 32) (l : List (ℕ × BitVec 32)) {E : MbxResult → Context → Prop} :
    Triple (Assert scribe fun d w => written l d.words = final ∧ Noted base clocks G R d w)
      (each (fun s => store id s.1 s.2) l)
      (fun _ => Assert scribe fun d w => d.words = final ∧ Noted base clocks G R d w) E := by
  refine Triple.each_rest (I := fun l => Assert scribe fun d w => written l d.words = final ∧ Noted base clocks G R d w)
    (fun s l => ?_) l
  refine Triple.bind (record_rule (B := fun d w => written (s :: l) d.words = final ∧ Noted base clocks G R d w) _
    (fun _ _ _ => trivial) fun d w h => ⟨h.1, h.2.quiet (e := .stored id s.1 s.2) trivial⟩) fun _ => ?_
  exact change_rule _ fun d w h => ⟨h.1, h.2.congr rfl⟩

/-- The message that goes out is the one that the caller's words make up. -/
theorem exchange_notes (some_ : 4 ≤ bytes) (good : G (tag, data 0)) (id : ℕ) :
    Triple (Assert scribe fun d w => d.data = data ∧ Noted base clocks G R d w) (exchange tag bytes id)
      (fun _ => Assert scribe (Noted base clocks G R)) fun _ => Assert scribe (Noted base clocks G R) := by
  refine look_rule fun d => ?_
  refine Triple.mono (P := Assert scribe fun d' w => d.data = data ∧ d' = d ∧ Noted base clocks G R d' w)
    (assume_rule fun same => ?_) (fun _ h => h.mono ?_) (fun _ _ h => h) fun _ _ h => h
  rotate_left
  · rintro d' w ⟨rfl, same, noted⟩
    exact ⟨same, rfl, noted⟩
  subst same
  let full := written (message tag bytes d.data) d.words
  refine Triple.bind (Triple.mono (P := Assert scribe fun d' w => written _ d'.words = full ∧ Noted base clocks G R d' w)
    (stores_note id full _) (fun _ h => h.mono ?_) (fun _ _ h => h) fun _ _ h => h) fun _ => ?_
  · rintro d' w ⟨rfl, noted⟩
    exact ⟨rfl, noted⟩
  refine look_rule fun d' => ?_
  refine Triple.bind (change_rule (B := fun e w => d'.words = written (message tag bytes d.data) d.words ∧
    Noted base clocks G R e w) _ ?_) fun _ => ?_
  · rintro e w ⟨rfl, final, noted⟩
    exact ⟨final, noted.congr rfl⟩
  refine Triple.bind (record_rule (B := Noted base clocks G R) _ (fun _ _ _ => trivial) ?_) fun _ => ?_
  · rintro e w ⟨final, noted⟩
    refine noted.sent ?_
    rw [final, message_tag, message_selector some_]
    exact good
  · exact Triple.bind (ask_rule _) fun n => awaitReply_settled Noted.settled _ n

theorem takeWords_notes :
    Triple (Assert scribe (Noted base clocks G R)) (takeWords tag bytes) (fun _ => Assert scribe (Noted base clocks G R))
      fun _ => Assert scribe (Noted base clocks G R) := by
  have failed (result : MbxResult) (fatal : Bool) := fail_settled (A := Noted base clocks G R) Noted.settled
    (Q := fun _ => Assert scribe (Noted base clocks G R)) result fatal
  refine Triple.bind (ask_rule _) fun reply => Triple.ite (fun _ => failed _ _) fun _ => ?_
  refine Triple.ite (fun _ => failed _ _) fun _ => Triple.ite (fun _ => failed _ _) fun _ => ?_
  exact change_rule _ fun _ _ h => h.congr rfl

theorem mbxTransfer_notes (good : G (tag, data 0)) :
    Triple (Assert scribe fun d w => d.data = data ∧ Noted base clocks G R d w) (mbxTransfer tag bytes)
      (fun _ => Assert scribe (Noted base clocks G R)) fun _ => Assert scribe (Noted base clocks G R) := by
  have noted : ∀ c : Context, Assert scribe (fun d w => d.data = data ∧ Noted base clocks G R d w) c →
      Assert scribe (Noted base clocks G R) c := fun c h => h.mono fun _ _ h => h.2
  refine glance_rule fun d => ?_
  refine Triple.bind (require_rule fun _ _ _ h => h.2) fun _ => assume_rule fun formed => ?_
  have some_ : 4 ≤ bytes := by
    obtain ⟨-, -, nonzero, words, -⟩ := formed
    omega
  refine Triple.bind (require_rule fun _ _ _ h => h.2) fun _ => assume_rule fun _ => ?_
  refine Triple.bind (ask_rule _) fun status => Triple.ite (fun _ => ?_) fun _ => ?_
  · exact (fail_settled Noted.settled_data _ _).mono (fun _ h => h) (fun _ _ h => h) fun _ c h => noted c h
  refine Triple.bind (ask_rule _) fun n => Triple.bind ((awaitRoom_settled Noted.settled_data n).mono (fun _ h => h)
    (fun _ _ h => h) fun _ c h => noted c h) fun _ => ?_
  exact Triple.bind (exchange_notes some_ good _) fun _ => takeWords_notes

/-- What the transfer of some words may find out: the answer is about what was asked for. -/
def Answered (base : List Event) (clocks : Clock → ClockLease) (G : BitVec 32 × BitVec 32 → Prop)
    (as : List (BitVec 32 × BitVec 32 × BitVec 32)) (tag : BitVec 32) (bytes : ℕ) (id : BitVec 32)
    (answer : ℕ → BitVec 32) (d : Driver) (w : List Event) : Prop :=
  (8 ≤ bytes → mbxReplyIdMatches tag id (answer 0) = true) ∧
    Noted base clocks G (· = (tag, answer 0, answer 1) :: as) d w

theorem transfer_notes {as : List (BitVec 32 × BitVec 32 × BitVec 32)} (good : G (tag, data 0)) :
    Triple (Assert scribe fun d w => d.data = data ∧ Noted base clocks G (· = as) d w) (transfer tag bytes)
      (fun _ => Assert scribe fun d w => Answered base clocks G as tag bytes (data 0) d.data d w)
      fun _ => Assert scribe (Noted base clocks G fun _ => True) := by
  refine look_rule fun d => ?_
  refine Triple.mono (P := Assert scribe fun d' w => d.data 0 = data 0 ∧ d'.data = data ∧ Noted base clocks G (· = as) d' w)
    (assume_rule fun same => ?_) (fun _ h => h.mono ?_) (fun _ _ h => h) fun _ _ h => h
  rotate_left
  · rintro d' w ⟨rfl, same, noted⟩
    exact ⟨congrFun same 0, same, noted⟩
  refine Triple.bind (require_rule fun _ _ _ h => h.2.loose) fun _ => assume_rule fun _ => ?_
  refine Triple.bind (Triple.mapError ((mbxTransfer_notes good).mono (fun _ h => h) (fun _ _ h => h)
    fun _ _ h => h.mono fun _ _ h => h.loose)) fun _ => ?_
  refine look_rule fun e => Triple.ite (fun _ => ?_) fun matching => ?_
  · refine Triple.bind ?_ fun _ => Triple.stop fun _ h => h
    refine Triple.bind (record_rule (B := Noted base clocks G fun _ => True) _ (fun _ _ _ => trivial)
      fun _ _ h => h.2.loose.quiet (e := .faulted) trivial) fun _ => ?_
    exact change_rule _ fun _ _ h => h.congr rfl
  · refine record_rule _ (fun _ _ _ => trivial) ?_
    rintro d' w ⟨rfl, noted⟩
    refine ⟨fun long => ?_, noted.answered tag d'.data⟩
    rw [same] at matching
    exact Bool.not_eq_false _ ▸ fun different => matching ⟨long, different⟩

theorem call_notes {as : List (BitVec 32 × BitVec 32 × BitVec 32)} {words : List (BitVec 32)}
    (good : G (tag, words.getD 0 0)) :
    Triple (Assert scribe (Noted base clocks G (· = as))) (call tag words)
      (fun answer => Assert scribe (Answered base clocks G as tag (4 * words.length) (words.getD 0 0) answer))
      fun _ => Assert scribe (Noted base clocks G fun _ => True) := by
  refine Triple.bind (change_rule (B := fun d w => d.data = (fun i => words.getD i 0) ∧ Noted base clocks G (· = as) d w)
    _ fun d w h => ⟨rfl, h.congr rfl⟩) fun _ => ?_
  refine Triple.bind (transfer_notes (by exact good)) fun _ => look_bind fun c h => ?_
  refine Triple.pure ?_
  rintro c' rfl
  exact h

end Rules

end Pi5Drivers.Mailbox
