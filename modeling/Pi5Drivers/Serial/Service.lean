import Pi5Drivers.Serial.Port

/-! What a port owes to the framework and to its reader. An observer of the trace keeps the
queue of the bytes that wait, whether one was lost that was not reported yet, and which
notifications were asked for and answered. `Sound` relates the context to it, and every step
that the two drivers share keeps it. -/

namespace Pi5Drivers.Serial

open Effect Recorded

variable {κ δ ε : Type}

/-! ### The observer -/

/-- The notifications of one direction: how many were asked for, and which were answered. -/
structure Asked where
  asked : ℕ
  answered : List ℕ

structure Watch (δ : Type) where
  queue : List UInt8
  lost : Bool
  rx : Asked
  tx : Asked
  device : δ

namespace Watch

def notice (w : Watch δ) : Direction → Asked
  | .receive => w.rx
  | .transmit => w.tx

def setNotice (w : Watch δ) (d : Direction) (a : Asked) : Watch δ :=
  match d with
  | .receive => { w with rx := a }
  | .transmit => { w with tx := a }

def answer (w : Watch δ) (d : Direction) (k : ℕ) : Watch δ :=
  w.setNotice d { w.notice d with answered := k :: (w.notice d).answered }

end Watch

/-- What is expected of a port: how many bytes may wait, whether a byte that comes when there
are so many may be lost, and what the registers hold after a write. -/
structure Contract (δ : Type) where
  limit : ℕ
  mayLose : Bool
  reset : δ
  wrote : δ → ℕ → BitVec 32 → δ

/-- No byte is handed out of turn, a lost byte is reported as an overrun, and no notification is
answered twice. -/
def observer (Γ : Contract δ) : Observer Event (Watch δ) where
  init := ⟨[], false, ⟨0, []⟩, ⟨0, []⟩, Γ.reset⟩
  saw
    | w, .wrote offset value => { w with device := Γ.wrote w.device offset value }
    | w, .took byte =>
      if w.queue.length < Γ.limit then { w with queue := w.queue ++ [byte] } else { w with lost := true }
    | w, .handed _ => { w with queue := w.queue.tail }
    | w, .cleared => { w with queue := [] }
    | w, .renewed => { w with queue := [], lost := false }
    | w, .reported _ => { w with lost := false }
    | w, .asked d => w.setNotice d { w.notice d with asked := (w.notice d).asked + 1 }
    | w, .ready d k => w.answer d k
    | w, .cancelled d k => w.answer d k
    | w, .waited _ => w
  Allows
    | w, .took _ => w.queue.length < Γ.limit ∨ Γ.mayLose = true
    | w, .handed byte => w.queue.head? = some byte
    | w, .reported errors => w.lost = true → errors &&& serialErrorQueueoverrun ≠ 0
    | w, .ready d k => k < (w.notice d).asked ∧ k ∉ (w.notice d).answered
    | w, .cancelled d k => k < (w.notice d).asked ∧ k ∉ (w.notice d).answered
    | _, _ => True

/-! ### Notifications -/

/-- A notification that is armed or to be called back was asked for and not answered yet. -/
structure Notice.Kept (n : Notice) (a : Asked) : Prop where
  asked : n.asked = a.asked
  armed : n.armed = true → 0 < n.asked ∧ n.last ∉ a.answered ∧ n.last ∉ n.committed
  pending : n.pending = true → n.armed = true
  committed : ∀ k ∈ n.committed, k < n.asked ∧ k ∉ a.answered
  nodup : n.committed.Nodup
  answered : ∀ k ∈ a.answered, k < a.asked
  once : a.answered.Nodup

section Notices

variable {n : Notice} {a : Asked}

theorem Notice.Kept.arm (h : n.Kept a) : n.arm.Kept { a with asked := a.asked + 1 } where
  asked := congrArg (· + 1) h.asked
  armed _ := by
    refine ⟨Nat.succ_pos _, fun old => ?_, fun old => ?_⟩
    · exact absurd (h.answered _ old) (h.asked ▸ Nat.lt_irrefl n.asked)
    · exact absurd (h.committed _ old).1 (Nat.lt_irrefl n.asked)
  pending _ := rfl
  committed k hk := ⟨Nat.lt_succ_of_lt (h.committed k hk).1, (h.committed k hk).2⟩
  nodup := h.nodup
  answered k hk := Nat.lt_succ_of_lt (h.answered k hk)
  once := h.once

theorem Notice.Kept.flag (h : n.Kept a) (armed : n.armed = true) : n.flag.Kept a :=
  ⟨h.asked, h.armed, fun _ => armed, h.committed, h.nodup, h.answered, h.once⟩

theorem Notice.Kept.drop (h : n.Kept a) : n.drop.Kept a :=
  ⟨h.asked, nofun, nofun, h.committed, h.nodup, h.answered, h.once⟩

theorem Notice.Kept.last_lt (h : n.Kept a) (armed : n.armed = true) : n.last < n.asked :=
  Nat.sub_lt (h.armed armed).1 Nat.one_pos

theorem Notice.Kept.commit (h : n.Kept a) : n.commit.Kept a := by
  unfold Notice.commit
  split
  case isTrue both =>
    obtain ⟨armed, -⟩ := Bool.and_eq_true_iff.mp both
    have fresh := h.armed armed
    refine ⟨h.asked, nofun, nofun, fun k hk => ?_, List.nodup_cons.mpr ⟨fresh.2.2, h.nodup⟩, h.answered, h.once⟩
    rcases List.mem_cons.mp hk with rfl | old
    · exact ⟨h.last_lt armed, fresh.2.1⟩
    · exact h.committed k old
  case isFalse => exact h

theorem Notice.pending_commit (h : n.Kept a) : n.commit.pending = false := by
  unfold Notice.commit
  split
  case isTrue => rfl
  case isFalse none =>
    refine Bool.eq_false_iff.mpr fun pending => none ?_
    rw [h.pending pending, pending]
    rfl

theorem Notice.Kept.cancelled (h : n.Kept a) (armed : n.armed = true) :
    n.drop.Kept { a with answered := n.last :: a.answered } where
  asked := h.asked
  armed := nofun
  pending := nofun
  committed k hk := by
    refine ⟨(h.committed k hk).1, fun old => ?_⟩
    rcases List.mem_cons.mp old with rfl | old
    · exact (h.armed armed).2.2 hk
    · exact (h.committed k hk).2 old
  nodup := h.nodup
  answered k hk := by
    rcases List.mem_cons.mp hk with rfl | old
    · exact h.asked ▸ h.last_lt armed
    · exact h.answered k old
  once := List.nodup_cons.mpr ⟨(h.armed armed).2.1, h.once⟩

theorem Notice.Kept.called (h : n.Kept a) {k : ℕ} (owed : k ∈ n.committed) :
    (n.called k).Kept { a with answered := k :: a.answered } where
  asked := h.asked
  armed armed := by
    obtain ⟨some, fresh, apart⟩ := h.armed armed
    refine ⟨some, fun old => ?_, fun old => apart (List.mem_of_mem_erase old)⟩
    rcases List.mem_cons.mp old with same | old
    · exact apart (by rw [show n.last = k from same]; exact owed)
    · exact fresh old
  pending := h.pending
  committed l hl := by
    refine ⟨(h.committed l (List.mem_of_mem_erase hl)).1, fun old => ?_⟩
    rcases List.mem_cons.mp old with rfl | old
    · exact (h.nodup.not_mem_erase) hl
    · exact (h.committed l (List.mem_of_mem_erase hl)).2 old
  nodup := h.nodup.erase k
  answered l hl := by
    rcases List.mem_cons.mp hl with rfl | old
    · exact h.asked ▸ (h.committed l owed).1
    · exact h.answered l old
  once := List.nodup_cons.mpr ⟨(h.committed k owed).2, h.once⟩

end Notices

/-! ### The invariant -/

/-- The ring holds the queue, a byte that was lost is noted in the errors, and the notifications
are kept. -/
structure Held (u : Controller κ) (w : Watch δ) : Prop where
  fits : u.ring.Fits ringSize
  queue : u.ring.contents ringSize = w.queue
  lost : w.lost = true → u.errors &&& serialErrorQueueoverrun ≠ 0
  rx : u.rx.Kept w.rx
  tx : u.tx.Kept w.tx

/-- What the ring and the notifications owe, and something of the context and the registers. -/
structure With (F : Controller κ → δ → Prop) (u : Controller κ) (w : Watch δ) : Prop where
  held : Held u w
  rest : F u w.device

section Held

variable {u v : Controller κ} {w : Watch δ}

theorem Held.count (h : Held u w) : w.queue.length = u.ring.count := by rw [← h.queue, Ring.length_contents]

theorem Held.notice (h : Held u w) (d : Direction) : (u.notice d).Kept (w.notice d) := by
  cases d with
  | receive => exact h.rx
  | transmit => exact h.tx

theorem Held.setNotice (h : Held u w) (d : Direction) {n : Notice} {a : Asked} (kept : n.Kept a) :
    Held (u.setNotice d n) (w.setNotice d a) := by
  cases d with
  | receive => exact ⟨h.fits, h.queue, h.lost, kept, h.tx⟩
  | transmit => exact ⟨h.fits, h.queue, h.lost, h.rx, kept⟩

@[simp] theorem setNotice_notice (w : Watch δ) (d : Direction) : w.setNotice d (w.notice d) = w := by
  cases d <;> rfl

@[simp] theorem device_setNotice (w : Watch δ) (d : Direction) (a : Asked) : (w.setNotice d a).device = w.device := by
  cases d <;> rfl

/-- More errors hide none. -/
theorem flagged_or {errors more : BitVec 32} (h : errors &&& serialErrorQueueoverrun ≠ 0) :
    (errors ||| more) &&& serialErrorQueueoverrun ≠ 0 := by
  intro none
  rw [show (errors ||| more) &&& serialErrorQueueoverrun =
    errors &&& serialErrorQueueoverrun ||| more &&& serialErrorQueueoverrun by
      simp only [BitVec.and_comm _ serialErrorQueueoverrun, BitVec.and_or_distrib_left]] at none
  exact h (BitVec.or_eq_zero_iff.mp none).1

theorem Held.push (h : Held u w) (room : u.ring.count < ringSize) (byte : UInt8) (events : BitVec 32) :
    Held { u with ring := u.ring.push ringSize byte, events := events } { w with queue := w.queue ++ [byte] } :=
  ⟨h.fits.push room byte, by rw [Ring.contents_push h.fits room, h.queue], h.lost, h.rx, h.tx⟩

theorem Held.pop (h : Held u w) (some : u.ring.count ≠ 0) :
    w.queue.head? = .some u.ring.first ∧
      Held { u with ring := u.ring.pop ringSize } { w with queue := w.queue.tail } := by
  have eq := h.queue
  rw [Ring.contents_pop h.fits some] at eq
  rw [← eq]
  exact ⟨rfl, h.fits.pop some, rfl, h.lost, h.rx, h.tx⟩

theorem Held.clear (h : Held u w) : Held { u with ring := u.ring.clear } { w with queue := [] } :=
  ⟨Ring.Fits.clear (by decide) _, Ring.contents_clear _ _, h.lost, h.rx, h.tx⟩

end Held

/-! ### Rules -/

section Rules

variable {Γ : Contract δ} {F G : Controller κ → δ → Prop} {E : ε → Context κ → Prop}
  {A B : Controller κ → Watch δ → Prop}

theorem read_rule (offset : ℕ) :
    Triple (Assert (observer Γ) A) (read offset : Drive κ ε (BitVec 32)) (fun _ => Assert (observer Γ) A) E :=
  ask_rule _

theorem act_rule (f : Controller κ → Controller κ) (e : Event) (allowed : ∀ u w, A u w → (observer Γ).Allows w e)
    (h : ∀ u w, A u w → B (f u) ((observer Γ).saw w e)) :
    Triple (Assert (observer Γ) A) (act f e : Drive κ ε Unit) (fun _ => Assert (observer Γ) B) E :=
  Triple.modify fun _ hc => ⟨⟨allowed _ _ hc.2, hc.1⟩, h _ _ hc.2⟩

/-- A change that keeps the ring, the errors and the notifications. -/
theorem change_with (f : Controller κ → Controller κ)
    (same : ∀ u, (f u).ring = u.ring ∧ (f u).errors = u.errors ∧ (f u).rx = u.rx ∧ (f u).tx = u.tx)
    (frame : ∀ u d, F u d → G (f u) d) :
    Triple (Assert (observer Γ) (With F)) (change f : Drive κ ε Unit) (fun _ => Assert (observer Γ) (With G)) E := by
  refine change_rule _ fun u w h => ⟨?_, frame u _ h.2⟩
  obtain ⟨ring, errors, rx, tx⟩ := same u
  exact ⟨ring ▸ h.1.fits, ring ▸ h.1.queue, errors ▸ h.1.lost, rx ▸ h.1.rx, tx ▸ h.1.tx⟩

theorem write_with (offset : ℕ) (value : BitVec 32) (frame : ∀ u d, F u d → G u (Γ.wrote d offset value)) :
    Triple (Assert (observer Γ) (With F)) (write offset value : Drive κ ε Unit) (fun _ => Assert (observer Γ) (With G)) E :=
  record_rule _ (fun _ _ _ => trivial) fun u w h =>
    ⟨⟨h.1.fits, h.1.queue, h.1.lost, h.1.rx, h.1.tx⟩, frame u w.device h.2⟩

/-- A byte is taken and put into the ring, which has room for it. -/
theorem take_with (byte : UInt8) (fits : Γ.limit ≤ ringSize) (room : ∀ u d, F u d → u.ring.count < Γ.limit)
    (frame : ∀ u d events, F u d → G { u with ring := u.ring.push ringSize byte, events := events } d) :
    Triple (Assert (observer Γ) (With F)) (take byte : Drive κ ε Unit) (fun _ => Assert (observer Γ) (With G)) E := by
  refine Triple.bind (record_rule (B := fun u w => ∃ before, w = { before with queue := before.queue ++ [byte] } ∧
    Held u before ∧ F u before.device) _ (fun u w h => ?_) fun u w h => ?_) fun _ => change_rule _ ?_
  · exact .inl (h.1.count ▸ room u _ h.2)
  · exact ⟨w, if_pos (h.1.count ▸ room u _ h.2), h.1, h.2⟩
  · rintro u w ⟨before, rfl, held, hf⟩
    exact ⟨held.push ((room u _ hf).trans_le fits) byte _, frame u _ _ hf⟩

theorem hand_with (n : ℕ) (frame : ∀ u d, F u d → u.ring.count ≠ 0 → F { u with ring := u.ring.pop ringSize } d) :
    Triple (Assert (observer Γ) (With F)) (hand n : Drive κ ε Unit) (fun _ => Assert (observer Γ) (With F)) E := by
  induction n with
  | zero => exact pure_rule
  | succ n ih =>
    refine look_rule fun u => Triple.when (fun some => ?_) fun _ hc _ => hc.mono fun _ _ h => h.2
    refine Triple.bind (act_rule (B := With F) _ _ ?_ ?_) fun _ => ih
    · rintro u' w ⟨rfl, h⟩
      exact (h.1.pop some).1
    · rintro u' w ⟨rfl, h⟩
      exact ⟨(h.1.pop some).2, frame _ _ h.2 some⟩

theorem clearRing_with (frame : ∀ u d, F u d → G { u with ring := u.ring.clear } d) :
    Triple (Assert (observer Γ) (With F)) (clearRing : Drive κ ε Unit) (fun _ => Assert (observer Γ) (With G)) E :=
  act_rule _ _ (fun _ _ _ => trivial) fun u w h => ⟨h.1.clear, frame u w.device h.2⟩

theorem flagReceive_with
    (yes : ∀ u d, F u d → u.rx.armed = true → u.ring.count ≠ 0 → G { u with rx := u.rx.flag } d)
    (no : ∀ u d, F u d → (u.rx.armed = true → u.ring.count = 0) → G u d) :
    Triple (Assert (observer Γ) (With F)) (flagReceive : Drive κ ε Unit) (fun _ => Assert (observer Γ) (With G)) E := by
  refine change_rule _ fun u w h => ?_
  split
  case isTrue both =>
    obtain ⟨armed, some⟩ := Bool.and_eq_true_iff.mp both
    exact ⟨⟨h.1.fits, h.1.queue, h.1.lost, h.1.rx.flag armed, h.1.tx⟩, yes u _ h.2 armed (bne_iff_ne.mp some)⟩
  case isFalse none =>
    refine ⟨h.1, no u _ h.2 fun armed => ?_⟩
    by_contra some
    exact none (Bool.and_eq_true_iff.mpr ⟨armed, bne_iff_ne.mpr some⟩)

/-- A notification that is asked for while bytes wait is pending at once. -/
theorem uartRxEnable_with (empty : ∀ u d, F u d → u.ring.count = 0 → G { u with rx := u.rx.arm } d)
    (some : ∀ u d, F u d → u.ring.count ≠ 0 → G { u with rx := u.rx.arm.flag, dpcQueued := true } d) :
    Triple (Assert (observer Γ) (With F)) (uartRxEnable : Drive κ ε Unit) (fun _ => Assert (observer Γ) (With G)) E := by
  refine Triple.bind (act_rule (B := fun u w => Held u w ∧ ∃ before, u = { before with rx := before.rx.arm } ∧
    F before w.device) _ _ (fun _ _ _ => trivial) fun u w h => ?_) fun _ => ?_
  · exact ⟨⟨h.1.fits, h.1.queue, h.1.lost, h.1.rx.arm, h.1.tx⟩, u, rfl, h.2⟩
  refine look_rule fun u => Triple.when (fun waits => ?_) fun _ hc none => hc.mono ?_
  · refine Triple.bind (change_rule (B := fun u w => Held u w ∧ ∃ before,
      u = { before with rx := before.rx.arm.flag } ∧ before.ring.count ≠ 0 ∧ F before w.device) _ ?_) fun _ =>
      change_rule _ ?_
    · rintro u' w ⟨rfl, held, before, rfl, hf⟩
      exact ⟨⟨held.fits, held.queue, held.lost, held.rx.flag rfl, held.tx⟩, before, rfl, waits, hf⟩
    · rintro u' w ⟨held, before, rfl, waits, hf⟩
      exact ⟨⟨held.fits, held.queue, held.lost, held.rx, held.tx⟩, some before _ hf waits⟩
  · rintro u' w ⟨rfl, held, before, rfl, hf⟩
    exact ⟨held, empty before _ hf (not_not.mp none)⟩

theorem cancel_with (d : Direction) (frame : ∀ u v, F u v → G (u.setNotice d (u.notice d).drop) v) :
    Triple (Assert (observer Γ) (With F)) (cancel d : Drive κ ε Bool) (fun _ => Assert (observer Γ) (With G)) E := by
  refine look_rule fun u => Triple.bind (Q := fun _ => Assert (observer Γ) (With G)) ?_ fun _ => pure_rule
  refine Triple.ite (fun armed => ?_) fun none => ?_
  · refine act_rule _ _ ?_ ?_
    · rintro u' w ⟨rfl, h⟩
      have kept := h.1.notice d
      exact ⟨kept.asked ▸ kept.last_lt armed, (kept.armed armed).2.1⟩
    · rintro u' w ⟨rfl, h⟩
      exact ⟨h.1.setNotice d ((h.1.notice d).cancelled armed), (device_setNotice w d _).symm ▸ frame _ _ h.2⟩
  · refine change_rule _ ?_
    rintro u' w ⟨rfl, h⟩
    have := h.1.setNotice d (h.1.notice d).drop
    rw [setNotice_notice] at this
    exact ⟨this, frame _ _ h.2⟩

/-- The deferred procedure takes what is pending. -/
theorem commitReady_with (frame : ∀ u d waits, F u d → u.rx.commit.pending = false → u.tx.commit.pending = false →
      G { u with rx := u.rx.commit, tx := u.tx.commit, waits := waits, events := 0 } d) :
    Triple (Assert (observer Γ) (With F)) (commitReady : Drive κ ε Unit) (fun _ => Assert (observer Γ) (With G)) E :=
  change_rule _ fun u _ h => ⟨⟨h.1.fits, h.1.queue, h.1.lost, h.1.rx.commit, h.1.tx.commit⟩,
    frame u _ _ h.2 (Notice.pending_commit h.1.rx) (Notice.pending_commit h.1.tx)⟩

theorem reportErrors_with (frame : ∀ u d, F u d → F { u with errors := 0 } d) :
    Triple (Assert (observer Γ) (With F)) (reportErrors : Drive κ ε (BitVec 32))
      (fun _ => Assert (observer Γ) (With F)) E := by
  refine look_rule fun u => Triple.bind (act_rule (B := With F) _ _ ?_ ?_) fun _ => pure_rule
  · rintro u' w ⟨rfl, h⟩
    exact h.1.lost
  · rintro u' w ⟨rfl, h⟩
    exact ⟨⟨h.1.fits, h.1.queue, nofun, h.1.rx, h.1.tx⟩, frame _ _ h.2⟩

theorem callReady_with (d : Direction) (k : ℕ) (owed : ∀ u v, F u v → k ∈ (u.notice d).committed)
    (frame : ∀ u v, F u v → G (u.setNotice d ((u.notice d).called k)) v) :
    Triple (Assert (observer Γ) (With F)) (callReady d k : Drive κ ε Unit) (fun _ => Assert (observer Γ) (With G)) E := by
  refine act_rule _ _ (fun u w h => ?_) fun u w h => ?_
  · have kept := h.1.notice d
    have := kept.committed k (owed u _ h.2)
    exact ⟨kept.asked ▸ this.1, this.2⟩
  · exact ⟨h.1.setNotice d ((h.1.notice d).called (owed u _ h.2)), (device_setNotice w d _).symm ▸ frame u _ h.2⟩

theorem callWait_with (events : BitVec 32) (frame : ∀ u d waits, F u d → F { u with waits := waits } d) :
    Triple (Assert (observer Γ) (With F)) (callWait events : Drive κ ε Unit) (fun _ => Assert (observer Γ) (With F)) E :=
  act_rule _ _ (fun _ _ _ => trivial) fun u _ h =>
    ⟨⟨h.1.fits, h.1.queue, h.1.lost, h.1.rx, h.1.tx⟩, frame u _ _ h.2⟩

end Rules

/-! ### Answers -/

/-- The notification of a direction that an event answers. -/
def Event.answer (d : Direction) : Event → Option ℕ
  | ready d' k | cancelled d' k => if d' = d then some k else none
  | _ => none

/-- The answers to notifications of a direction, the newest first. -/
def answers (d : Direction) (trace : List Event) : List ℕ := trace.filterMap (Event.answer d)

theorem watch_answered (Γ : Contract δ) (d : Direction) (trace : List Event) :
    (((observer Γ).watch trace).notice d).answered = answers d trace := by
  induction trace with
  | nil => cases d <;> rfl
  | cons e older ih =>
    have quiet (w : Watch δ) (eq : w.notice d = ((observer Γ).watch older).notice d) :
        (w.notice d).answered = answers d older := by rw [eq, ih]
    have answered (d' : Direction) (k : ℕ) : ((((observer Γ).watch older).answer d' k).notice d).answered =
        if d' = d then k :: answers d older else answers d older := by
      cases d' <;> cases d <;> simp_all [Watch.answer, Watch.setNotice, Watch.notice]
    cases e with
    | ready d' k | cancelled d' k =>
      refine (answered d' k).trans ?_
      by_cases same : d' = d <;> simp [answers, Event.answer, same]
    | took byte =>
      refine quiet _ ?_
      change (if ((observer Γ).watch older).queue.length < Γ.limit then { (observer Γ).watch older with queue := _ }
        else { (observer Γ).watch older with lost := true } : Watch δ).notice d = _
      split <;> cases d <;> rfl
    | asked d' => cases d' <;> cases d <;> exact ih
    | wrote | handed | cleared | renewed | reported | waited => exact ih

theorem Held.nodup_answers {Γ : Contract δ} {u : Controller κ} {trace : List Event}
    (h : Held u ((observer Γ).watch trace)) (d : Direction) : (answers d trace).Nodup := by
  rw [← watch_answered Γ]
  exact (h.notice d).once

end Pi5Drivers.Serial
