import Mathlib.Data.List.Forall2
import Pi5Drivers.Lib.Runs
import Pi5Drivers.Spi.Driver

/-! The exchange of a request. The frames that are sent are the bytes of the write transfers, and
zeros elsewhere; the byte that comes back with a frame is stored at the position of the frame,
and the buffer of a read transfer gets the bytes of its positions. -/

namespace Pi5Drivers.Spi

open Spb Effect Recorded

/-- The byte of the write transfer that has a position, or else zero. -/
def outgoing (l : List (Part × Mdl)) (i : ℕ) : UInt8 :=
  match l.find? fun x => !x.1.read && decide (x.1.offset ≤ i ∧ i < x.1.offset + x.1.length) with
  | some x => x.2.flatten.getD (i - x.1.offset) 0
  | none => 0

/-- What was sent and what was taken, the oldest first. -/
structure Watch where
  sent : List UInt8
  taken : List (BitVec 32)

def Watch.saw (w : Watch) : Event → Watch
  | .sent byte => { w with sent := w.sent ++ [byte] }
  | .took _ data => { w with taken := w.taken ++ [data] }
  | .wrote .. | .selected _ => w

/-- What every exchange of a request has in common. -/
structure Plan where
  frames : ℕ
  depth : ℕ
  tx : ℕ → UInt8

/-- A byte that is sent is that of the next frame, and no more frames are under way than the receive
FIFO holds; a byte that is taken is that of the next frame under way, and is put at its position. -/
def Plan.Allows (p : Plan) (w : Watch) : Event → Prop
  | .sent byte => w.sent.length < p.frames ∧ byte = p.tx w.sent.length ∧ w.sent.length < w.taken.length + p.depth
  | .took position _ => position = w.taken.length ∧ w.taken.length < w.sent.length
  | .wrote .. | .selected _ => True

def Plan.reader (p : Plan) : Observer Event Watch where
  init := ⟨[], []⟩
  saw := Watch.saw
  Allows := p.Allows

/-- The received byte of a frame. -/
def byteOf (taken : List (BitVec 32)) (i : ℕ) : UInt8 := UInt8.ofNat (taken.getD i 0).toNat

/-- The counters of the engine agree with what was sent and taken. -/
structure Counted (p : Plan) (e : Engine) (w : Watch) : Prop where
  frames : e.frames = p.frames
  depth : e.depth = p.depth
  queued : e.queued = w.sent.length
  received : e.received = w.taken.length
  order : e.received ≤ e.queued ∧ e.queued ≤ e.frames
  credit : e.queued - e.received ≤ e.depth
  sent : w.sent = (List.range e.queued).map p.tx
  rx : ∀ i < e.received, e.rx i = byteOf w.taken i

/-- The bytes to send are there. -/
def Loaded (p : Plan) (e : Engine) : Prop := ∀ i < p.frames, e.tx i = p.tx i

/-- The transfers stay what they are until the bytes are handed over. -/
def Exchanging (p : Plan) (l : List (Part × Mdl)) (r : Request) (w : Watch) : Prop :=
  Counted p r.engine w ∧ r.transfers = l

section Counted

variable {p : Plan} {e : Engine} {w : Watch} {l : List (Part × Mdl)}

theorem Counted.queue (h : Counted p e w) (loaded : Loaded p e) (more : e.queued < e.frames) (room : e.queued - e.received < e.depth) :
    p.Allows w (.sent (e.tx e.queued)) ∧ Counted p e.queue (w.saw (.sent (e.tx e.queued))) := by
  have byte : e.tx e.queued = p.tx e.queued := loaded _ (h.frames ▸ more)
  have := h.order
  have := h.queued
  have := h.received
  have := h.depth
  have := h.frames
  refine ⟨⟨by omega, h.queued ▸ byte, by omega⟩, ?_⟩
  exact
    { frames := h.frames
      depth := h.depth
      queued := by
        rw [Watch.saw, List.length_append, ← h.queued]
        rfl
      received := h.received
      order := ⟨by change e.received ≤ e.queued + 1; omega, more⟩
      credit := by
        change e.queued + 1 - e.received ≤ e.depth
        omega
      sent := by
        change w.sent ++ [e.tx e.queued] = (List.range (e.queued + 1)).map p.tx
        rw [List.range_succ, List.map_append, ← h.sent, byte]
        rfl
      rx := h.rx }

theorem Counted.store (h : Counted p e w) (waits : e.received < e.queued) (data : BitVec 32) :
    p.Allows w (.took e.received data) ∧ Counted p (e.store data) (w.saw (.took e.received data)) := by
  have := h.queued
  have := h.received
  have := h.credit
  refine ⟨⟨h.received, by omega⟩, ?_⟩
  exact
    { frames := h.frames
      depth := h.depth
      queued := h.queued
      received := by
        rw [Watch.saw, List.length_append, ← h.received]
        rfl
      order := ⟨waits, h.order.2⟩
      credit := by
        change e.queued - (e.received + 1) ≤ e.depth
        omega
      sent := h.sent
      rx := fun i (hi : i < e.received + 1) => by
        change (if i = e.received then _ else _) = UInt8.ofNat ((w.taken ++ [data]).getD i 0).toNat
        split
        · subst i
          rw [h.received, List.getD_append_right _ _ _ _ (Nat.le_refl _), Nat.sub_self]
          rfl
        · rw [List.getD_append _ _ _ _ (by omega)]
          exact h.rx i (by omega) }

/-! ### The pump -/

variable {E : Status → Context → Prop}

/-- An exchange with its bytes to send. -/
abbrev Ready (p : Plan) (l : List (Part × Mdl)) : Request → Watch → Prop := fun r w => Loaded p r.engine ∧ Exchanging p l r w

theorem receive_rule (n : ℕ) :
    Triple (Assert p.reader fun r w => n ≤ r.engine.queued - r.engine.received ∧ Ready p l r w) (receive n)
      (fun _ => Assert p.reader (Ready p l)) E := by
  induction n with
  | zero => exact Triple.pure fun _ hc => hc.mono fun _ _ h => h.2
  | succ n ih =>
    refine Triple.bind (ask_rule _) fun data => look_rule fun r => Triple.bind (record_rule (B := fun r' w =>
      n + 1 ≤ r'.engine.queued - r'.engine.received ∧ Loaded p r'.engine ∧ Counted p (r'.engine.store data) w ∧ r'.transfers = l)
      _ ?_ ?_) fun _ => Triple.bind (change_rule _ ?_) fun _ => ih
    · rintro _ w ⟨rfl, some, loaded, h, same⟩
      exact (h.store (by omega) data).1
    · rintro _ w ⟨rfl, some, loaded, h, same⟩
      exact ⟨some, loaded, (h.store (by omega) data).2, same⟩
    · rintro r w ⟨some, loaded, h, same⟩
      refine ⟨?_, loaded, h, same⟩
      change n ≤ r.engine.queued - (r.engine.received + 1)
      omega

theorem send_rule (n : ℕ) :
    Triple (Assert p.reader fun r w => n ≤ r.engine.depth - (r.engine.queued - r.engine.received) ∧ Ready p l r w) (send n)
      (fun _ => Assert p.reader (Ready p l)) E := by
  induction n with
  | zero => exact Triple.pure fun _ hc => hc.mono fun _ _ h => h.2
  | succ n ih =>
    refine look_rule fun r => Triple.when (fun more => ?_) fun _ hc _ => hc.mono fun _ _ h => h.2.2
    refine Triple.bind (record_rule (B := fun r' w => n + 1 ≤ r'.engine.depth - (r'.engine.queued - r'.engine.received) ∧
      r'.engine.received ≤ r'.engine.queued ∧ Loaded p r'.engine ∧ Counted p r'.engine.queue w ∧ r'.transfers = l) _ ?_ ?_)
      fun _ => Triple.bind (change_rule _ ?_) fun _ => ih
    · rintro _ w ⟨rfl, some, loaded, h, same⟩
      exact (h.queue loaded more (by omega)).1
    · rintro _ w ⟨rfl, some, loaded, h, same⟩
      exact ⟨some, h.order.1, loaded, (h.queue loaded more (by omega)).2, same⟩
    · rintro r w ⟨some, order, loaded, h, same⟩
      refine ⟨?_, loaded, h, same⟩
      change n ≤ r.engine.depth - (r.engine.queued + 1 - r.engine.received)
      omega

/-- The registers that the last read answered from say that the controller is idle. -/
def Idle (c : Context) : Prop := ∃ time, c.clock = time + 1 ∧ c.world.register time spiStatus &&& 1 = 0

/-- What a call of the pump leaves that reports whether the request is done. -/
def Pumped (p : Plan) (l : List (Part × Mdl)) (done : Bool) (c : Context) : Prop :=
  Assert p.reader (Ready p l) c ∧ (done = true → c.state.engine.received = c.state.engine.frames ∧ Idle c)

theorem transmit_rule : Triple (Assert p.reader (Ready p l)) transmit (fun r => Pumped p l r.2)
    fun _ => Assert p.reader (Ready p l) := by
  refine Triple.bind (ask_rule _) fun count => look_rule fun r => Triple.bind (require_rule fun _ _ _ h => h.2) fun _ => ?_
  refine Triple.bind (Triple.mono (send_rule (l := l) _) (fun _ hc => hc.mono ?_) (fun _ _ hc => hc) fun _ _ hc => hc) fun _ =>
    glance_rule fun r => Triple.pure fun _ hc => ⟨hc, nofun⟩
  rintro _ w ⟨-, rfl, h⟩
  exact ⟨Nat.min_le_right _ _, h⟩

theorem settle_rule : Triple (Assert p.reader fun r w => r.engine.received = r.engine.frames ∧ Ready p l r w) settle
    (fun r => Pumped p l r.2) E := by
  refine Triple.bind (Q := fun status c => Assert p.reader (fun r w => r.engine.received = r.engine.frames ∧ Ready p l r w) c ∧
    ∃ time, c.clock = time + 1 ∧ c.world.register time spiStatus = status) ?_ fun status => Triple.pure fun c hc => ?_
  · exact fun c hc => ⟨hc, c.clock, rfl, rfl⟩
  · obtain ⟨hc, time, clock, eq⟩ := hc
    exact ⟨hc.mono fun _ _ h => h.2, fun idle => ⟨hc.2.1, time, clock, eq ▸ of_decide_eq_true idle⟩⟩

theorem spiPump_rule : Triple (Assert p.reader (Ready p l)) spiPump (fun r => Pumped p l r.2)
    fun _ => Assert p.reader (Ready p l) := by
  refine Triple.bind (ask_rule _) fun raw => Triple.bind (require_rule fun _ _ _ h => h) fun _ => assume_rule fun _ => ?_
  refine Triple.bind (ask_rule _) fun count => look_rule fun r => Triple.bind (require_rule fun _ _ _ h => h.2) fun _ => ?_
  refine Triple.bind (Triple.mono (receive_rule (l := l) _) (fun _ hc => hc.mono ?_) (fun _ _ hc => hc) fun _ _ hc => hc) fun _ =>
    look_rule fun r => Triple.ite (fun all => ?_) fun _ => ?_
  · rintro _ w ⟨few, rfl, h⟩
    exact ⟨few.2, h⟩
  · refine settle_rule.mono (fun _ hc => hc.mono ?_) (fun _ _ hc => hc) fun _ _ hc => hc
    rintro _ w ⟨rfl, h⟩
    exact ⟨all, h⟩
  · exact transmit_rule.mono (fun _ hc => hc.mono fun _ _ h => h.2) (fun _ _ hc => hc) fun _ _ hc => hc

end Counted

/-! ### The bytes to send -/

section Outgoing

variable {l : List (Part × Mdl)} {maps : ℕ → ℕ → Bool} {tx tx' : ℕ → UInt8}

/-- What is copied in is what is to be sent. -/
theorem copyIn_outgoing (h : copyIn maps 0 l tx = .ok tx') (apart : Apart l) {i : ℕ} (zero : tx i = 0) : tx' i = outgoing l i := by
  unfold outgoing
  cases found : l.find? fun x => !x.1.read && decide (x.1.offset ≤ i ∧ i < x.1.offset + x.1.length) with
  | some x =>
    have covered := List.find?_some found
    rw [Bool.and_eq_true, Bool.not_eq_true', decide_eq_true_eq] at covered
    obtain ⟨write, low, high⟩ := covered
    have byte := (copyIn_write h apart (List.mem_of_find?_eq_some found) write (k := i - x.1.offset) (by omega)).2
    rwa [Nat.add_sub_cancel' low] at byte
  | none =>
    refine (copyIn_other h fun x hx write covered => ?_).trans zero
    have := List.find?_eq_none.mp found x hx
    rw [write, Bool.not_false, Bool.true_and, decide_eq_true_eq] at this
    exact this covered

end Outgoing

/-! ### The worker -/

section Worker

variable {p : Plan} {l : List (Part × Mdl)} {A : Request → Watch → Prop} {E : Status → Context → Prop}

theorem write_rule (offset : ℕ) (value : BitVec 32) :
    Triple (Assert p.reader A) (write offset value) (fun _ => Assert p.reader A) E :=
  record_rule _ (fun _ _ _ => trivial) fun _ _ h => h

theorem setMask_rule (mask : BitVec 32) : Triple (Assert p.reader A) (setMask mask) (fun _ => Assert p.reader A) E :=
  Triple.bind (write_rule _ _) fun _ => Triple.bind (ask_rule _) fun _ => pure_rule

theorem disable_rule : Triple (Assert p.reader A) disable (fun _ => Assert p.reader A) E :=
  Triple.bind (write_rule _ _) fun _ => Triple.bind (ask_rule _) fun _ => Triple.bind (write_rule _ _) fun _ =>
    Triple.bind (ask_rule _) fun _ => pure_rule

theorem selectChip_rule (active : Bool) :
    Triple (Assert p.reader A) (selectChip active) (fun _ => Assert p.reader A) fun _ => Assert p.reader A :=
  Triple.bind (record_rule _ (fun _ _ _ => trivial) fun _ _ h => h) fun _ => Triple.bind (ask_rule _) fun _ =>
    Triple.ofExcept (fun _ _ hc => hc) fun _ _ hc => hc

theorem proceed_rule : Triple (Assert p.reader A) proceed (fun _ => Assert p.reader A) fun _ => Assert p.reader A :=
  Triple.bind (ask_rule _) fun _ => Triple.bind (require_rule fun _ _ _ h => h) fun _ => assume_rule fun _ =>
    Triple.bind (ask_rule _) fun _ => Triple.require (fun _ hc _ => hc) fun _ hc _ => hc

/-- After the bytes were fetched they are there to be sent. -/
theorem fetch_rule (apart : Apart l) (tx : ∀ i, p.tx i = outgoing l i) :
    Triple (Assert p.reader (Exchanging p l)) fetch (fun _ => Assert p.reader (Ready p l)) fun _ => Assert p.reader (Exchanging p l) := by
  refine Triple.bind (change_rule (B := fun r w => (∀ i < p.frames, r.engine.tx i = 0) ∧ Exchanging p l r w) _ ?_) fun _ =>
    Triple.bind (ask_rule _) fun maps => look_rule fun r => ?_
  · rintro r w ⟨h, same⟩
    exact ⟨fun i hi => if_pos (h.frames ▸ hi), { h with }, same⟩
  refine Triple.bind (Triple.ofExcept_ok fun _ _ hc => hc.mono fun _ _ h => h.2.2) fun tx' => Triple.assume fun copied => ?_
  refine Triple.bind (change_rule (B := Ready p l) _ ?_) fun _ => ?_
  · rintro _ w ⟨rfl, zero, h, same⟩
    rw [same] at copied
    exact ⟨fun i hi => (copyIn_outgoing copied apart (zero i hi)).trans (tx i).symm, { h with }, same⟩
  refine Triple.bind (Triple.mono proceed_rule (fun _ hc => hc) (fun _ _ hc => hc) fun _ _ hc => hc.mono fun _ _ h => h.2) fun _ => ?_
  exact Triple.ofExcept (fun _ _ hc => hc) fun _ _ hc => hc.mono fun _ _ h => h.2

theorem program_rule (divider : ℕ) :
    Triple (Assert p.reader A) (program divider) (fun _ => Assert p.reader A) fun _ => Assert p.reader A := by
  refine Triple.bind (setMask_rule _) fun _ => Triple.bind disable_rule fun _ => glance_rule fun r => ?_
  refine Triple.bind (write_rule _ _) fun _ => Triple.bind (write_rule _ _) fun _ => Triple.bind (write_rule _ _) fun _ => ?_
  refine Triple.bind (write_rule _ _) fun _ => Triple.bind (write_rule _ _) fun _ => Triple.bind (write_rule _ _) fun _ => ?_
  refine Triple.bind (write_rule _ _) fun _ => Triple.bind (selectChip_rule _) fun _ => Triple.bind (write_rule _ _) fun _ => ?_
  exact write_rule _ _

/-- All frames were received. -/
abbrev Complete (p : Plan) (l : List (Part × Mdl)) : Request → Watch → Prop := fun r w =>
  r.engine.received = r.engine.frames ∧ Exchanging p l r w

theorem pumpOnce_rule : Triple (Assert p.reader (Ready p l)) pumpOnce
    (fun done => Assert p.reader fun r w => (done = true → r.engine.received = r.engine.frames) ∧ Ready p l r w)
    fun _ => Assert p.reader (Ready p l) := by
  refine Triple.bind (ask_rule _) fun _ => Triple.bind (require_rule fun _ _ _ h => h) fun _ => assume_rule fun _ => ?_
  refine Triple.bind (Triple.orElse spiPump_rule fun _ => Triple.bind (setMask_rule _) fun _ => Triple.stop fun _ hc => hc)
    fun result => ?_
  obtain ⟨mask, done⟩ := result
  refine Triple.bind (Q := fun _ => Assert p.reader fun r w => (done = true → r.engine.received = r.engine.frames) ∧ Ready p l r w)
    (Triple.mono (setMask_rule _) (fun _ hc => ?_) (fun _ _ hc => hc) fun _ _ hc => hc) fun _ => Triple.pure fun _ hc => hc
  exact ⟨hc.1.1, fun all => (hc.2 all).1, hc.1.2⟩

theorem exchange_rule (n : ℕ) : Triple (Assert p.reader (Ready p l)) (exchange n) (fun _ => Assert p.reader (Complete p l))
    fun _ => Assert p.reader (Exchanging p l) := by
  have weak : ∀ e : Status, ∀ c : Context, Assert p.reader (Ready p l) c → Assert p.reader (Exchanging p l) c :=
    fun _ _ hc => hc.mono fun _ _ h => h.2
  induction n with
  | zero =>
    exact Triple.bind (proceed_rule.mono (fun _ hc => hc) (fun _ _ hc => hc) weak) fun _ => Triple.stop fun c hc => weak .ioTimeout c hc
  | succ n ih =>
    refine Triple.bind (proceed_rule.mono (fun _ hc => hc) (fun _ _ hc => hc) weak) fun _ =>
      Triple.bind (pumpOnce_rule.mono (fun _ hc => hc) (fun _ _ hc => hc) weak) fun done => Triple.ite (fun all => ?_) fun _ => ?_
    · exact Triple.pure fun _ hc => hc.mono fun _ _ h => ⟨h.1 all, h.2.2⟩
    · exact ih.mono (fun _ hc => hc.mono fun _ _ h => h.2) (fun _ _ hc => hc) fun _ _ hc => hc

theorem transfer_rule (divider : ℕ) : Triple (Assert p.reader (Ready p l)) (transfer divider)
    (fun _ => Assert p.reader (Complete p l)) fun _ => Assert p.reader (Exchanging p l) :=
  Triple.bind ((program_rule divider).mono (fun _ hc => hc) (fun _ _ hc => hc) fun _ _ hc => hc.mono fun _ _ h => h.2) fun _ =>
    Triple.bind (ask_rule _) fun wakes => exchange_rule wakes

/-- The buffers have what was received. -/
def Answered (p : Plan) (l : List (Part × Mdl)) (r : Request) (w : Watch) : Prop :=
  r.engine.received = r.engine.frames ∧ Counted p r.engine w ∧ List.Forall₂ (Delivered r.engine.rx) l r.transfers

theorem deliver_rule : Triple (Assert p.reader (Complete p l)) deliver (fun _ => Assert p.reader (Answered p l))
    fun _ => Assert p.reader (Exchanging p l) := by
  refine Triple.bind (ask_rule _) fun maps => look_rule fun r => ?_
  refine Triple.bind (Triple.ofExcept_ok fun _ _ hc => hc.mono fun _ _ h => h.2.2) fun l' => Triple.assume fun copied => ?_
  refine change_rule _ ?_
  rintro _ w ⟨rfl, all, h, same⟩
  rw [same] at copied
  exact ⟨all, h, copyOut_ok copied⟩

theorem retire_rule (outcome : Except Status Unit) :
    Triple (Assert p.reader fun r w => (outcome = .ok () → r.engine.received = r.engine.frames) ∧ Exchanging p l r w) (retire outcome)
      (fun _ => Assert p.reader (Answered p l)) fun _ => Assert p.reader (Exchanging p l) := by
  refine Triple.bind (setMask_rule _) fun _ => Triple.bind disable_rule fun _ => ?_
  refine Triple.bind (Triple.attempt (R := fun _ => Assert p.reader _) ((selectChip_rule _).mono (fun _ hc => hc) (fun _ _ hc => hc)
    fun _ _ hc => hc)) fun deselect => ?_
  refine Triple.bind (Q := fun _ => Assert p.reader (Complete p l)) ?_ fun _ =>
    Triple.bind (Triple.ofExcept (fun _ _ hc => hc) fun _ _ hc => hc.mono fun _ _ h => h.2) fun _ => deliver_rule
  cases outcome with
  | ok => exact Triple.pure fun _ hc => hc.mono fun _ _ h => ⟨h.1 rfl, h.2⟩
  | error e => exact Triple.stop fun _ hc => hc.mono fun _ _ h => h.2

theorem spiWorker_rule (apart : Apart l) (tx : ∀ i, p.tx i = outgoing l i) :
    Triple (Assert p.reader (Exchanging p l)) spiWorker (fun _ => Assert p.reader (Answered p l))
      fun _ => Assert p.reader (Exchanging p l) := by
  refine Triple.bind (fetch_rule apart tx) fun divider => ?_
  refine Triple.bind (Triple.attempt ((transfer_rule divider).mono (fun _ hc => hc) (fun _ _ hc => ?_) fun _ _ hc => ?_))
    fun outcome => retire_rule outcome
  · exact hc.mono fun _ _ h => ⟨fun _ => h.1, h.2⟩
  · exact hc.mono fun _ _ h => ⟨nofun, h⟩

end Worker

/-! ### A request -/

section Placed

variable {fullDuplex single : Bool} {ds : List Descriptor} {i total frames frames' : ℕ} {parts : List Part}

theorem place_cons {d : Descriptor} (h : place fullDuplex i total frames (d :: ds) = some (parts, frames')) :
    d.Acceptable spiMaxBytes total ∧ ∃ rest, parts = d.part (if fullDuplex then 0 else total) :: rest ∧
      (fullDuplex = true → (d.part 0).read = (i == 1)) ∧
      place fullDuplex (i + 1) (total + d.transferLength)
        (if fullDuplex then (if frames < d.transferLength then d.transferLength else frames) else total + d.transferLength) ds =
        some (rest, frames') := by
  unfold place at h
  dsimp only at h
  by_cases ok : d.Acceptable spiMaxBytes total
  · rw [if_neg (not_not.mpr ok)] at h
    by_cases wrong : fullDuplex = true ∧ (d.part (if fullDuplex then 0 else total)).read ≠ (i == 1)
    · rw [if_pos wrong] at h
      cases h
    · rw [if_neg wrong] at h
      obtain ⟨⟨rest, m⟩, placed, eq⟩ := Option.map_eq_some_iff.mp h
      cases eq
      exact ⟨ok, rest, rfl, fun duplex => by_contra fun no => wrong ⟨duplex, no⟩, placed⟩
  · rw [if_pos ok] at h
    cases h

/-- In a sequence the parts lie behind each other, and before the last frame. -/
theorem laid_of_place (h : place false i total total ds = some (parts, frames)) :
    Laid total parts ∧ total ≤ frames ∧ ∀ t ∈ parts, t.offset + t.length ≤ frames := by
  induction ds generalizing i total parts with
  | nil =>
    cases h
    exact ⟨trivial, Nat.le_refl _, nofun⟩
  | cons d ds ih =>
    obtain ⟨ok, rest, rfl, -, placed⟩ := place_cons h
    obtain ⟨laid, within, inside⟩ := ih placed
    refine ⟨⟨rfl, Nat.pos_of_ne_zero ok.1, laid⟩, by omega, fun t ht => ?_⟩
    rcases List.mem_cons.mp ht with rfl | ht
    · exact within
    · exact inside t ht

theorem apart_of_laid (h : Laid total parts) (mdls : List Mdl) : Apart (parts.zip mdls) := by
  induction parts generalizing total mdls with
  | nil => exact .nil
  | cons p l ih =>
    cases mdls with
    | nil => exact .nil
    | cons mdl mdls =>
      refine List.pairwise_cons.mpr ⟨fun y hy _ _ i covered => ?_, ih h.2.2 mdls⟩
      obtain ⟨j, hj, eq⟩ := List.mem_iff_getElem.mp (List.of_mem_zip hy).1
      have behind := h.2.2.le_offset hj
      rw [List.getD_eq_getElem _ _ hj, eq, ← h.1] at behind
      exact Nat.not_lt.mpr (Nat.le_trans behind covered.2.1) covered.1.2

theorem le_widest (a b : ℕ) : a ≤ (if a < b then b else a) ∧ b ≤ (if a < b then b else a) := by
  split <;> omega

/-- In full duplex there is one transfer each way. -/
theorem duplex_of_place (h : place true 0 0 0 ds = some (parts, frames)) (two : ds.length = 2) :
    ∃ t u : Part, parts = [t, u] ∧ t.read = false ∧ u.read = true ∧ (t.offset = 0 ∧ t.length ≤ frames) ∧ u.offset = 0 ∧
      u.length ≤ frames := by
  obtain ⟨d, e, rfl⟩ := List.length_eq_two.mp two
  obtain ⟨-, rest, rfl, write, placed⟩ := place_cons h
  obtain ⟨-, rest, rfl, reads, placed⟩ := place_cons placed
  cases placed
  refine ⟨_, _, rfl, (write rfl).trans rfl, (reads rfl).trans rfl, ⟨rfl, ?_⟩, rfl, ?_⟩
  · exact Nat.le_trans (le_widest 0 _).2 (le_widest _ _).1
  · exact (le_widest _ _).2

theorem of_transfers (h : transfersOf fullDuplex single ds = .ok (parts, frames)) :
    Apart (buffers parts ds) ∧ ∀ t ∈ parts, t.offset + t.length ≤ frames := by
  unfold transfersOf at h
  split at h
  · cases h
  rename_i wrong
  split at h
  · cases h
    rename_i placed
    cases fullDuplex with
    | false =>
      obtain ⟨laid, -, inside⟩ := laid_of_place placed
      exact ⟨apart_of_laid laid _, inside⟩
    | true =>
      have two : ds.length = 2 := by_contra fun no => wrong (.inr (.inr (.inr ⟨rfl, no⟩)))
      obtain ⟨t, u, rfl, -, reads, first, second⟩ := duplex_of_place placed two
      obtain ⟨d, e, rfl⟩ := List.length_eq_two.mp two
      refine ⟨?_, fun v hv => ?_⟩
      · refine List.pairwise_pair.mpr fun _ write => ?_
        exact absurd (reads.symm.trans write) (Bool.noConfusion ·)
      · rcases List.mem_cons.mp hv with rfl | hv
        · omega
        · obtain rfl := List.mem_singleton.mp hv
          omega
  · cases h

end Placed

/-! ### Every request -/

section Request

variable {settings r : Request} {fullDuplex single : Bool} {ds : List Descriptor} {world : World} {c : Context}

/-- What an exchange of the request is to do. -/
def Request.plan (r : Request) : Plan := ⟨r.engine.frames, r.engine.depth, outgoing r.transfers⟩

/-- A request for the hardware, and any number of calls of the pump. -/
def system (world : World) (r : Request) : System Context Unit where
  init := ⟨world, 0, r, []⟩
  next c _ := some (spiPump.run c).2

theorem of_begin (accepted : beginRequest settings fullDuplex single ds = .ok r) :
    Apart r.transfers ∧ (∀ x ∈ r.transfers, x.1.offset + x.1.length ≤ r.engine.frames) ∧
      Exchanging r.plan r.transfers r r.plan.reader.init := by
  unfold beginRequest at accepted
  split at accepted
  · cases accepted
    rename_i taken
    obtain ⟨apart, inside⟩ := of_transfers taken
    refine ⟨apart, fun x hx => inside _ (List.of_mem_zip hx).1, ?_, rfl⟩
    exact
      { frames := rfl
        depth := rfl
        queued := rfl
        received := rfl
        order := ⟨Nat.le_refl _, Nat.zero_le _⟩
        credit := Nat.zero_le _
        sent := rfl
        rx := nofun }
  · cases accepted

theorem ready_of_reachable {p : Plan} {l : List (Part × Mdl)} (ready : Ready p l r p.reader.init)
    (h : (system world r).Reachable c) : Assert p.reader (Ready p l) c := by
  have init : Assert p.reader (Ready p l) (system world r).init := ⟨trivial, ready⟩
  refine h.invariant (I := Assert p.reader (Ready p l)) init ?_
  intro c c' _ hc _ next
  cases next
  have := spiPump_rule (p := p) (l := l) hc
  rcases run : spiPump.run c with ⟨_ | _, c'⟩ <;> rw [run] at this
  · exact this
  · exact this.1

/-- With the bytes to send in place, and whatever the registers hold and however often the pump is called:
no more frames come back than went out, no more are under way than the receive FIFO holds, the bytes
that went out are the first ones to send, a byte that comes back is at its position, and a call that
reports that the request is done has received all frames and seen the controller idle. Whatever the
worker does is in order, and a request that it ends well has sent every frame, and the buffers of the read
transfers have the bytes that came back at their positions. -/
theorem exchange_exact (accepted : beginRequest settings fullDuplex single ds = .ok r) (world : World) :
    (∀ maps tx c, copyIn maps 0 r.transfers r.engine.clear.tx = .ok tx →
      (system world { r with engine := { r.engine with tx := tx } }).Reachable c →
      r.plan.reader.InOrder c.trace ∧
      (c.state.engine.received ≤ c.state.engine.queued ∧ c.state.engine.queued ≤ r.engine.frames ∧
        c.state.engine.queued - c.state.engine.received ≤ r.engine.depth) ∧
      (r.plan.reader.watch c.trace).sent = (List.range c.state.engine.queued).map (outgoing r.transfers) ∧
      ((r.plan.reader.watch c.trace).taken.length = c.state.engine.received ∧
        ∀ i < c.state.engine.received, c.state.engine.rx i = byteOf (r.plan.reader.watch c.trace).taken i) ∧
      ∀ mask c', spiPump.run c = (.ok (mask, true), c') → c'.state.engine.received = r.engine.frames ∧ Idle c') ∧
    ∀ outcome c', spiWorker.run ⟨world, 0, r, []⟩ = (outcome, c') → r.plan.reader.InOrder c'.trace ∧
      (outcome = .ok () →
        (r.plan.reader.watch c'.trace).sent = (List.range r.engine.frames).map (outgoing r.transfers) ∧
        (r.plan.reader.watch c'.trace).taken.length = r.engine.frames ∧
        List.Forall₂ (Delivered (byteOf (r.plan.reader.watch c'.trace).taken)) r.transfers c'.state.transfers) := by
  obtain ⟨apart, inside, start⟩ := of_begin accepted
  refine ⟨fun maps tx c copied reach => ?_, fun outcome c' run => ?_⟩
  · have loaded : Loaded r.plan { r.engine with tx := tx } := fun i hi => copyIn_outgoing copied apart (if_pos hi)
    have ready : Assert r.plan.reader (Ready r.plan r.transfers) c :=
      ready_of_reachable (r := { r with engine := { r.engine with tx := tx } }) ⟨loaded, { start.1 with }, rfl⟩ reach
    have counted := ready.2.2.1
    have frames : c.state.engine.frames = r.engine.frames := counted.frames
    have depth : c.state.engine.depth = r.engine.depth := counted.depth
    refine ⟨ready.1, ⟨counted.order.1, ?_, ?_⟩, counted.sent, ⟨counted.received.symm, counted.rx⟩, fun mask c' run => ?_⟩
    · exact frames ▸ counted.order.2
    · exact depth ▸ counted.credit
    · obtain ⟨after, finished⟩ := spiPump_rule.of_ok ready run
      exact ⟨(finished rfl).1.trans after.2.2.1.frames, (finished rfl).2⟩
  · have worked := spiWorker_rule (p := r.plan) (l := r.transfers) apart (fun _ => rfl) (s := ⟨world, 0, r, []⟩) ⟨trivial, start⟩
    rw [run] at worked
    cases outcome with
    | error e => exact ⟨worked.1, nofun⟩
    | ok =>
      obtain ⟨ordered, all, counted, delivered⟩ := worked
      have frames : c'.state.engine.frames = r.engine.frames := counted.frames
      have order := counted.order
      refine ⟨ordered, fun _ => ⟨?_, ?_, ?_⟩⟩
      · rw [counted.sent, show c'.state.engine.queued = r.engine.frames by omega]
        rfl
      · exact counted.received.symm.trans (all.trans frames)
      · refine List.Forall₂.imp (fun x x' h => ?_) ((List.forall₂_and_left _ _).mpr ⟨inside, delivered⟩)
        exact h.2.congr counted.rx (by rw [all, frames]; exact h.1)

/-- A command byte, and two bytes that come back behind it. -/
def identify : List Descriptor := [⟨1, .toDevice, [[0x9f]], 0⟩, ⟨2, .fromDevice, [[0], [0]], 0⟩]

/-- Every frame comes back before the pump is called for the second time. -/
def responding : World where
  register time offset := if offset = spiRxLevel then (if time < 3 then 0 else 3) else if offset = spiData then 0x5a else 0
  maps _ _ _ := true
  cancelled _ := false
  online _ := true
  select _ := .ok ()
  wakes := 2

/-- Its request, and the same with the bytes to send in place. -/
def identified : Request :=
  ⟨⟨fun i => if i = 0 then 0x9f else 0, fun _ => 0xff, 8, 3, 0, 0⟩, buffers [⟨0, 1, false⟩, ⟨1, 2, true⟩] identify,
    200000000, 1000000, 0, 7⟩

def sending : Request :=
  { identified with engine := { identified.engine with tx := blit 0 [0x9f] identified.engine.clear.tx } }

theorem identify_exact : ∃ c c', (system responding sending).Reachable c ∧ spiPump.run c = (.ok (0, true), c') ∧
    c'.state.engine.received = 3 ∧ Idle c' := by
  have accepted : beginRequest identified false true identify = .ok identified := rfl
  have copied : copyIn (responding.maps 0) 0 identified.transfers identified.engine.clear.tx = .ok sending.engine.tx := rfl
  have reach : (system responding sending).Reachable (spiPump.run (system responding sending).init).2 :=
    System.Reaches.step () .init trivial rfl
  refine ⟨_, _, reach, rfl, ?_⟩
  exact ((exchange_exact accepted responding).1 _ _ _ copied reach).2.2.2.2 0 _ rfl

end Request

end Pi5Drivers.Spi
