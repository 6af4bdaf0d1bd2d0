import Mathlib.Data.List.GetD
import Mathlib.Data.List.Induction
import Mathlib.Order.Basic
import Pi5Drivers.I2c.Driver
import Pi5Drivers.Lib.Cursor
import Pi5Drivers.Lib.Runs

/-! The pump over all its calls. Whatever the registers hold, the commands that were written
are the start of the one sequence that the transfers stand for, and every byte is stored where
the next of the read commands asked for it. -/

namespace Pi5Drivers.I2c

open Spb Effect Recorded

/-! ### What a request stands for -/

section Plan

variable (parts : List Part) (buffer : ℕ → UInt8)

/-- The number of bytes that are received for a transfer. -/
def readLength (i : ℕ) : ℕ := if (parts.getD i .none).read then (parts.getD i .none).length else 0

/-- The command for a byte of a transfer. The first one of every other transfer restarts, and the last
one of all stops. -/
def commandAt (i k : ℕ) : BitVec 32 :=
  (if (parts.getD i .none).read then i2cCommandRead
    else BitVec.ofNat 32 (buffer ((parts.getD i .none).offset + k)).toNat) |||
  (if k = 0 ∧ i ≠ 0 then i2cCommandRestart else 0) |||
  (if i + 1 = parts.length ∧ k + 1 = (parts.getD i .none).length then i2cCommandStop else 0)

def placeAt (i k : ℕ) : ℕ := (parts.getD i .none).offset + k

/-- One command for each byte of each transfer. -/
def commands : List (BitVec 32) :=
  walked (fun i => (parts.getD i .none).length) (commandAt parts buffer) parts.length 0

/-- Where the bytes of the read transfers belong. -/
def places : List ℕ := walked (readLength parts) (placeAt parts) parts.length 0

end Plan

def isRead (command : BitVec 32) : Bool := command.getLsbD 8

/-- What was sent and what was taken, the oldest first. -/
structure Watch where
  sent : List (BitVec 32)
  taken : List (ℕ × BitVec 32)

/-- The number of bytes that were asked for. -/
def Watch.asked (w : Watch) : ℕ := w.sent.countP isRead

def Watch.saw (w : Watch) : Event → Watch
  | .sent command => { w with sent := w.sent ++ [command] }
  | .took position data => { w with taken := w.taken ++ [(position, data)] }

/-- A command is the next of the sequence, and what it asks for will find room; a byte is one that was
asked for, and is put where the next one belongs. -/
def Watch.Allows (parts : List Part) (buffer : ℕ → UInt8) (rxDepth : ℕ) (w : Watch) : Event → Prop
  | .sent command => w.sent ++ [command] <+: commands parts buffer ∧ (isRead command = true → w.asked < w.taken.length + rxDepth)
  | .took position _ => w.taken.length < w.asked ∧ w.taken.map Prod.fst ++ [position] <+: places parts

def reader (parts : List Part) (buffer : ℕ → UInt8) (rxDepth : ℕ) : Observer Event Watch where
  init := ⟨[], []⟩
  saw := Watch.saw
  Allows := Watch.Allows parts buffer rxDepth

/-- The buffer after bytes were put in their places. -/
def stored (taken : List (ℕ × BitVec 32)) (buffer : ℕ → UInt8) : ℕ → UInt8 :=
  taken.foldl (fun b x i => if i = x.1 then UInt8.ofNat x.2.toNat else b i) buffer

section Stored

variable {taken : List (ℕ × BitVec 32)} {buffer : ℕ → UInt8} {p : ℕ} {d : BitVec 32}

theorem stored_append (taken : List (ℕ × BitVec 32)) (buffer : ℕ → UInt8) (p : ℕ) (d : BitVec 32) :
    stored (taken ++ [(p, d)]) buffer = fun i => if i = p then UInt8.ofNat d.toNat else stored taken buffer i := by
  rw [stored, List.foldl_append]
  rfl

theorem stored_other (h : p ∉ taken.map Prod.fst) : stored taken buffer p = buffer p := by
  induction taken using List.reverseRecOn with
  | nil => rfl
  | append_singleton taken x ih =>
    rw [List.map_append, List.mem_append, not_or] at h
    rw [stored_append]
    refine (if_neg fun eq => h.2 ?_).trans (ih h.1)
    exact eq ▸ List.mem_singleton.mpr rfl

theorem stored_of_mem (nodup : (taken.map Prod.fst).Nodup) (h : (p, d) ∈ taken) :
    stored taken buffer p = UInt8.ofNat d.toNat := by
  induction taken using List.reverseRecOn with
  | nil => cases h
  | append_singleton taken x ih =>
    rw [List.map_append, List.nodup_append] at nodup
    rw [stored_append]
    rcases List.mem_append.mp h with earlier | last
    · refine (if_neg fun eq => ?_).trans (ih nodup.1 earlier)
      exact nodup.2.2 _ (List.mem_map_of_mem earlier) _ (List.mem_map_of_mem List.mem_cons_self) eq
    · rw [← List.mem_singleton.mp last]
      exact if_pos rfl

end Stored

/-- The cursors of the engine agree with what was sent and taken. -/
structure Pumped (parts : List Part) (buffer : ℕ → UInt8) (rxDepth : ℕ) (e : Engine) (w : Watch) : Prop where
  count : e.transferCount = parts.length
  depth : e.rxDepth = rxDepth
  same : ∀ i, (e.transfers i).offset = (parts.getD i .none).offset ∧ (e.transfers i).length = (parts.getD i .none).length ∧
    (e.transfers i).read = (parts.getD i .none).read
  index : e.txIndex ≤ parts.length
  room : e.txIndex < parts.length → e.sending.queued < e.sending.length
  fresh : ∀ i, e.txIndex < i ∨ parts.length ≤ i → (e.transfers i).queued = 0
  sent : w.sent = walked (fun i => (parts.getD i .none).length) (commandAt parts buffer) e.txIndex e.sending.queued
  rxIndex : e.rxIndex ≤ parts.length
  received : ∀ i, (e.transfers i).received ≤ readLength parts i
  unread : ∀ i, e.rxIndex < i → (e.transfers i).received = 0
  taken : w.taken.map Prod.fst = walked (readLength parts) (placeAt parts) e.rxIndex e.receiving.received
  credit : e.outstanding + w.taken.length = w.asked
  asked : w.asked = (walked (readLength parts) (placeAt parts) e.txIndex (if e.sending.read then e.sending.queued else 0)).length
  bound : e.outstanding ≤ e.rxDepth
  buffer : e.buffer = stored w.taken buffer

section Pumped

variable {parts : List Part} {buffer : ℕ → UInt8} {rxDepth : ℕ} {e : Engine} {w : Watch}

theorem Pumped.start (fifos : ℕ × ℕ) (laid : Laid 0 parts) :
    Pumped parts buffer fifos.2 (engine buffer fifos parts) ⟨[], []⟩ where
  count := rfl
  depth := rfl
  same _ := ⟨rfl, rfl, rfl⟩
  index := Nat.zero_le _
  room some := laid.length_pos some
  fresh _ _ := rfl
  sent := rfl
  rxIndex := Nat.zero_le _
  received _ := Nat.zero_le _
  unread _ _ := rfl
  taken := rfl
  credit := rfl
  asked := by
    change 0 = (walked _ _ 0 (if _ then 0 else 0)).length
    rw [ite_self, walked_zero]
    rfl
  bound := Nat.zero_le _
  buffer := rfl

/-- A read command is told by its bit. -/
theorem isRead_commandAt (i k : ℕ) : isRead (commandAt parts buffer i k) = (parts.getD i .none).read := by
  have other {p : Prop} [Decidable p] (bit : BitVec 32) (h : bit.getLsbD 8 = false) : (if p then bit else 0).getLsbD 8 = false := by
    split
    · exact h
    · rfl
  rw [isRead, commandAt, BitVec.getLsbD_or, BitVec.getLsbD_or, other _ (by decide), other _ (by decide), Bool.or_false, Bool.or_false]
  cases (parts.getD i .none).read with
  | true =>
    rw [if_pos rfl]
    rfl
  | false =>
    change (BitVec.ofNat 32 _).getLsbD 8 = false
    rw [BitVec.getLsbD_ofNat, Nat.testBit_lt_two_pow (UInt8.toNat_lt _), Bool.and_false]

theorem readLength_of_read {i : ℕ} (h : (parts.getD i .none).read = true) : readLength parts i = (parts.getD i .none).length :=
  if_pos h

theorem readLength_of_write {i : ℕ} (h : (parts.getD i .none).read = false) : readLength parts i = 0 :=
  if_neg (Bool.eq_false_iff.mp h)

/-- A byte that is written lies at no place of a byte that is received. -/
theorem not_mem_places (laid : Laid 0 parts) {i k : ℕ} (hi : i < parts.length) (write : (parts.getD i .none).read = false)
    (hk : k < (parts.getD i .none).length) : (parts.getD i .none).offset + k ∉ places parts := by
  intro there
  obtain ⟨j, hj, m, hm, eq⟩ := mem_walked there
  have read : (parts.getD j .none).read = true := by
    by_contra no
    rw [readLength_of_write (Bool.eq_false_iff.mpr no)] at hm
    exact Nat.not_lt_zero _ hm
  rw [readLength_of_read read] at hm
  obtain ⟨rfl, -⟩ := laid.eq_of_position hi hj hk hm eq.symm
  rw [write] at read
  exact Bool.false_ne_true read

theorem Pumped.taken_prefix (h : Pumped parts buffer rxDepth e w) : w.taken.map Prod.fst <+: places parts := by
  rw [h.taken]
  rcases Nat.lt_or_eq_of_le h.rxIndex with lt | eq
  · exact walked_prefix lt (h.received _)
  · have none : e.receiving.received = 0 := by
      refine Nat.le_zero.mp (Nat.le_trans (h.received _) ?_)
      rw [eq, readLength, List.getD_eq_default _ _ (Nat.le_refl _)]
      exact Nat.le_refl 0
    rw [none, eq]
    exact List.prefix_refl _

/-- What is written next is the next command of the sequence. -/
theorem Pumped.command (h : Pumped parts buffer rxDepth e w) (laid : Laid 0 parts) (some : e.txIndex < parts.length) :
    e.command = commandAt parts buffer e.txIndex e.sending.queued := by
  obtain ⟨offset, length, read⟩ := h.same e.txIndex
  have room : e.sending.queued < (parts.getD e.txIndex .none).length := length ▸ h.room some
  have byte : (parts.getD e.txIndex .none).read = false →
      e.buffer ((parts.getD e.txIndex .none).offset + e.sending.queued) =
        buffer ((parts.getD e.txIndex .none).offset + e.sending.queued) := by
    intro write
    rw [h.buffer]
    exact stored_other fun there => not_mem_places laid some write room (h.taken_prefix.subset there)
  simp only [Engine.command, commandAt, Engine.sending, offset, length, read, h.count] at byte ⊢
  cases write : (parts.getD e.txIndex .none).read with
  | true => rfl
  | false =>
    rw [byte write]
    rfl

theorem Pumped.sent_prefix (h : Pumped parts buffer rxDepth e w) : w.sent <+: commands parts buffer := by
  rw [h.sent]
  rcases Nat.lt_or_eq_of_le h.index with lt | eq
  · exact walked_prefix lt ((h.same _).2.1 ▸ Nat.le_of_lt (h.room lt))
  · rw [Engine.sending, h.fresh _ (.inr (Nat.le_of_eq eq.symm)), eq]
    exact List.prefix_refl _

theorem Pumped.complete (h : Pumped parts buffer rxDepth e w) (all : e.txIndex = e.transferCount) (none : e.outstanding = 0) :
    w.sent = commands parts buffer ∧ w.taken.map Prod.fst = places parts := by
  have last : e.txIndex = parts.length := all.trans h.count
  have queued : e.sending.queued = 0 := h.fresh _ (.inr (Nat.le_of_eq last.symm))
  constructor
  · rw [h.sent, queued, last]
    rfl
  · refine h.taken_prefix.eq_of_length ?_
    have asked : w.asked = (places parts).length := by
      rw [h.asked, queued, ite_self, last]
      rfl
    rw [List.length_map, ← asked, ← h.credit, none, Nat.zero_add]

/-! ### One command -/

theorem queue_transfers (e : Engine) (i : ℕ) :
    e.queue.transfers i = if i = e.txIndex then { e.sending with queued := e.sending.queued + 1 } else e.transfers i := rfl

/-- All but what was queued stays as it is. -/
theorem queue_same (e : Engine) (i : ℕ) :
    (e.queue.transfers i).offset = (e.transfers i).offset ∧ (e.queue.transfers i).length = (e.transfers i).length ∧
    (e.queue.transfers i).read = (e.transfers i).read ∧ (e.queue.transfers i).received = (e.transfers i).received := by
  rw [queue_transfers]
  split
  · subst i
    exact ⟨rfl, rfl, rfl, rfl⟩
  · exact ⟨rfl, rfl, rfl, rfl⟩

section Queue

variable (h : Pumped parts buffer rxDepth e w) (laid : Laid 0 parts) (some : e.txIndex < parts.length)
  (room : e.sending.read = true → e.outstanding ≠ e.rxDepth)

include h

theorem Pumped.asked_place : w.asked + (if e.sending.read then 1 else 0) =
    (walked (readLength parts) (placeAt parts) e.txIndex (if e.sending.read then e.sending.queued + 1 else 0)).length := by
  rw [h.asked]
  split
  · rw [walked_place, List.length_append]
    rfl
  · rfl

include some

/-- The cursor after the command, at the next place or before the next transfer. -/
theorem Pumped.queue_cursor :
    (e.queue.txIndex = e.txIndex + 1 ∧ e.queue.sending.queued = 0 ∧ e.sending.queued + 1 = (parts.getD e.txIndex .none).length) ∨
    (e.queue.txIndex = e.txIndex ∧ e.queue.sending.queued = e.sending.queued + 1 ∧
      e.sending.queued + 1 < (parts.getD e.txIndex .none).length) := by
  obtain ⟨-, length, -⟩ := h.same e.txIndex
  have before : e.sending.queued < e.sending.length := h.room some
  by_cases last : e.sending.queued + 1 = e.sending.length
  · have next : e.queue.txIndex = e.txIndex + 1 := if_pos last
    refine .inl ⟨next, ?_, last.trans length⟩
    rw [Engine.sending, next, queue_transfers, if_neg (by omega)]
    exact h.fresh _ (.inl (Nat.lt_succ_self _))
  · have next : e.queue.txIndex = e.txIndex := if_neg last
    refine .inr ⟨next, ?_, ?_⟩
    · rw [Engine.sending, next, queue_transfers, if_pos rfl]
    · rw [← length]
      change e.sending.queued + 1 < e.sending.length
      omega

include laid

theorem Pumped.sent_next : w.sent ++ [e.command] =
    walked (fun i => (parts.getD i .none).length) (commandAt parts buffer) e.txIndex (e.sending.queued + 1) := by
  rw [walked_place, ← h.sent, h.command laid some]

include room in
theorem Pumped.queue_allowed : w.Allows parts buffer rxDepth (.sent e.command) := by
  obtain ⟨-, length, read⟩ := h.same e.txIndex
  constructor
  · rw [h.sent_next laid some]
    exact walked_prefix some (length ▸ h.room some)
  · intro asks
    rw [h.command laid some, isRead_commandAt, ← read] at asks
    have := h.bound
    have := room asks
    have := h.credit
    have := h.depth
    omega

/-- A read command asks for one byte more. -/
theorem Pumped.asked_next : (w.saw (.sent e.command)).asked = w.asked + if e.sending.read then 1 else 0 := by
  obtain ⟨-, -, read⟩ := h.same e.txIndex
  change (w.sent ++ [e.command]).countP isRead = _
  rw [List.countP_append, List.countP_singleton, h.command laid some, isRead_commandAt, ← read]
  rfl

include room in
theorem Pumped.queue : Pumped parts buffer rxDepth e.queue (w.saw (.sent e.command)) := by
  have cursor := h.queue_cursor some
  obtain ⟨-, length, read⟩ := h.same e.txIndex
  refine
    { count := h.count
      depth := h.depth
      same := fun i => ?_
      index := by omega
      room := fun rest => ?_
      fresh := fun i past => ?_
      sent := (h.sent_next laid some).trans ?_
      rxIndex := h.rxIndex
      received := fun i => (queue_same e i).2.2.2 ▸ h.received i
      unread := fun i past => (queue_same e i).2.2.2.trans (h.unread i past)
      taken := h.taken.trans ?_
      credit := ?_
      asked := (h.asked_next laid some).trans (h.asked_place.trans ?_)
      bound := ?_
      buffer := h.buffer }
  · obtain ⟨offset, length, read, -⟩ := queue_same e i
    exact ⟨offset.trans (h.same i).1, length.trans (h.same i).2.1, read.trans (h.same i).2.2⟩
  · have same : e.queue.sending.length = (parts.getD e.queue.txIndex .none).length :=
      (queue_same e _).2.1.trans (h.same _).2.1
    rw [same]
    rcases cursor with ⟨-, none, -⟩ | ⟨next, queued, within⟩
    · exact none ▸ laid.length_pos rest
    · exact next ▸ queued ▸ within
  · have moved : e.txIndex ≤ e.queue.txIndex := by omega
    have apart : i ≠ e.txIndex := by omega
    rw [queue_transfers, if_neg apart]
    exact h.fresh i (by omega)
  · rcases cursor with ⟨next, queued, last⟩ | ⟨next, queued, -⟩
    · rw [next, queued, last]
      exact walked_segment (fun i => (parts.getD i .none).length) _ _
    · rw [next, queued]
  · exact congrArg (walked _ _ _) (queue_same e e.rxIndex).2.2.2.symm
  · rw [h.asked_next laid some, ← h.credit]
    change (if e.sending.read then e.outstanding + 1 else e.outstanding) + w.taken.length = _
    split <;> omega
  · rcases cursor with ⟨next, none, last⟩ | ⟨next, queued, -⟩
    · rw [next, none, ite_self]
      change (walked _ _ _ (if (e.transfers e.txIndex).read then _ else 0)).length = _
      cases reads : (parts.getD e.txIndex .none).read with
      | true => rw [read, reads, if_pos rfl, last, ← readLength_of_read reads, walked_segment]
      | false => rw [read, reads, if_neg Bool.false_ne_true, walked_empty (readLength_of_write reads)]
    · rw [next, queued]
      change _ = (walked _ _ _ (if (e.queue.transfers e.queue.txIndex).read then _ else 0)).length
      rw [next, (queue_same e e.txIndex).2.2.1]
      rfl
  · have := h.bound
    change (if e.sending.read then e.outstanding + 1 else e.outstanding) ≤ e.rxDepth
    split
    · have := room ‹_›
      omega
    · exact h.bound

end Queue

/-! ### One byte -/

/-- A transfer that is passed has received all its bytes. -/
theorem Pumped.received_of_passed (h : Pumped parts buffer rxDepth e w) {i : ℕ} (passed : e.passed i = true) :
    (e.transfers i).received = readLength parts i := by
  obtain ⟨-, length, read⟩ := h.same i
  rw [Engine.passed, Bool.or_eq_true, beq_iff_eq] at passed
  rcases passed with write | all
  · have write : (parts.getD i .none).read = false := by
      rw [← read]
      exact Bool.not_eq_true _ ▸ (Bool.not_eq_true' _).mp write
    have none := h.received i
    rw [readLength_of_write write] at none ⊢
    exact Nat.le_zero.mp none
  · cases reads : (parts.getD i .none).read with
    | true => rw [readLength_of_read reads, all, length]
    | false =>
      have none := h.received i
      rw [readLength_of_write reads] at none ⊢
      exact Nat.le_zero.mp none

theorem Pumped.pass (h : Pumped parts buffer rxDepth e w) (some : e.rxIndex < e.transferCount) (passed : e.passed e.rxIndex = true) :
    Pumped parts buffer rxDepth { e with rxIndex := e.rxIndex + 1 } w :=
  { h with
    rxIndex := h.count ▸ some
    unread := fun i past => h.unread i (Nat.lt_of_succ_lt past)
    taken := by
      have all : e.receiving.received = readLength parts e.rxIndex := h.received_of_passed passed
      have next : (e.transfers (e.rxIndex + 1)).received = 0 := h.unread _ (Nat.lt_succ_self _)
      change _ = walked _ _ (e.rxIndex + 1) (e.transfers (e.rxIndex + 1)).received
      rw [h.taken, all, next, walked_segment] }

/-- The receive cursor steps over what is complete, and stops before what is not. -/
theorem Pumped.skip (n : ℕ) {i : ℕ} (h : Pumped parts buffer rxDepth { e with rxIndex := i } w)
    (enough : e.transferCount ≤ i + n) :
    Pumped parts buffer rxDepth { e with rxIndex := e.skip n i } w ∧
      (e.skip n i < e.transferCount → e.passed (e.skip n i) = false) := by
  induction n generalizing i with
  | zero => exact ⟨h, fun some => absurd some (Nat.not_lt.mpr enough)⟩
  | succ n ih =>
    by_cases more : i < e.transferCount ∧ e.passed i = true
    · rw [Engine.skip, if_pos more]
      exact ih (h.pass more.1 more.2) (by omega)
    · rw [Engine.skip, if_neg more]
      exact ⟨h, fun some => Bool.eq_false_iff.mpr fun passed => more ⟨some, passed⟩⟩

theorem Pumped.advance (h : Pumped parts buffer rxDepth e w) : Pumped parts buffer rxDepth e.advance w ∧
    (e.advance.rxIndex < e.transferCount → e.advance.passed e.advance.rxIndex = false) :=
  Pumped.skip _ h (by omega)

theorem store_transfers (e : Engine) (data : BitVec 32) (i : ℕ) : (e.store data).transfers i =
    if i = e.rxIndex then { e.receiving with received := e.receiving.received + 1 } else e.transfers i := rfl

section Store

variable (h : Pumped parts buffer rxDepth e w) (some : e.outstanding ≠ 0) (left : e.rxIndex ≠ e.transferCount)
  (more : e.rxIndex < e.transferCount → e.passed e.rxIndex = false) (data : BitVec 32)

include h left more

theorem Pumped.within : e.rxIndex < parts.length ∧ e.receiving.received < readLength parts e.rxIndex ∧
    e.place = placeAt parts e.rxIndex e.receiving.received := by
  obtain ⟨offset, length, read⟩ := h.same e.rxIndex
  have inside : e.rxIndex < e.transferCount := Nat.lt_of_le_of_ne (h.count ▸ h.rxIndex) left
  have open_ := more inside
  rw [Engine.passed, Bool.or_eq_false_iff, beq_eq_false_iff_ne, Bool.not_eq_false'] at open_
  refine ⟨h.count ▸ inside, Nat.lt_of_le_of_ne (h.received _) fun all => open_.2 ?_, congrArg (· + _) offset⟩
  rw [length, ← readLength_of_read (read ▸ open_.1)]
  exact all

theorem Pumped.taken_next : w.taken.map Prod.fst ++ [e.place] =
    walked (readLength parts) (placeAt parts) e.rxIndex (e.receiving.received + 1) := by
  rw [walked_place, ← h.taken, (h.within left more).2.2]

include some in
theorem Pumped.store_allowed : w.Allows parts buffer rxDepth (.took e.place data) := by
  obtain ⟨inside, room, -⟩ := h.within left more
  constructor
  · have := h.credit
    omega
  · rw [h.taken_next left more]
    exact walked_prefix inside room

include some in
theorem Pumped.store : Pumped parts buffer rxDepth (e.store data) (w.saw (.took e.place data)) := by
  obtain ⟨inside, room, -⟩ := h.within left more
  have kept (i : ℕ) : ((e.store data).transfers i).offset = (e.transfers i).offset ∧
      ((e.store data).transfers i).length = (e.transfers i).length ∧
      ((e.store data).transfers i).read = (e.transfers i).read ∧
      ((e.store data).transfers i).queued = (e.transfers i).queued := by
    rw [store_transfers]
    split
    · subst i
      exact ⟨rfl, rfl, rfl, rfl⟩
    · exact ⟨rfl, rfl, rfl, rfl⟩
  have credit := h.credit
  exact
    { count := h.count
      depth := h.depth
      same := fun i => ⟨(kept i).1.trans (h.same i).1, (kept i).2.1.trans (h.same i).2.1, (kept i).2.2.1.trans (h.same i).2.2⟩
      index := h.index
      room := fun rest => by
        change ((e.store data).transfers e.txIndex).queued < ((e.store data).transfers e.txIndex).length
        rw [(kept _).2.2.2, (kept _).2.1]
        exact h.room rest
      fresh := fun i past => (kept i).2.2.2.trans (h.fresh i past)
      sent := h.sent.trans (congrArg (walked _ _ _) (kept _).2.2.2.symm)
      rxIndex := h.rxIndex
      received := fun i => by
        rw [store_transfers]
        split
        · subst i
          exact room
        · exact h.received i
      unread := fun i (past : e.rxIndex < i) => by
        rw [store_transfers, if_neg (Nat.ne_of_gt past)]
        exact h.unread i past
      taken := by
        change (w.taken ++ [(e.place, data)]).map Prod.fst = walked _ _ e.rxIndex ((e.store data).transfers e.rxIndex).received
        rw [List.map_append, store_transfers, if_pos rfl]
        exact h.taken_next left more
      credit := by
        change e.outstanding - 1 + (w.taken ++ [(e.place, data)]).length = w.asked
        rw [List.length_append, List.length_singleton]
        omega
      asked := by
        change w.asked = (walked _ _ e.txIndex (if ((e.store data).transfers e.txIndex).read then
          ((e.store data).transfers e.txIndex).queued else 0)).length
        rw [(kept _).2.2.1, (kept _).2.2.2]
        exact h.asked
      bound := Nat.le_trans (Nat.sub_le _ _) h.bound
      buffer := by
        change (fun i => if i = e.place then UInt8.ofNat data.toNat else e.buffer i) = stored (w.taken ++ [(e.place, data)]) buffer
        rw [stored_append, h.buffer] }

end Store

end Pumped

/-! ### The pump -/

section Pump

variable {parts : List Part} {buffer : ℕ → UInt8} {rxDepth : ℕ} {E : Status → Context → Prop}

theorem receive_rule (n : ℕ) : Triple (Assert (reader parts buffer rxDepth) fun e w => n ≤ e.outstanding ∧ Pumped parts buffer rxDepth e w)
    (receive n) (fun _ => Assert (reader parts buffer rxDepth) (Pumped parts buffer rxDepth))
    fun _ => Assert (reader parts buffer rxDepth) (Pumped parts buffer rxDepth) := by
  induction n with
  | zero => exact Triple.pure fun _ hc => hc.mono fun _ _ h => h.2
  | succ n ih =>
    refine Triple.bind (change_rule (B := fun e w => n + 1 ≤ e.outstanding ∧ Pumped parts buffer rxDepth e w ∧
      (e.rxIndex < e.transferCount → e.passed e.rxIndex = false)) _ fun e w h => ⟨h.1, h.2.advance⟩) fun _ => look_rule fun e => ?_
    refine Triple.bind (require_rule fun _ _ _ h => h.2.2.1) fun _ => Triple.bind (ask_rule _) fun data => ?_
    refine Triple.bind (record_rule (B := fun e' w => n ≤ e'.outstanding - 1 ∧ Pumped parts buffer rxDepth (e'.store data) w) _ ?_ ?_)
      fun _ => Triple.bind (change_rule _ fun _ _ h => h) fun _ => ih
    · rintro _ w ⟨left, rfl, some, h, more⟩
      exact h.store_allowed (by omega) left more data
    · rintro _ w ⟨left, rfl, some, h, more⟩
      exact ⟨by omega, h.store (by omega) left more data⟩

theorem send_rule (laid : Laid 0 parts) (n : ℕ) : Triple (Assert (reader parts buffer rxDepth) (Pumped parts buffer rxDepth))
    (send n) (fun _ => Assert (reader parts buffer rxDepth) (Pumped parts buffer rxDepth)) E := by
  induction n with
  | zero => exact pure_rule
  | succ n ih =>
    refine look_rule fun e => Triple.when (fun more => ?_) fun _ hc _ => hc.mono fun _ _ h => h.2
    refine Triple.bind (record_rule (B := fun e' w => Pumped parts buffer rxDepth e'.queue w) _ ?_ ?_) fun _ =>
      Triple.bind (change_rule _ fun _ _ h => h) fun _ => ih
    · rintro _ w ⟨rfl, h⟩
      exact h.queue_allowed laid (h.count ▸ more.1) fun reads full => more.2 ⟨reads, full⟩
    · rintro _ w ⟨rfl, h⟩
      exact h.queue laid (h.count ▸ more.1) fun reads full => more.2 ⟨reads, full⟩

/-- When the pump says that the request is done, nothing is left; when it does not, the sources of what
can come next are enabled. -/
def Result (parts : List Part) (buffer : ℕ → UInt8) (r : BitVec 32 × Bool) (e : Engine) (w : Watch) : Prop :=
  if r.2 then w.sent = commands parts buffer ∧ w.taken.map Prod.fst = places parts
  else r.1 = e.mask

theorem finish_rule : Triple (Assert (reader parts buffer rxDepth) (Pumped parts buffer rxDepth)) finish
    (fun r => Assert (reader parts buffer rxDepth) fun e w => Result parts buffer r e w ∧ Pumped parts buffer rxDepth e w)
    fun _ => Assert (reader parts buffer rxDepth) (Pumped parts buffer rxDepth) := by
  refine look_rule fun e => Triple.bind (require_rule fun _ _ _ h => h.2) fun _ => Triple.pure fun _ hc => hc.mono ?_
  rintro _ w ⟨⟨all, none⟩, rfl, h⟩
  exact ⟨h.complete all none, h⟩

theorem transmit_rule (laid : Laid 0 parts) : Triple (Assert (reader parts buffer rxDepth) (Pumped parts buffer rxDepth)) transmit
    (fun r => Assert (reader parts buffer rxDepth) fun e w => Result parts buffer r e w ∧ Pumped parts buffer rxDepth e w)
    fun _ => Assert (reader parts buffer rxDepth) (Pumped parts buffer rxDepth) := by
  refine Triple.bind (ask_rule _) fun count => look_rule fun e => ?_
  refine Triple.bind (require_rule fun _ _ _ h => h.2) fun _ => ?_
  refine Triple.bind (Triple.mono (send_rule laid _) (fun _ hc => hc.mono fun _ _ h => h.2.2) (fun _ _ hc => hc) fun _ _ hc => hc)
    fun _ => look_rule fun e => Triple.pure fun _ hc => hc.mono ?_
  rintro _ w ⟨rfl, h⟩
  exact ⟨rfl, h⟩

theorem abort_rule : Triple (Assert (reader parts buffer rxDepth) (Pumped parts buffer rxDepth)) abort
    (fun _ => Assert (reader parts buffer rxDepth) (Pumped parts buffer rxDepth))
    fun _ => Assert (reader parts buffer rxDepth) (Pumped parts buffer rxDepth) := by
  refine Triple.bind (ask_rule _) fun source => Triple.bind (change_rule (B := Pumped parts buffer rxDepth) _ fun _ _ h => { h with })
    fun _ => Triple.bind (ask_rule _) fun _ => ?_
  exact Triple.ite (fun _ => stop_rule fun _ _ h => h) fun _ => stop_rule fun _ _ h => h

theorem noteStop_rule (raw : BitVec 32) : Triple (Assert (reader parts buffer rxDepth) (Pumped parts buffer rxDepth)) (noteStop raw)
    (fun _ => Assert (reader parts buffer rxDepth) (Pumped parts buffer rxDepth)) E :=
  Triple.when (fun _ => Triple.bind (change_rule (B := Pumped parts buffer rxDepth) _ fun _ _ h => { h with }) fun _ => Triple.bind (ask_rule _) fun _ => pure_rule)
    fun _ hc _ => hc

theorem i2cPump_rule (laid : Laid 0 parts) : Triple (Assert (reader parts buffer rxDepth) (Pumped parts buffer rxDepth)) i2cPump
    (fun r => Assert (reader parts buffer rxDepth) fun e w => Result parts buffer r e w ∧ Pumped parts buffer rxDepth e w)
    fun _ => Assert (reader parts buffer rxDepth) (Pumped parts buffer rxDepth) := by
  refine Triple.bind (ask_rule _) fun raw => Triple.bind (Triple.when (fun _ => abort_rule) fun _ hc _ => hc) fun _ => ?_
  refine Triple.bind (require_rule fun _ _ _ h => h) fun _ => assume_rule fun _ => Triple.bind (noteStop_rule raw) fun _ => ?_
  refine Triple.bind (ask_rule _) fun count => look_rule fun e => Triple.bind (require_rule fun _ _ _ h => h.2) fun _ => ?_
  refine Triple.bind (Triple.mono (receive_rule count.toNat) (fun _ hc => hc.mono ?_) (fun _ _ hc => hc) fun _ _ hc => hc)
    fun _ => glance_rule fun e => Triple.ite (fun _ => finish_rule) fun _ => transmit_rule laid
  rintro _ w ⟨few, rfl, h⟩
  exact ⟨few.2, h⟩

end Pump

/-! ### All calls -/

/-- A request that waits for its pump, in a world. -/
def system (world : World) (e : Engine) : System Context Unit where
  init := ⟨world, 0, e, []⟩
  next c _ := some (i2cPump.run c).2

section System

variable {single : Bool} {ds : List Descriptor} {parts : List Part} {parameters : BitVec 32} {fifos : ℕ × ℕ}
  {buffer : ℕ → UInt8} {world : World} {c : Context}

theorem laid_of_transfers (h : transfersOf single ds = .ok parts) : Laid 0 parts := by
  unfold transfersOf at h
  split at h
  · cases h
  · split at h
    · cases h
      exact laid_of_layout ‹_›
    · cases h

theorem two_le_of_depths (h : depths parameters = .ok fifos) : 2 ≤ fifos.1 ∧ 2 ≤ fifos.2 := by
  unfold depths at h
  dsimp only at h
  split at h
  · cases h
  · cases h
    omega

theorem pumped_of_reachable (laid : Laid 0 parts) (h : (system world (engine buffer fifos parts)).Reachable c) :
    Assert (reader parts buffer fifos.2) (Pumped parts buffer fifos.2) c := by
  have init : Assert (reader parts buffer fifos.2) (Pumped parts buffer fifos.2) (system world (engine buffer fifos parts)).init :=
    ⟨trivial, .start fifos laid⟩
  refine h.invariant (I := Assert (reader parts buffer fifos.2) (Pumped parts buffer fifos.2)) init ?_
  intro c c' _ pumped _ next
  cases next
  have := i2cPump_rule laid pumped
  rcases run : i2cPump.run c with ⟨_ | _, c'⟩ <;> rw [run] at this
  · exact this
  · exact this.mono fun _ _ h => h.2

theorem mask_sources (e : Engine) : e.mask &&& (i2cIrqErrors ||| i2cIrqStop) = i2cIrqErrors ||| i2cIrqStop ∧
    (e.mask &&& i2cIrqRx ≠ 0 ↔ e.outstanding ≠ 0) ∧ (e.mask &&& i2cIrqTx ≠ 0 ↔ e.Sendable) := by
  unfold Engine.mask
  by_cases none : e.outstanding = 0 <;> by_cases more : e.Sendable <;>
    simp only [none, more, if_true, if_false, ne_eq, not_false_eq_true, not_true_eq_false] <;> decide

theorem nodup_places (laid : Laid 0 parts) : (places parts).Nodup := by
  refine nodup_walked fun i hi j hj k hk l hl eq => laid.eq_of_position hi hj ?_ ?_ eq
  · unfold readLength at hk
    split at hk <;> omega
  · unfold readLength at hl
    split at hl <;> omega

/-- Whatever the registers hold and however often the pump is called, the commands that were written are
the start of the sequence that the transfers stand for, no more bytes are asked for than the receive
FIFO holds, and every byte that is taken was asked for and is stored where the next one belongs; what
the write transfers send stays as it was. A call that reports that the request is done left nothing
to send or to receive, and one that does not enables a source for whatever can come next. -/
theorem pump_exact (accepted : transfersOf single ds = .ok parts) (usable : depths parameters = .ok fifos)
    (h : (system world (engine buffer fifos parts)).Reachable c) :
    (reader parts buffer fifos.2).InOrder c.trace ∧
    ((reader parts buffer fifos.2).watch c.trace).sent <+: commands parts buffer ∧
    (c.state.outstanding + ((reader parts buffer fifos.2).watch c.trace).taken.length =
      ((reader parts buffer fifos.2).watch c.trace).asked ∧ c.state.outstanding ≤ fifos.2) ∧
    (((reader parts buffer fifos.2).watch c.trace).taken.map Prod.fst <+: places parts ∧
      (∀ p d, (p, d) ∈ ((reader parts buffer fifos.2).watch c.trace).taken → c.state.buffer p = UInt8.ofNat d.toNat) ∧
      ∀ i < parts.length, (parts.getD i .none).read = false → ∀ k < (parts.getD i .none).length,
        c.state.buffer ((parts.getD i .none).offset + k) = buffer ((parts.getD i .none).offset + k)) ∧
    ∀ mask done c', i2cPump.run c = (.ok (mask, done), c') →
      (done = true → ((reader parts buffer fifos.2).watch c'.trace).sent = commands parts buffer ∧
        ((reader parts buffer fifos.2).watch c'.trace).taken.map Prod.fst = places parts) ∧
      (done = false → mask &&& (i2cIrqErrors ||| i2cIrqStop) = i2cIrqErrors ||| i2cIrqStop ∧
        (c'.state.outstanding ≠ 0 → mask &&& i2cIrqRx ≠ 0) ∧ (c'.state.Sendable → mask &&& i2cIrqTx ≠ 0) ∧
        (c'.state.outstanding ≠ 0 ∨ c'.state.Sendable ∨
          ((reader parts buffer fifos.2).watch c'.trace).sent = commands parts buffer ∧
          ((reader parts buffer fifos.2).watch c'.trace).taken.map Prod.fst = places parts)) := by
  have laid := laid_of_transfers accepted
  have reached := pumped_of_reachable laid h
  have pumped := reached.2
  have prefixed := pumped.taken_prefix
  refine ⟨reached.1, pumped.sent_prefix, ⟨pumped.credit, pumped.depth ▸ pumped.bound⟩, ⟨prefixed, fun p d taken => ?_, fun i hi write k hk => ?_⟩,
    fun mask done c' run => ?_⟩
  · rw [pumped.buffer]
    exact stored_of_mem ((nodup_places laid).sublist prefixed.sublist) taken
  · rw [pumped.buffer]
    exact stored_other fun there => not_mem_places laid hi write hk (prefixed.subset there)
  · obtain ⟨-, result, pumped⟩ := (i2cPump_rule laid).of_ok reached run
    constructor
    · rintro rfl
      exact result
    · rintro rfl
      obtain rfl : mask = c'.state.mask := result
      obtain ⟨always, rx, tx⟩ := mask_sources c'.state
      refine ⟨always, rx.mpr, tx.mpr, ?_⟩
      by_cases none : c'.state.outstanding = 0
      · refine .inr ?_
        by_cases more : c'.state.txIndex < c'.state.transferCount
        · have := two_le_of_depths usable
          have := pumped.depth
          exact .inl ⟨more, .inr (by omega)⟩
        · have := pumped.index
          have := pumped.count
          exact .inr (pumped.complete (by omega) none)
      · exact .inl none

/-- Two bytes are written, and three are read. -/
def register : List Descriptor := [⟨2, .toDevice, [[0x11], [0x22]], 0⟩, ⟨3, .fromDevice, [[0, 0, 0]], 0⟩]

/-- Everything is sent at once, and when the pump is called again the answer is there. -/
def answering : World where
  register time offset :=
    if offset = i2cRaw then (if time < 3 then 0 else i2cIrqStop)
    else if offset = i2cRxLevel then (if time < 3 then 0 else 3)
    else if offset = i2cData then 0x5a else 0

/-- The engine of such a request. -/
def registered : Engine := engine (fun i => if i = 0 then 0x11 else 0x22) (8, 8) [⟨0, 2, false⟩, ⟨2, 3, true⟩]

theorem register_exact : ∃ c, (system answering registered).Reachable c ∧ (i2cPump.run c).1 = .ok (0, true) ∧
    ((reader [⟨0, 2, false⟩, ⟨2, 3, true⟩] registered.buffer 8).watch (i2cPump.run c).2.trace).sent =
      [0x11, 0x22, 0x500, 0x100, 0x300] ∧
    ((reader [⟨0, 2, false⟩, ⟨2, 3, true⟩] registered.buffer 8).watch (i2cPump.run c).2.trace).taken.map Prod.fst = [2, 3, 4] := by
  have accepted : transfersOf true register = .ok [⟨0, 2, false⟩, ⟨2, 3, true⟩] := by decide
  have usable : depths 0x00070700 = .ok (8, 8) := by decide
  have reach : (system answering registered).Reachable (i2cPump.run (system answering registered).init).2 :=
    System.Reachable.step () .init rfl
  refine ⟨_, reach, rfl, ?_⟩
  have result := (pump_exact accepted usable reach).2.2.2.2 0 true _ rfl
  exact result.1 rfl

end System

end Pi5Drivers.I2c
