import Pi5Drivers.Lib.Streak
import Pi5Drivers.Platform.Hardware

/-! What a sequence of random reads may be relied on for: the health state follows the words of all calls,
and a buffer holds exactly the words of its read, or nothing of them. -/

namespace Pi5Drivers.Platform

/-! ### Storing words -/

section Storing

variable {done : ℕ} {l bytes : List (BitVec 8)}

@[simp] theorem length_littleEndian (word : BitVec 32) : (littleEndian word).length = 4 := rfl

theorem put_length : (put l done bytes).2.length = bytes.length := by
  induction l generalizing done bytes with
  | nil => rfl
  | cons b l ih =>
    rw [put]
    split
    · rw [ih, List.length_set]
    · rfl

theorem put_done (room : done ≤ bytes.length) : (put l done bytes).1 = min (done + l.length) bytes.length := by
  induction l generalizing done bytes with
  | nil => exact (Nat.min_eq_left room).symm
  | cons b l ih =>
    rw [put]
    split
    · rw [ih (by simpa), List.length_set, List.length_cons]
      omega
    · rw [List.length_cons]
      omega

/-- What is in the buffer up to where the next byte goes. -/
theorem put_take (room : done ≤ bytes.length) :
    (put l done bytes).2.take (put l done bytes).1 = (bytes.take done ++ l).take bytes.length := by
  induction l generalizing done bytes with
  | nil => simp [put, List.take_take, room]
  | cons b l ih =>
    rw [put]
    split
    case isTrue more =>
      have step : (bytes.set done b).take (done + 1) = bytes.take done ++ [b] := by
        rw [List.take_add_one, List.take_set_of_le (Nat.le_refl _), List.getElem?_set_self more]
        rfl
      rw [ih (by simpa), step, List.append_assoc, List.length_set]
      rfl
    case isFalse full =>
      have : done = bytes.length := by omega
      simp [this]

end Storing

/-! ### The health state -/

/-- The state follows the words that were seen, the newest first. -/
structure Tracks (s : RngState) (seen : List (BitVec 32)) : Prop where
  repetitions : s.repetitions = streak seen
  lastWord : ∀ w ∈ seen.head?, s.lastWord = w
  healthy : s.failed = false → ¬Repeats 4 seen

section Health

variable {s : RngState} {seen : List (BitVec 32)}

theorem tracks_start : Tracks .start [] := ⟨rfl, nofun, fun _ => not_repeats_nil (by decide)⟩

theorem Tracks.fail (h : Tracks s seen) : Tracks s.fail seen := ⟨h.repetitions, h.lastWord, nofun⟩

theorem Tracks.saw (h : Tracks s seen) (word : BitVec 32) : Tracks (s.saw word) (word :: seen) := by
  have count : (s.saw word).repetitions = streak (word :: seen) := by
    cases seen with
    | nil => simp [RngState.saw, h.repetitions, streak]
    | cons last older =>
      have known : s.lastWord = last := h.lastWord last rfl
      have : streak (last :: older) ≠ 0 := streak_pos.ne'
      simp only [RngState.saw, h.repetitions, known, streak, this, ne_eq, not_false_eq_true, true_and]
      exact if_congr eq_comm rfl rfl
  refine ⟨count, fun w mem => ?_, fun fine => ?_⟩
  · cases mem
    rfl
  · have fine : s.failed = false ∧ (s.saw word).repetitions < 4 := by
      simpa [RngState.saw] using fine
    rw [repeats_cons (by decide), ← count]
    exact not_or.mpr ⟨by omega, h.healthy fine.1⟩

theorem saw_failed (failed : s.failed = true) (word : BitVec 32) : (s.saw word).failed = true := by
  simp [RngState.saw, failed]

theorem saw_fine (fine : s.failed = false) {word : BitVec 32} (few : ¬4 ≤ (s.saw word).repetitions) : (s.saw word).failed = false := by
  simp only [RngState.saw, not_le] at few
  simp [RngState.saw, fine, few]

end Health

/-! ### One read -/

section Reads

variable {p q : Progress} {older : List (BitVec 32)} {start : BitVec 64} {r : Round} {rounds : List Round} {result : Result}

/-- The words so far are in the buffer, and none of them was taken that was not needed. -/
structure Filled (p : Progress) : Prop where
  done : p.done = min (4 * p.words.length) p.bytes.length
  stored : p.bytes.take p.done = (p.words.flatMap littleEndian).take p.bytes.length
  needed : 4 * p.words.length < p.bytes.length + 4

theorem length_flatMap_littleEndian (words : List (BitVec 32)) : (words.flatMap littleEndian).length = 4 * words.length := by
  induction words with
  | nil => rfl
  | cons w words ih =>
    simp only [List.flatMap_cons, List.length_append, length_littleEndian, ih, List.length_cons]
    omega

/-- What holds of a read under way, after the words of earlier calls. -/
structure Under (older : List (BitVec 32)) (p : Progress) : Prop where
  tracks : Tracks p.state (p.words.reverse ++ older)
  filled : Filled p

/-- Where a round or a loop that does not succeed may end. -/
structure Ended (older : List (BitVec 32)) (p q : Progress) (result : Result) : Prop where
  tracks : Tracks q.state (q.words.reverse ++ older)
  length : q.bytes.length = p.bytes.length
  failed : p.state.failed = true → q.state.failed = true
  valid : result ≠ .invalid

theorem Filled.take (h : Filled p) (more : p.done < p.bytes.length) (state : RngState) (word : BitVec 32) :
    Filled ⟨state, (put (littleEndian word) p.done p.bytes).1, (put (littleEndian word) p.done p.bytes).2, p.words ++ [word]⟩ := by
  have room := more.le
  have sofar : p.done = 4 * p.words.length := by
    have := h.done
    omega
  have stored : p.bytes.take p.done = p.words.flatMap littleEndian := by
    rw [h.stored, List.take_of_length_le]
    rw [length_flatMap_littleEndian]
    omega
  constructor
  · simp only [put_done room, put_length, length_littleEndian, List.length_append, List.length_singleton]
    omega
  · simp only [put_take room, put_length, stored, List.flatMap_append, List.flatMap_singleton]
  · simp only [put_length, List.length_append, List.length_singleton]
    omega

/-- A round that goes on had no failure before and has none after. -/
theorem round_goes (h : Under older p) (more : p.done < p.bytes.length) (goes : p.round start r = (q, none)) :
    Under older q ∧ q.bytes.length = p.bytes.length ∧ p.state.failed = false ∧ q.state.failed = false := by
  unfold Progress.round at goes
  iterate 2 (split at goes; · cases goes)
  have fine : p.state.failed = false := by simpa using ‹¬p.state.failed = true›
  iterate 5 (split at goes; · cases goes)
  split at goes
  · cases goes
    exact ⟨h, rfl, fine, fine⟩
  · rw [Progress.take] at goes
    split at goes
    · cases goes
    · cases goes
      refine ⟨⟨?_, h.filled.take more _ _⟩, put_length, fine, saw_fine fine ‹_›⟩
      simpa using h.tracks.saw r.fifoData

/-- A round that ends the loop leaves the buffer to be wiped. -/
theorem round_ends (h : Under older p) (ends : p.round start r = (q, some result)) : Ended older p q result ∧ result ≠ .ok := by
  have stays : ∀ e : Result, e ≠ .invalid → Ended older p p e := fun e valid => ⟨h.tracks, rfl, id, valid⟩
  unfold Progress.round at ends
  split at ends
  · cases ends
    exact ⟨stays _ nofun, nofun⟩
  split at ends
  · cases ends
    exact ⟨stays _ nofun, nofun⟩
  split at ends
  · cases ends
    exact ⟨stays _ nofun, nofun⟩
  split at ends
  · cases ends
    exact ⟨stays _ nofun, nofun⟩
  split at ends
  · cases ends
    exact ⟨⟨h.tracks.fail, rfl, fun _ => rfl, nofun⟩, nofun⟩
  split at ends
  · cases ends
    exact ⟨stays _ nofun, nofun⟩
  split at ends
  · cases ends
    exact ⟨stays _ nofun, nofun⟩
  split at ends
  · cases ends
  · rw [Progress.take] at ends
    split at ends
    · cases ends
      refine ⟨⟨?_, rfl, fun failed => saw_failed failed _, nofun⟩, nofun⟩
      simpa using h.tracks.saw r.fifoData
    · cases ends

/-- The buffer is full, and without a failure on the way there is none now. -/
def Full (p q : Progress) : Prop :=
  Filled q ∧ q.done = q.bytes.length ∧ (p.done < p.bytes.length ∨ p.state.failed = false → q.state.failed = false)

theorem full_ends (h : Under older p) (full : ¬p.done < p.bytes.length) : Ended older p p .ok ∧ (Result.ok = .ok → Full p p) := by
  have := h.filled.done
  exact ⟨⟨h.tracks, rfl, id, nofun⟩, fun _ => ⟨h.filled, by omega, fun fine => fine.resolve_left full⟩⟩

/-- What the loop leaves. If it succeeds, the buffer is full. -/
theorem loop_ends (h : Under older p) (ends : loop start rounds p = some (q, result)) :
    Ended older p q result ∧ (result = .ok → Full p q) := by
  induction rounds generalizing p with
  | nil =>
    rw [loop] at ends
    split at ends
    · cases ends
    · cases ends
      exact full_ends h ‹_›
  | cons r rounds ih =>
    rw [loop] at ends
    split at ends
    case isTrue more =>
      rcases step : p.round start r with ⟨p', _ | e⟩
      · simp only [step] at ends
        obtain ⟨under, length, fine, fine'⟩ := round_goes h more step
        obtain ⟨ended, ok⟩ := ih under ends
        refine ⟨⟨ended.tracks, ended.length.trans length, fun failed => ?_, ended.valid⟩, fun succeeded => ?_⟩
        · rw [fine] at failed
          cases failed
        · obtain ⟨filled, done, kept⟩ := ok succeeded
          exact ⟨filled, done, fun _ => kept (.inr fine')⟩
      · simp only [step] at ends
        cases ends
        obtain ⟨ended, no⟩ := round_ends h step
        exact ⟨ended, fun ok => absurd ok no⟩
    case isFalse no =>
      cases ends
      exact full_ends h no

/-- A round past the deadline is the last, so that a clock that goes on ends every read. -/
theorem loop_returns (late : ∃ r ∈ rounds, rngTimeoutMs ≤ r.now - start) : (loop start rounds p).isSome = true := by
  induction rounds generalizing p with
  | nil =>
    obtain ⟨r, mem, -⟩ := late
    cases mem
  | cons r rounds ih =>
    rw [loop]
    split
    · rcases step : p.round start r with ⟨p', _ | e⟩
      · refine ih ?_
        obtain ⟨r', mem, past⟩ := late
        rcases List.mem_cons.mp mem with rfl | mem
        · unfold Progress.round at step
          iterate 2 (split at step; · cases step)
          cases step
        · exact ⟨r', mem, past⟩
      · rfl
    · rfl

/-- What one call leaves, after the words of earlier calls. -/
structure Read (older : List (BitVec 32)) (s : RngState) (c : Call) (o : Outcome) : Prop where
  tracks : Tracks o.state (o.words.reverse ++ older)
  sticky : s.failed = true → o.state.failed = true ∧ o.result ≠ .ok
  refused : o.result = .invalid ↔ ¬c.Accepted
  untouched : o.result = .invalid → o.bytes = c.bytes
  wiped : o.result ≠ .ok → o.result ≠ .invalid → o.bytes = List.replicate c.bytes.length 0
  exact : o.result = .ok → o.state.failed = false ∧ o.bytes.length = c.bytes.length ∧
    o.bytes = (o.words.flatMap littleEndian).take c.bytes.length ∧ 4 * o.words.length < c.bytes.length + 4

theorem recheck_cases (status : BitVec 32) (p : Progress) (result : Result) :
    recheck status (p, result) = (p, result) ∨ recheck status (p, result) = (p, .notReady) ∨
      recheck status (p, result) = ({ p with state := p.state.fail }, .healthFailed) := by
  cases result with
  | ok =>
    rw [recheck]
    split
    · exact .inr (.inl rfl)
    · split
      · exact .inr (.inr rfl)
      · exact .inl rfl
  | invalid | notReady | timeout | healthFailed | cancelled => exact .inl rfl

theorem Ended.recheck (h : Ended older p q result) (status : BitVec 32) :
    Ended older p (recheck status (q, result)).1 (recheck status (q, result)).2 := by
  rcases recheck_cases status q result with same | same | same
  · rw [same]
    exact h
  · rw [same]
    exact ⟨h.tracks, h.length, h.failed, nofun⟩
  · rw [same]
    exact ⟨h.tracks.fail, h.length, fun _ => rfl, nofun⟩

theorem recheck_ok {status : BitVec 32} (ok : (recheck status (q, result)).2 = .ok) :
    recheck status (q, result) = (q, result) ∧ result = .ok := by
  rcases recheck_cases status q result with same | same | same <;> rw [same] at ok
  · exact ⟨same, ok⟩
  · cases ok
  · cases ok

theorem rngRead_spec {s : RngState} {c : Call} {o : Outcome} (h : Tracks s older) (read : rngRead s c = some o) : Read older s c o := by
  unfold rngRead at read
  split at read
  case isTrue refused =>
    cases read
    exact ⟨h, fun failed => ⟨failed, nofun⟩, iff_of_true rfl refused, fun _ => rfl, fun _ no => absurd rfl no, nofun⟩
  case isFalse accepted =>
    have accepted := not_not.mp accepted
    obtain ⟨⟨q, result⟩, ends, rfl⟩ := Option.map_eq_some_iff.mp read
    have under : Under older ⟨s, 0, c.bytes, []⟩ := ⟨h, by simp, by simp, by simp⟩
    obtain ⟨ended, ok⟩ := loop_ends under ends
    have last := ended.recheck c.status
    refine ⟨last.tracks, fun failed => ⟨last.failed failed, fun succeeded => ?_⟩, ?_, fun no => absurd no last.valid, fun no _ => ?_, fun succeeded => ?_⟩
    · obtain ⟨-, rfl⟩ := recheck_ok succeeded
      have := (ok rfl).2.2 (.inl accepted.2.1)
      rw [ended.failed failed] at this
      cases this
    · exact iff_of_false last.valid (not_not.mpr accepted)
    · exact (if_neg no).trans (congrArg (List.replicate · 0) last.length)
    · obtain ⟨same, rfl⟩ := recheck_ok succeeded
      obtain ⟨filled, done, fine⟩ := ok rfl
      have length : q.bytes.length = c.bytes.length := ended.length
      have stored := filled.stored
      rw [done, List.take_length, length] at stored
      have needed := filled.needed
      rw [length] at needed
      simp only [same, wipe, if_pos]
      exact ⟨fine (.inl accepted.2.1), length, stored, needed⟩

end Reads

/-! ### Sequences of reads -/

/-- What may be relied on in a sequence of reads. -/
structure Safe (reads : List (Call × Outcome)) : Prop where
  /-- A failure stays, and every later read fails. -/
  sticky : reads.Pairwise fun a b => a.2.state.failed = true → b.2.state.failed = true ∧ b.2.result ≠ .ok
  /-- When a read succeeds, no word was seen four times in a row, in whichever calls. -/
  healthy : ∀ earlier c o later, reads = earlier ++ (c, o) :: later → o.result = .ok →
    ¬Repeats 4 ((earlier ++ [(c, o)]).flatMap fun r => r.2.words)
  /-- A read that is refused for its arguments touches nothing. -/
  refused : ∀ r ∈ reads, (r.2.result = .invalid ↔ ¬r.1.Accepted) ∧ (r.2.result = .invalid → r.2.bytes = r.1.bytes)
  wiped : ∀ r ∈ reads, r.2.result ≠ .ok → r.2.result ≠ .invalid → r.2.bytes = List.replicate r.1.bytes.length 0
  /-- The words of the read, as many as are needed. -/
  exact : ∀ r ∈ reads, r.2.result = .ok → r.2.bytes = (r.2.words.flatMap littleEndian).take r.1.bytes.length ∧
    r.1.bytes.length ≤ 4 * r.2.words.length ∧ 4 * r.2.words.length < r.1.bytes.length + 4

section Sequences

variable {s : RngState} {older : List (BitVec 32)} {calls : List Call}

/-- Every read of a sequence starts where the one before it ended. -/
theorem serve_each (h : Tracks s older) : ∀ r ∈ serve s calls, ∃ older s', Read older s' r.1 r.2 := by
  induction calls generalizing s older with
  | nil => exact nofun
  | cons c calls ih =>
    rw [serve]
    split
    · exact nofun
    · rintro r mem
      have read := rngRead_spec h ‹_›
      rcases List.mem_cons.mp mem with rfl | mem
      · exact ⟨older, s, read⟩
      · exact ih read.tracks r mem

theorem serve_failed (h : Tracks s older) (failed : s.failed = true) :
    ∀ r ∈ serve s calls, r.2.state.failed = true ∧ r.2.result ≠ .ok := by
  induction calls generalizing s older with
  | nil => exact nofun
  | cons c calls ih =>
    rw [serve]
    split
    · exact nofun
    · rintro r mem
      have read := rngRead_spec h ‹_›
      have still := read.sticky failed
      rcases List.mem_cons.mp mem with rfl | mem
      · exact still
      · exact ih read.tracks still.1 r mem

theorem serve_sticky (h : Tracks s older) :
    (serve s calls).Pairwise fun a b => a.2.state.failed = true → b.2.state.failed = true ∧ b.2.result ≠ .ok := by
  induction calls generalizing s older with
  | nil => exact .nil
  | cons c calls ih =>
    rw [serve]
    split
    · exact .nil
    · have read := rngRead_spec h ‹_›
      exact .cons (fun r mem failed => serve_failed read.tracks failed r mem) (ih read.tracks)

theorem serve_healthy (h : Tracks s older) (earlier : List (Call × Outcome)) (c : Call) (o : Outcome) (later : List (Call × Outcome))
    (split : serve s calls = earlier ++ (c, o) :: later) (ok : o.result = .ok) :
    ¬Repeats 4 (older.reverse ++ (earlier ++ [(c, o)]).flatMap fun r => r.2.words) := by
  induction calls generalizing s older earlier with
  | nil => simp [serve] at split
  | cons d calls ih =>
    rw [serve] at split
    split at split
    · simp at split
    · next o' read =>
      have read := rngRead_spec h read
      cases earlier with
      | nil =>
        obtain ⟨same, -⟩ := List.cons.inj split
        cases same
        have fine := read.tracks.healthy (read.exact ok).1
        rw [← repeats_reverse] at fine
        simpa using fine
      | cons r earlier =>
        obtain ⟨rfl, rest⟩ := List.cons.inj split
        have := ih read.tracks earlier rest
        simpa [List.append_assoc] using this

end Sequences

/-- Every sequence of reads of a device that was just started. -/
theorem serve_safe (calls : List Call) : Safe (serve .start calls) where
  sticky := serve_sticky tracks_start
  healthy earlier c o later split ok := by simpa using serve_healthy tracks_start earlier c o later split ok
  refused r mem := by
    obtain ⟨older, s, read⟩ := serve_each tracks_start r mem
    exact ⟨read.refused, read.untouched⟩
  wiped r mem := by
    obtain ⟨older, s, read⟩ := serve_each tracks_start r mem
    exact read.wiped
  exact r mem ok := by
    obtain ⟨older, s, read⟩ := serve_each tracks_start r mem
    obtain ⟨-, length, bytes, needed⟩ := read.exact ok
    refine ⟨bytes, ?_, needed⟩
    rw [← length, bytes, List.length_take, length_flatMap_littleEndian]
    exact Nat.min_le_right _ _

/-- A read of more than is allowed at once. -/
def oversize : Call := ⟨true, List.replicate (rngMaxBytes + 1) 1, 0, [], 0⟩

/-- It leaves the buffer as it is. -/
theorem oversize_untouched : ¬∀ calls, ∀ r ∈ serve .start calls, r.2.result ≠ .ok → r.2.bytes = List.replicate r.1.bytes.length 0 := by
  intro h
  have refused : ¬oversize.Accepted := by
    rintro ⟨-, -, small⟩
    rw [oversize, List.length_replicate] at small
    exact absurd small (by decide)
  have read : rngRead .start oversize = some ⟨.invalid, .start, oversize.bytes, []⟩ := if_pos refused
  have served : serve .start [oversize] = [(oversize, ⟨.invalid, .start, oversize.bytes, []⟩)] := by
    simp only [serve, read]
  have zeroed : oversize.bytes = List.replicate oversize.bytes.length 0 := by
    refine h [oversize] _ (served ▸ List.mem_singleton_self _) fun ok => ?_
    cases ok
  have first : (1 : BitVec 8) ∈ oversize.bytes := List.mem_replicate.mpr ⟨Nat.succ_ne_zero _, rfl⟩
  rw [zeroed] at first
  exact absurd (List.eq_of_mem_replicate first) (by decide)

end Pi5Drivers.Platform
