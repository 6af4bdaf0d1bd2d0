import Mathlib.Data.Finset.Card
import Pi5Drivers.Clocks.Views
import Pi5Drivers.Lib.Runs

/-! Leases of the RP1 clocks over whole runs. Files come and go and the device is stopped
and started in any order. The registers of a clock belong to the driver while it has
users; all other registers may change between two calls. -/

namespace Pi5Drivers.Clocks

open Device

/-! ### A leased clock -/

/-- The books of a clock that held `b` when its first user came. -/
structure View.Kept (v : View) (b : Setting) : Prop where
  counted : v.lease.users = v.holders.card
  few : v.holders.card < 0x100000000
  idle : v.lease.users = 0 → v.lease.changed = false
  saved : v.lease.users ≠ 0 → v.lease.saved = b
  changed : v.lease.users ≠ 0 → v.lease.changed = decide ¬b.Enabled
  setting : v.lease.users ≠ 0 → v.setting = if b.Enabled ∨ v.online = false then b else running

/-- The setting that a driver that takes the clock now would bring back. -/
def View.origin (v : View) (b : Setting) : Setting := if v.lease.users = 0 then v.setting else b

namespace View

variable {v : View} {b : Setting} {file : ℕ}

theorem Kept.restore (h : v.Kept b) (users : v.lease.users ≠ 0) {x : View}
    (changed : x.lease.changed = v.lease.changed) (saved : x.lease.saved = v.lease.saved)
    (setting : x.setting = v.setting) : x.restore = { x with setting := b } := by
  have old := h.setting users
  unfold View.restore
  rw [changed, saved, h.changed users, h.saved users]
  by_cases enabled : b.Enabled
  · have same : x.setting = b := by rw [setting, old, if_pos (.inl enabled)]
    simp [← same]
  · simp [enabled]

theorem Kept.restore_idle (h : v.Kept b) (users : v.lease.users = 0) : v.restore = v := by
  simp [View.restore, h.idle users]

theorem Kept.start (h : v.Kept b) : View.Kept { v.reenable with online := true } b := by
  unfold View.reenable
  by_cases users : v.lease.users = 0
  · simp only [users, ne_eq, not_true_eq_false, false_and, ite_false]
    exact ⟨h.counted, h.few, h.idle, fun some => absurd users some, fun some => absurd users some,
      fun some => absurd users some⟩
  · by_cases enabled : b.Enabled
    · have same : v.lease.changed = false := by simp [h.changed users, enabled]
      simp only [same, Bool.false_eq_true, and_false, ite_false]
      exact ⟨h.counted, h.few, h.idle, h.saved, h.changed, fun some => by simp [h.setting some, enabled]⟩
    · have new : v.lease.changed = true := by simp [h.changed users, enabled]
      simp only [new, users, ne_eq, not_false_eq_true, and_self, ite_true]
      exact ⟨h.counted, h.few, h.idle, h.saved, h.changed, fun _ => by simp [enabled]⟩

theorem Kept.stop (h : v.Kept b) : View.Kept { v.restore with online := false } b := by
  by_cases users : v.lease.users = 0
  · rw [h.restore_idle users]
    exact ⟨h.counted, h.few, h.idle, fun some => absurd users some, fun some => absurd users some,
      fun some => absurd users some⟩
  · rw [h.restore users rfl rfl rfl]
    exact ⟨h.counted, h.few, h.idle, h.saved, h.changed, fun _ => by simp⟩

theorem countDown_succ {n : ℕ} (h : n + 1 < 0x100000000) : countDown (n + 1) = n := by
  unfold countDown
  omega

theorem countUp_of_lt {n : ℕ} (h : n + 1 < 0x100000000) : countUp n = n + 1 := by
  unfold countUp
  omega

/-- A file that leaves is one user less, and the last one leaves the clock as it was. -/
theorem Kept.leave (h : v.Kept b) : (v.leave file).Kept b ∧
    (v.lease.users ≠ 0 → (v.leave file).lease.users = 0 → (v.leave file).setting = b) := by
  unfold View.leave
  by_cases held : file ∈ v.holders
  · rw [if_pos held]
    have some := Finset.card_pos.mpr ⟨file, held⟩
    have users : v.lease.users ≠ 0 := by rw [h.counted]; omega
    have less : countDown v.lease.users = (v.holders.erase file).card := by
      rw [Finset.card_erase_of_mem held, h.counted]
      obtain ⟨n, eq⟩ := Nat.exists_eq_succ_of_ne_zero some.ne'
      have few := h.few
      rw [eq] at few ⊢
      exact countDown_succ few
    have few : (v.holders.erase file).card < 0x100000000 := (Finset.card_erase_le).trans_lt h.few
    by_cases last : countDown v.lease.users = 0
    · rw [if_pos last]
      have back : (if (v.drop file).online = true then (v.drop file).restore else v.drop file) =
          { v.drop file with setting := b } := by
        by_cases on : v.online = true
        · rw [if_pos (show (v.drop file).online = true from on)]
          exact h.restore users (x := v.drop file) rfl rfl rfl
        · rw [if_neg (show ¬(v.drop file).online = true from on)]
          have same : (v.drop file).setting = b := by
            rw [drop, h.setting users, if_pos (.inr (by simpa using on))]
          rw [← same]
      rw [View.retire, back]
      exact ⟨⟨less, few, fun _ => rfl, fun some => absurd last some, fun some => absurd last some,
        fun some => absurd last some⟩, fun _ _ => rfl⟩
    · rw [if_neg last]
      exact ⟨⟨less, few, fun none => absurd none last, fun _ => h.saved users, fun _ => h.changed users,
        fun _ => h.setting users⟩, fun _ none => absurd none last⟩
  · rw [if_neg held]
    exact ⟨h, fun some none => absurd none some⟩

theorem firstUse_of_users (users : v.lease.users ≠ 0) : v.firstUse = v := if_neg users

/-- The first user saves the setting; restoring brings it back. -/
theorem setting_giveUp (users : v.lease.users = 0) : v.firstUse.restore.setting = v.setting := by
  rw [View.firstUse, if_pos users]
  by_cases enabled : v.setting.Enabled <;> simp [View.restore, enabled]

theorem lease_restore : v.restore.lease = v.lease ∧ v.restore.holders = v.holders := by
  unfold View.restore
  split <;> exact ⟨rfl, rfl⟩

theorem users_firstUse : v.firstUse.lease.users = v.lease.users ∧ v.firstUse.holders = v.holders := by
  unfold View.firstUse
  split <;> exact ⟨rfl, rfl⟩

/-- A clock that a file could not get is as it was. -/
structure Same (v w : View) : Prop where
  users : w.lease.users = v.lease.users
  holders : w.holders = v.holders
  setting : w.setting = v.setting

theorem Kept.refused (h : v.Kept b) : ((v.acquire file false).2.Kept b) ∧ v.Same (v.acquire file false).2 := by
  unfold View.acquire
  split
  · exact ⟨h, rfl, rfl, rfl⟩
  split
  · exact ⟨h, rfl, rfl, rfl⟩
  rw [if_pos rfl]
  by_cases first : v.lease.users = 0
  · rw [if_pos first]
    have users : v.firstUse.restore.forget.lease.users = v.lease.users := by
      rw [View.forget, lease_restore.1, users_firstUse.1]
    have holders : v.firstUse.restore.forget.holders = v.holders := by
      rw [View.forget, lease_restore.2, users_firstUse.2]
    exact ⟨⟨by rw [users, holders, h.counted], holders ▸ h.few, fun _ => rfl, fun some => absurd (users.trans first) some,
      fun some => absurd (users.trans first) some, fun some => absurd (users.trans first) some⟩,
      users, holders, setting_giveUp first⟩
  · rw [if_neg first, firstUse_of_users first]
    exact ⟨h, rfl, rfl, rfl⟩

/-- The first user makes the books begin, a further one is counted. -/
theorem Kept.join (h : v.Kept b) (new : file ∉ v.holders) (on : v.online = true) (few : v.holders.card + 1 < 0x100000000) :
    (v.firstUse.join file).Kept (v.origin b) ∧ (v.firstUse.join file).lease.users ≠ 0 := by
  have users : (v.firstUse.join file).lease.users = v.lease.users + 1 := by
    rw [View.join, users_firstUse.1]
    exact countUp_of_lt (by rwa [h.counted])
  have counted : (v.firstUse.join file).lease.users = (v.firstUse.join file).holders.card := by
    rw [users, View.join, users_firstUse.2, Finset.card_insert_of_notMem new, h.counted]
  have some : (v.firstUse.join file).lease.users ≠ 0 := by omega
  have few' : (v.firstUse.join file).holders.card < 0x100000000 := by rwa [← counted, users, h.counted]
  refine ⟨⟨counted, few', fun none => absurd none some, fun _ => ?_, fun _ => ?_, fun _ => ?_⟩, some⟩
  all_goals
    unfold View.join View.firstUse View.origin
    by_cases first : v.lease.users = 0
  · simp [first]
  · simp [first, h.saved first]
  · simp [first]
  · simp [first, h.changed first]
  · by_cases enabled : v.setting.Enabled <;> simp [first, enabled, on]
  · simp [first, h.setting first]

/-- What the clock held when the users that it has afterwards began to use it. -/
def begun (v w : View) (b : Setting) : Setting := if v.lease.users = 0 ∧ w.lease.users ≠ 0 then v.setting else b

/-- A step of a leased clock. -/
structure Moves (v w : View) (b : Setting) : Prop where
  kept : w.Kept (v.begun w b)
  returned : v.lease.users ≠ 0 → w.lease.users = 0 → w.setting = b

theorem begun_of_users {w : View} (same : w.lease.users = v.lease.users) : v.begun w b = b :=
  if_neg fun h => h.2 (same.trans h.1)

theorem Kept.moves {w : View} (h : w.Kept b) (same : w.lease.users = v.lease.users) : v.Moves w b :=
  ⟨(begun_of_users same).symm ▸ h, fun some none => absurd (same ▸ none) some⟩

theorem Kept.leaves (h : v.Kept b) : v.Moves (v.leave file) b := by
  obtain ⟨kept, returned⟩ : (v.leave file).Kept b ∧ _ := h.leave
  refine ⟨?_, returned⟩
  by_cases none : v.lease.users = 0
  · have : v.leave file = v := by
      have empty : v.holders = ∅ := Finset.card_eq_zero.mp (h.counted ▸ none)
      simp [View.leave, empty]
    rw [this] at kept ⊢
    rwa [begun_of_users rfl]
  · rwa [begun, if_neg fun both => none both.1]

theorem Kept.acquires (h : v.Kept b) (few : v.holders.card + 1 < 0x100000000) (usable : Bool) :
    v.Moves (v.acquire file usable).2 b ∧
      ((v.acquire file usable).1 ≠ .success → v.Same (v.acquire file usable).2) := by
  by_cases gets : v.online = true ∧ file ∉ v.holders ∧ usable = true
  · obtain ⟨on, new, fine⟩ := gets
    have eq : v.acquire file usable = (.success, v.firstUse.join file) := by
      rw [View.acquire, if_neg (by simp [on]), if_neg new, if_neg (by simp [fine])]
    obtain ⟨kept, some⟩ := h.join new on few
    rw [eq]
    refine ⟨⟨?_, fun _ none => absurd none some⟩, fun bad => absurd rfl bad⟩
    rw [begun]
    by_cases first : v.lease.users = 0
    · rw [if_pos ⟨first, some⟩]
      rwa [View.origin, if_pos first] at kept
    · rw [if_neg fun both => first both.1]
      rwa [View.origin, if_neg first] at kept
  · obtain ⟨kept, same⟩ : (v.acquire file false).2.Kept b ∧ _ := h.refused
    by_cases ends : v.online = false ∨ file ∈ v.holders
    · have eq : (v.acquire file usable).2 = v := by
        unfold View.acquire
        split
        · rfl
        · next on =>
          rw [if_pos (ends.resolve_left on)]
      rw [eq]
      exact ⟨h.moves rfl, fun _ => ⟨rfl, rfl, rfl⟩⟩
    · have useless : usable = false := by
        rw [not_or] at ends
        by_contra fine
        exact gets ⟨by simpa using ends.1, ends.2, by simpa using fine⟩
      rw [useless]
      exact ⟨kept.moves same.users, fun _ => same⟩

end View

/-! ### Register writes -/

namespace Device

variable {ok : Clock → Prop} {c : Clock} {d e f : Device} {file : ℕ}

/-- Only registers of some clocks were written. -/
structure Only (ok : Clock → Prop) (d e : Device) : Prop where
  registers : ∀ offset, (∀ c : Clock, ¬c.Owns offset) → e.registers offset = d.registers offset
  written : ∃ w, e.written = w ++ d.written ∧ ∀ p ∈ w, ∃ c, ok c ∧ c.Owns p.1

theorem Only.same (registers : e.registers = d.registers) (written : e.written = d.written) : Only ok d e :=
  ⟨fun _ _ => by rw [registers], [], by simp [written], by simp⟩

theorem Only.trans (h : Only ok d e) (next : Only ok e f) : Only ok d f := by
  obtain ⟨w, eq, own⟩ := h.written
  obtain ⟨w', eq', own'⟩ := next.written
  refine ⟨fun o ho => (next.registers o ho).trans (h.registers o ho), w' ++ w, by simp [eq', eq], fun p hp => ?_⟩
  exact (List.mem_append.mp hp).elim (own' p) (own p)

theorem Writes.only (h : Writes c d e) (allowed : ok c) : Only ok d e := by
  obtain ⟨w, eq, own⟩ := h.written
  exact ⟨fun o ho => h.registers o (ho c), w, eq, fun p hp => ⟨c, allowed, own p hp⟩⟩

theorem only_reenable (h : (d.lease c).changed = true → ok c) : Only ok d (reenable c d) := by
  by_cases run : (d.lease c).users ≠ 0 ∧ (d.lease c).changed = true
  · exact writes_reenable.only (h run.2)
  · exact Only.same (by rw [reenable, if_neg run]) (by rw [reenable, if_neg run])

theorem only_restoreClock (h : (d.lease c).changed = true → ok c) : Only ok d (restoreClock c d) := by
  by_cases changed : (d.lease c).changed = true
  · exact writes_restoreClock.only (h changed)
  · exact Only.same (by rw [restoreClock_eq, if_neg changed]) (by rw [restoreClock_eq, if_neg changed])

theorem only_setLease (l : Lease) : Only ok d (d.setLease c l) := Only.same rfl rfl

theorem only_leave (h : (d.lease c).changed = true → ok c) : Only ok d (leave c file d) := by
  unfold leave
  split
  · dsimp only
    have start : Only ok d ((d.setHolders c ((d.holders c).erase file)).setLease c
        { d.lease c with users := countDown (d.lease c).users }) := Only.same rfl rfl
    split
    · refine start.trans (Only.trans ?_ (only_setLease _))
      split
      · exact only_restoreClock fun changed => h (by simpa [setLease] using changed)
      · exact Only.same rfl rfl
    · exact start
  · exact Only.same rfl rfl

theorem only_firstUse (h : (d.lease c).users = 0 → ¬(d.setting c).Enabled → ok c) : Only ok d (firstUse c d) := by
  unfold firstUse
  split
  · next first =>
    dsimp only
    split
    · next enabled => exact (only_setLease _).trans (writes_enable.only (h first enabled))
    · exact only_setLease _
  · exact Only.same rfl rfl

theorem only_acquire (usable : Registers → Bool) (h : (d.lease c).users = 0 → ¬(d.setting c).Enabled → ok c) :
    Only ok d (acquire c usable file d).2 := by
  unfold acquire
  split
  · exact Only.same rfl rfl
  split
  · exact Only.same rfl rfl
  dsimp only
  have begun := only_firstUse h
  split
  · split
    · next first =>
      refine begun.trans ((only_restoreClock fun changed => h first fun enabled => ?_).trans (only_setLease _))
      have lease := congrArg View.lease (view_firstUse_self (c := c) (d := d))
      rw [View.firstUse, if_pos (show (d.view c).lease.users = 0 from first)] at lease
      have : ((firstUse c d).lease c).changed = decide ¬(d.setting c).Enabled := congrArg Lease.changed lease
      simp [this, enabled] at changed
    · exact begun
  · exact begun.trans (Only.same rfl rfl)

end Device

/-! ### Requests -/

namespace Device

variable {d : Device} {r : Request}

/-- A request is turned away, asks for what is there, or acquires a clock. -/
theorem clockIo_cases (d : Device) (r : Request) :
    ((d.clockIo r).2 = d) ∨
    (∃ c usable file, d.clockIo r = answer (if c = .uart then uartReply else dmaReply) (acquire c usable file d)) := by
  unfold clockIo
  split
  · unfold dmaClockIo
    split
    · exact .inr ⟨.dma, _, _, rfl⟩
    · exact .inl rfl
    · exact .inl rfl
  · split
    · exact .inl rfl
    split
    · exact .inl rfl
    split
    · exact .inl rfl
    split
    · exact .inr ⟨.uart, _, _, rfl⟩
    · exact .inl rfl
  · exact .inl rfl

end Device

/-! ### Runs -/

/-- The device, and what the registers of a clock held when its first user came. -/
structure State where
  device : Device
  baseline : Clock → Setting

namespace State

def users (s : State) (c : Clock) : ℕ := (s.device.lease c).users

def setting (s : State) (c : Clock) : Setting := s.device.setting c

end State

inductive Event
  | io (r : Request)
  | cleanup (file : ℕ)
  | start
  | stop
  /-- The hardware changes registers. -/
  | tune (r : Registers)

instance (p : Clock → Prop) [DecidablePred p] : Decidable (∀ c, p c) :=
  decidable_of_iff (p .uart ∧ p .dma) ⟨fun h c => by cases c <;> simp [h], fun h => ⟨h _, h _⟩⟩

/-- The registers of a clock belong to the driver while it has users, and there are fewer
files than words. -/
def Possible (s : State) : Event → Prop
  | .io _ => ∀ c, (s.device.holders c).card + 1 < 0x100000000
  | .tune r => ∀ c, s.users c ≠ 0 → (⟨r c.base, r (c.base + 4)⟩ : Setting) = s.setting c
  | _ => True

instance (s : State) : (e : Event) → Decidable (Possible s e)
  | .io _ => inferInstanceAs (Decidable (∀ _, _))
  | .tune _ => inferInstanceAs (Decidable (∀ _, _ → _))
  | .cleanup _ | .start | .stop => .isTrue trivial

def act (d : Device) : Event → Device
  | .io r => (d.clockIo r).2
  | .cleanup file => d.clockCleanup file
  | .start => d.clockStart
  | .stop => d.clockStop
  | .tune r => { d with registers := r }

def step (s : State) (e : Event) : State where
  device := act s.device e
  baseline c := if s.users c = 0 ∧ ((act s.device e).lease c).users ≠ 0 then s.setting c else s.baseline c

/-- A device that was never started. -/
def stopped (r : Registers) : Device where
  registers := r
  online := false
  lease _ := ⟨0, ⟨0, 0⟩, false⟩
  holders _ := ∅
  written := []

def leases (r : Registers) : System State Event where
  init := ⟨stopped r, fun _ => ⟨0, 0⟩⟩
  next s e := if Possible s e then some (step s e) else none

namespace State

variable {s t : State} {c : Clock} {e : Event}

def view (s : State) (c : Clock) : View := s.device.view c

/-- Every clock has its books. -/
def Sound (s : State) : Prop := ∀ c, (s.view c).Kept (s.baseline c)

theorem sound_init (r : Registers) : Sound (leases r).init := fun _ =>
  ⟨rfl, by simp [leases, view, Device.view, stopped], fun _ => rfl, fun some => absurd rfl some, fun some => absurd rfl some,
    fun some => absurd rfl some⟩

theorem Sound.moves (h : s.Sound) (possible : Possible s e) (c : Clock) :
    (s.view c).Moves ((act s.device e).view c) (s.baseline c) := by
  have kept := h c
  cases e with
  | io r =>
    rcases s.device.clockIo_cases r with same | ⟨c', usable, file, eq⟩
    · have : (act s.device (.io r)).view c = s.view c := congrArg (Device.view · c) same
      rw [this]
      exact kept.moves rfl
    · have result : act s.device (.io r) = (acquire c' usable file s.device).2 := congrArg Prod.snd eq
      rw [result]
      by_cases self : c' = c
      · subst self
        have : (acquire c' usable file s.device).2.view c' = _ := congrArg Prod.snd (view_acquire_self usable)
        rw [this]
        exact (kept.acquires (possible c') _).1
      · rw [view_acquire_other usable self]
        exact kept.moves rfl
  | cleanup file =>
    have : (act s.device (.cleanup file)).view c = (s.view c).leave file := view_clockCleanup
    rw [this]
    exact kept.leaves
  | start =>
    have : (act s.device .start).view c = { (s.view c).reenable with online := true } := view_clockStart
    rw [this]
    refine kept.start.moves ?_
    unfold View.reenable
    split <;> rfl
  | stop =>
    have : (act s.device .stop).view c = { (s.view c).restore with online := false } := view_clockStop
    rw [this]
    exact kept.stop.moves (congrArg Lease.users View.lease_restore.1)
  | tune r =>
    by_cases users : s.users c = 0
    · refine View.Kept.moves ⟨kept.counted, kept.few, kept.idle, fun some => absurd users some,
        fun some => absurd users some, fun some => absurd users some⟩ rfl
    · have same : (act s.device (.tune r)).view c = s.view c := by
        have setting := possible c users
        simp only [act, view, Device.view, Device.setting, setting]
        rfl
      rw [same]
      exact kept.moves rfl

theorem Sound.step (h : s.Sound) (possible : Possible s e) : Sound (step s e) := fun c => (h.moves possible c).kept

/-- A clock that the driver writes was disabled before its first user came. -/
def Ours (s : State) (c : Clock) : Prop := ¬((s.view c).origin (s.baseline c)).Enabled

theorem Sound.ours (h : s.Sound) (changed : (s.device.lease c).changed = true) : s.Ours c := by
  have kept := h c
  have users : s.users c ≠ 0 := fun none => by simp [show (s.device.lease c).changed = false from kept.idle none] at changed
  have new := kept.changed users
  rw [show (s.view c).lease.changed = true from changed] at new
  rw [Ours, View.origin, if_neg (show ¬(s.view c).lease.users = 0 from users)]
  exact of_decide_eq_true new.symm

theorem Sound.only (h : s.Sound) (still : ∀ r, e ≠ .tune r) : Only s.Ours s.device (act s.device e) := by
  have lease {x : Device} {c : Clock} (same : x.view c = s.view c) (changed : (x.lease c).changed = true) : s.Ours c :=
    h.ours ((congrArg (fun v : View => v.lease.changed) same).symm.trans changed)
  cases e with
  | io r =>
    rcases s.device.clockIo_cases r with same | ⟨c, usable, file, eq⟩
    · rw [show act s.device (.io r) = s.device from same]
      exact Only.same rfl rfl
    · have result : act s.device (.io r) = (acquire c usable file s.device).2 := congrArg Prod.snd eq
      rw [result]
      refine only_acquire usable fun first disabled => ?_
      rwa [Ours, View.origin, if_pos (show (s.view c).lease.users = 0 from first)]
  | cleanup file => exact (only_leave (lease rfl)).trans (only_leave (lease (view_leave_other (by decide))))
  | start =>
    exact ((only_reenable (lease rfl)).trans (only_reenable (lease (writes_reenable.view_other (by decide))))).trans
      (Only.same rfl rfl)
  | stop =>
    exact ((only_restoreClock (lease rfl)).trans
      (only_restoreClock (lease (writes_restoreClock.view_other (by decide))))).trans (Only.same rfl rfl)
  | tune r => exact absurd rfl (still r)

/-! ### The leases -/

/-- What holds of the clocks in every state. -/
structure Accounted (s : State) : Prop where
  counted : ∀ c, s.users c = (s.device.holders c).card
  enabled : ∀ c, s.users c ≠ 0 → s.device.online = true → (s.setting c).Enabled
  saved : ∀ c, s.users c ≠ 0 → (s.device.lease c).saved = s.baseline c

/-- What a step does to the clocks. -/
structure Careful (s : State) (e : Event) (t : State) : Prop where
  /-- The baseline is what the registers held when the first user came. -/
  baseline : ∀ c, t.baseline c = if s.users c = 0 ∧ t.users c ≠ 0 then s.setting c else s.baseline c
  returned : ∀ c, s.users c ≠ 0 → t.users c = 0 → t.setting c = s.baseline c
  stopped : e = .stop → ∀ c, s.users c ≠ 0 → t.setting c = s.baseline c
  /-- A clock that was enabled is not written. -/
  written : ∃ w, t.device.written = w ++ s.device.written ∧ ∀ p ∈ w, ∀ c : Clock, c.Owns p.1 →
    ¬(if s.users c = 0 then s.setting c else s.baseline c).Enabled
  refused : ∀ r, e = .io r → (s.device.clockIo r).1.status ≠ .success →
    (∀ c, t.users c = s.users c) ∧ t.device.holders = s.device.holders ∧ t.device.registers = s.device.registers

theorem Sound.accounted (h : s.Sound) : s.Accounted := by
  refine ⟨fun c => (h c).counted, fun c users on => ?_, fun c => (h c).saved⟩
  have setting := (h c).setting users
  rw [show (s.view c).setting = s.setting c from rfl] at setting
  rw [setting]
  by_cases enabled : (s.baseline c).Enabled
  · rwa [if_pos (.inl enabled)]
  · rw [if_neg fun either => either.elim enabled fun off => by simp [show (s.view c).online = true from on] at off]
    decide

/-- What both clocks and all other registers hold is what all registers hold. -/
theorem registers_ext {d e : Device} (settings : ∀ c, e.setting c = d.setting c)
    (others : ∀ offset, (∀ c : Clock, ¬c.Owns offset) → e.registers offset = d.registers offset) :
    e.registers = d.registers := by
  funext offset
  by_cases owned : ∃ c : Clock, c.Owns offset
  · obtain ⟨c, rfl | rfl⟩ := owned
    · exact congrArg Setting.control (settings c)
    · exact congrArg Setting.divider (settings c)
  · exact others offset (not_exists.mp owned)

theorem Sound.refused (h : s.Sound) {r : Request} (possible : Possible s (.io r))
    (bad : (s.device.clockIo r).1.status ≠ .success) (c : Clock) : (s.view c).Same ((act s.device (.io r)).view c) := by
  rcases s.device.clockIo_cases r with same | ⟨c', usable, file, eq⟩
  · rw [show act s.device (.io r) = s.device from same]
    exact ⟨rfl, rfl, rfl⟩
  · have result : act s.device (.io r) = (acquire c' usable file s.device).2 := congrArg Prod.snd eq
    rw [eq] at bad
    rw [result]
    by_cases self : c' = c
    · subst self
      have both : ((acquire c' usable file s.device).1, (acquire c' usable file s.device).2.view c') = _ :=
        view_acquire_self usable
      obtain ⟨status, view⟩ := Prod.ext_iff.mp both
      dsimp only at status view
      rw [view]
      refine ((h c').acquires (possible c') _).2 fun good => bad ?_
      rw [answer, status]
      exact good
    · rw [view_acquire_other usable self]
      exact ⟨rfl, rfl, rfl⟩

theorem Sound.careful (h : s.Sound) (possible : Possible s e) : s.Careful e (Clocks.step s e) := by
  refine ⟨fun c => rfl, fun c => (h.moves possible c).returned, fun stop c users => ?_, ?_, fun r request bad => ?_⟩
  · subst stop
    have after : (act s.device .stop).view c = { (s.view c).restore with online := false } := view_clockStop
    rw [(h c).restore users rfl rfl rfl] at after
    exact congrArg View.setting after
  · by_cases still : ∃ r, e = .tune r
    · obtain ⟨r, rfl⟩ := still
      exact ⟨[], rfl, by simp⟩
    · obtain ⟨w, eq, own⟩ := (h.only (not_exists.mp still)).written
      refine ⟨w, eq, fun p hp c owns => ?_⟩
      obtain ⟨c', ours, owner⟩ := own p hp
      have same : c' = c := by_contra fun apart => Clock.owns_apart apart owner owns
      exact same ▸ ours
  · subst request
    have same := h.refused possible bad
    refine ⟨fun c => (same c).users, funext fun c => (same c).holders, registers_ext (fun c => (same c).setting) ?_⟩
    exact (h.only (e := .io r) fun _ tune => by cases tune).registers

end State

open State

/-- In every run over any files, stops and starts: users are counted by the files that hold
a clock, a clock in use is enabled while the device is online, its registers get back what
they held before the first user, and neither a clock that was enabled nor anything at all after
a failure is changed. -/
theorem leases_accounted (r : Registers) (s : State) (h : (leases r).Reachable s) :
    s.Accounted ∧ ∀ e t, (leases r).next s e = some t → s.Careful e t := by
  have sound : s.Sound := h.invariant (sound_init r) fun e sound _ next => by
    simp only [leases, Option.ite_none_right_eq_some, Option.some_inj] at next
    obtain ⟨possible, rfl⟩ := next
    exact sound.step possible
  refine ⟨sound.accounted, fun e t next => ?_⟩
  simp only [leases, Option.ite_none_right_eq_some, Option.some_inj] at next
  obtain ⟨possible, rfl⟩ := next
  exact sound.careful possible

/-- Registers that hold nothing. -/
def cleared : Registers := fun _ => 0

/-- Two files use the clock of the UARTs over a stop. -/
def sharedRun : List Event :=
  [.start, .io ⟨some .uart, some 1, true, .ok ()⟩, .io ⟨some .uart, some 2, true, .ok ()⟩, .cleanup 1, .stop]

/-- Their clock is accounted for. -/
theorem shared_accounted : ∃ s, (leases cleared).runFrom (leases cleared).init sharedRun = some s ∧
    s.users .uart = 1 ∧ s.Accounted ∧ ∀ e t, (leases cleared).next s e = some t → s.Careful e t := by
  have run : ((leases cleared).runFrom (leases cleared).init sharedRun).any fun s => s.users .uart = 1 := by
    decide +kernel
  rcases result : (leases cleared).runFrom (leases cleared).init sharedRun with _ | s
  · simp [result] at run
  · simp only [result, Option.any_some, decide_eq_true_eq] at run
    exact ⟨s, rfl, run, leases_accounted _ s (System.reachable_of_run result)⟩

end Pi5Drivers.Clocks
