import Pi5Drivers.Fan.Driver

/-! What the fan driver may do, told by its record alone. A fan is turned down only while it is known to be calm: its
registers are the firmware's, the temperature is recent and low, and it runs; and then not below what its owner asked for,
or what the temperature needs. -/

namespace Pi5Drivers.Fan

open Effect Recorded

variable {F : Type}

structure Lease (F : Type) where
  file : F
  percent : BitVec 32
  ends : ℕ

/-- What a record tells. -/
structure Known (F : Type) where
  now : ℕ
  started : Bool
  failed : Bool
  /-- The last time the fan was to run at full speed for a while. -/
  boosted : ℕ
  /-- When the last temperature query began. -/
  query : ℕ
  /-- The last temperature, with the time its query began at. -/
  sample : Option (ℤ × ℕ)
  /-- When the speed was judged last. -/
  counted : Option ℕ
  /-- How often in a row it stood still. -/
  stalls : ℕ
  asked : Option (F × BitVec 32)
  lease : Option (Lease F)

structure Watch (F : Type) where
  /-- The registers read since the last write and their values, the newest first. -/
  recent : List (BitVec 32 × BitVec 32)
  known : Known F

/-- The registers are as the firmware hands them over. -/
def HandedOver (recent : List (BitVec 32 × BitVec 32)) : Prop :=
  ∃ duty global older, recent = (regDuty, duty) :: (regPhase, 0) :: (regRange, fanTicks) :: (regControl, 0x109) :: (regGlobal, global) :: older ∧
    duty ≤ fanTicks ∧ global &&& ~~~0x80000000 = 8

/-- The least speed for a temperature. -/
def floorSpeed (temperature : ℤ) : BitVec 32 :=
  if temperature ≥ 65000 then 70
  else if temperature ≥ 55000 then 50
  else 35

/-- Nothing asks for full speed. -/
structure Calm (k : Known F) (temperature : ℤ) : Prop where
  started : k.started = true
  sampled : ∃ at_, k.sample = some (temperature, at_) ∧ at_ ≤ k.now ∧ k.now ≤ at_ + tempMaxAgeMs
  sound : -40000 ≤ temperature
  cool : temperature < 75000
  spun : after k.boosted spinupMs ≤ k.now
  turning : k.stalls < 3
  counted : ∃ c, k.counted = some c ∧ k.now < c + 1000

/-- Who decides about the speed. -/
inductive Decided (k : Known F) (temperature : ℤ) (value : BitVec 32) : Prop
  | asked (file : F) (percent : BitVec 32) (here : k.asked = some (file, percent)) (mine : ∀ l ∈ k.lease, l.file = file)
    (same : value = ticks percent) : Decided k temperature value
  | leased (l : Lease F) (here : k.asked = none) (held : k.lease = some l) (lasts : k.now < l.ends) (same : value = ticks l.percent) :
    Decided k temperature value
  | automatic (here : k.asked = none) (held : k.lease = none) (enough : ticks (floorSpeed temperature) ≤ value) : Decided k temperature value

/-- A fan may be turned down to a duty. -/
def MayTurnDown (k : Known F) (value : BitVec 32) : Prop := k.failed = false ∧ ∃ temperature, Calm k temperature ∧ Decided k temperature value

def Allows (w : Watch F) : Entry F → Prop
  | .unmapped => False
  | .read base _ _ => fanResourceValid base mmioSize = true
  | .wrote base offset value =>
    fanResourceValid base mmioSize = true ∧ offset = regDuty ∧ HandedOver w.recent ∧ value ≤ fanTicks ∧ (value ≠ fanTicks → MayTurnDown w.known value)
  | .counted _ => ∀ c ∈ w.known.counted, after c 1000 ≤ w.known.now
  | .leased file percent ends =>
    w.known.asked = some (file, percent) ∧ w.known.now + 500 ≤ ends ∧ ends ≤ w.known.now + maxLeaseMs ∧ ∀ l ∈ w.known.lease, l.file = file
  | _ => True

def recentAfter (recent : List (BitVec 32 × BitVec 32)) : Entry F → List (BitVec 32 × BitVec 32)
  | .read _ offset value => (offset, value) :: recent
  | .wrote _ _ _ => []
  | _ => recent

def Known.hear [DecidableEq F] (k : Known F) : Entry F → Known F
  | .call now => { k with now, asked := none }
  | .started => { k with started := true, failed := false, sample := none, counted := none, stalls := 0, lease := none }
  | .stopped => { k with started := false, lease := none }
  | .boosted => { k with boosted := k.now }
  | .failed => { k with failed := true }
  | .querying => { k with query := k.now }
  | .sampled temperature => { k with sample := some (temperature, k.query) }
  | .counted stalled => { k with counted := some k.now, stalls := if stalled then k.stalls + 1 else 0 }
  | .asked file percent => { k with asked := some (file, percent) }
  | .leased file percent ends => { k with asked := none, lease := some ⟨file, percent, ends⟩ }
  | .ended => { k with lease := none }
  | .closed file => { k with lease := k.lease.filter fun l => l.file ≠ file }
  | _ => k

/-- Nothing has happened yet. -/
def untold : Known F where
  now := 0
  started := false
  failed := false
  boosted := 0
  query := 0
  sample := none
  counted := none
  stalls := 0
  asked := none
  lease := none

def watcher [DecidableEq F] : Observer (Entry F) (Watch F) where
  init := ⟨[], untold⟩
  saw w e := ⟨recentAfter w.recent e, w.known.hear e⟩
  Allows := Allows

theorem after_le (now delay : ℕ) : after now delay ≤ now + delay := by
  unfold after
  split <;> omega

/-! ### Speeds -/

theorem ticks_toNat {p : BitVec 32} (h : p ≤ 100) : (ticks p).toNat = (2078 * p.toNat + 50) / 100 := by
  have small : p.toNat ≤ 100 := h
  rw [ticks, BitVec.toNat_udiv, BitVec.toNat_add, BitVec.toNat_mul]
  have f : fanTicks.toNat = 2078 := rfl
  have c : (50 : BitVec 32).toNat = 50 := rfl
  have d : (100 : BitVec 32).toNat = 100 := rfl
  rw [f, c, d]
  omega

theorem ticks_mono {p q : BitVec 32} (le : p ≤ q) (h : q ≤ 100) : ticks p ≤ ticks q := by
  have le' : p.toNat ≤ q.toNat := le
  rw [BitVec.le_def, ticks_toNat (BitVec.le_trans le h), ticks_toNat h]
  omega

theorem ticks_full : ticks 100 = fanTicks := rfl

theorem ticks_le {p : BitVec 32} (h : p ≤ 100) : ticks p ≤ fanTicks := ticks_full ▸ ticks_mono h (BitVec.le_refl _)

theorem fanCurve_le (temperature : ℤ) (previous : BitVec 32) : fanCurve temperature previous ≤ 100 := by
  unfold fanCurve
  repeat' split
  all_goals decide

/-- Falling temperatures are followed late, but rising ones at once. -/
theorem floorSpeed_le_curve (temperature : ℤ) (previous : BitVec 32) : floorSpeed temperature ≤ fanCurve temperature previous := by
  unfold floorSpeed fanCurve
  repeat' split
  all_goals first
    | decide
    | omega

/-! ### Rules for the programs -/

section Rules

variable [DecidableEq F] {α β : Type} {A B : DeviceContext F → Known F → Prop} {C : α → DeviceContext F → Known F → Prop}
  {D : β → DeviceContext F → Known F → Prop}

/-- A relation between the device and what the record tells, the registers read last apart. -/
abbrev Holds (A : DeviceContext F → Known F → Prop) : Recorded World (DeviceContext F) (Entry F) → Prop :=
  Assert watcher fun s w => A s w.known

/-- The program keeps its record in order and leads from `A` to `C`. -/
abbrev Safe (A : DeviceContext F → Known F → Prop) (x : Drive F α) (C : α → DeviceContext F → Known F → Prop) : Prop :=
  Triple (Holds A) x (fun a => Holds (C a)) fun _ _ => False

theorem Safe.mono {x : Drive F α} {C' : α → DeviceContext F → Known F → Prop} (h : Safe A x C) (imp : ∀ a s k, C a s k → C' a s k) :
    Safe A x C' :=
  Triple.mono h (fun _ => id) (fun a _ hc => ⟨hc.1, imp a _ _ hc.2⟩) fun _ _ => id

theorem Safe.weaken {x : Drive F α} {A' : DeviceContext F → Known F → Prop} (h : Safe A x C) (imp : ∀ s k, A' s k → A s k) : Safe A' x C :=
  Triple.mono h (fun _ hc => ⟨hc.1, imp _ _ hc.2⟩) (fun _ _ => id) fun _ _ => id

theorem Safe.pure {a : α} (h : ∀ s k, A s k → C a s k) : Safe A (Pure.pure a) C := Triple.pure fun _ hc => ⟨hc.1, h _ _ hc.2⟩

theorem Safe.look {f : DeviceContext F → Drive F α} (h : ∀ s, Safe (fun s' k => s' = s ∧ A s' k) (f s) C) : Safe A (look >>= f) C :=
  look_rule h

theorem Safe.change {f : DeviceContext F → DeviceContext F} (h : ∀ s k, A s k → B (f s) k) : Safe A (change f) fun _ => B :=
  change_rule f fun _ _ => h _ _

/-- An entry that is no write. -/
theorem Safe.note {e : Entry F} (allowed : ∀ s w, A s w.known → Allows w e) (h : ∀ s k, A s k → B s (k.hear e)) :
    Safe A (record e) fun _ => B :=
  record_rule e allowed fun _ _ => h _ _

/-- The registers of the fan are mapped. -/
def Mapped (s : DeviceContext F) : Prop := ∃ base, s.registers = some base ∧ fanResourceValid base mmioSize = true

/-- Besides, something is known of the registers read last. -/
def Recent (A : DeviceContext F → Known F → Prop) (R : List (BitVec 32 × BitVec 32) → Prop) (s : DeviceContext F) (w : Watch F) : Prop :=
  A s w.known ∧ R w.recent

/-- One more register was read. -/
def Pushed (R : List (BitVec 32 × BitVec 32) → Prop) (offset value : BitVec 32) (recent : List (BitVec 32 × BitVec 32)) : Prop :=
  ∃ older, recent = (offset, value) :: older ∧ R older

theorem read32_recent {R : List (BitVec 32 × BitVec 32) → Prop} {offset : BitVec 32} (mapped : ∀ s k, A s k → Mapped s) :
    Triple (Assert watcher (Recent A R)) (read32 offset) (fun v => Assert watcher (Recent A (Pushed R offset v))) fun _ _ => False := by
  refine look_bind fun c hc => ?_
  obtain ⟨base, registers, valid⟩ := mapped _ _ hc.2.1
  rw [registers]
  rintro _ rfl
  exact ⟨⟨valid, hc.1⟩, hc.2.1, _, rfl, hc.2.2⟩

theorem Safe.read32 {offset : BitVec 32} (mapped : ∀ s k, A s k → Mapped s) : Safe A (read32 offset) fun _ => A :=
  Triple.mono (read32_recent (R := fun _ => True) mapped) (fun _ hc => ⟨hc.1, hc.2, trivial⟩) (fun _ _ hc => ⟨hc.1, hc.2.1⟩) fun _ _ => id

theorem fanReady_rule (mapped : ∀ s k, A s k → Mapped s) :
    Triple (Assert watcher (Recent A fun _ => True)) fanReady (fun r => Assert watcher (Recent A fun recent => r = .ok → HandedOver recent))
      fun _ _ => False := by
  have bad {R : List (BitVec 32 × BitVec 32) → Prop} :
      Triple (Assert watcher (Recent A R)) (Pure.pure FanResult.notReady : Drive F FanResult)
        (fun r => Assert watcher (Recent A fun recent => r = .ok → HandedOver recent)) fun _ _ => False :=
    Triple.pure fun _ hc => ⟨hc.1, hc.2.1, fun no => by cases no⟩
  unfold fanReady
  refine Triple.bind (read32_recent mapped) fun global => Triple.ite (fun _ => bad) fun hg => ?_
  refine Triple.bind (read32_recent mapped) fun control => Triple.ite (fun _ => bad) fun hc => ?_
  refine Triple.bind (read32_recent mapped) fun range => Triple.ite (fun _ => bad) fun hr => ?_
  refine Triple.bind (read32_recent mapped) fun phase => Triple.ite (fun _ => bad) fun hp => ?_
  refine Triple.bind (read32_recent mapped) fun duty => Triple.ite (fun _ => bad) fun hd => Triple.pure fun c hc' => ⟨hc'.1, hc'.2.1, fun _ => ?_⟩
  obtain ⟨_, recent, _, rfl, _, rfl, _, rfl, older, rfl, -⟩ := hc'.2.2
  rw [recent, not_not.mp hc, not_not.mp hr, not_not.mp hp]
  exact ⟨duty, global, older, rfl, BitVec.not_lt.mp hd, not_not.mp hg⟩

/-- What a result leaves: nothing new, or a failure. -/
def Left (A : DeviceContext F → Known F → Prop) (r : FanResult) (s : DeviceContext F) (k : Known F) : Prop :=
  ∃ k', A s k' ∧ k = if r = .ok then k' else k'.hear .failed

theorem reported_rule (r : FanResult) : Safe A (reported r) (Left A) := by
  unfold reported
  by_cases good : r = .ok
  · rw [Effect.when, if_neg (not_not.mpr good)]
    refine Triple.bind (Safe.pure (C := fun _ => A) fun _ _ => id) fun _ => Safe.pure fun s k h => ⟨k, h, ?_⟩
    rw [if_pos good]
  · rw [Effect.when, if_pos good]
    refine Triple.bind (Safe.note (B := fun s k => ∃ k', A s k' ∧ k = k'.hear .failed) (fun _ _ _ => trivial) fun s k h => ⟨k, h, rfl⟩)
      fun _ => Safe.pure fun s k ⟨k', h, same⟩ => ⟨k', h, ?_⟩
    rw [if_neg good]
    exact same

/-- A write keeps its record in order if the fan may have this speed. -/
theorem apply_rule {percent : BitVec 32} (small : percent ≤ 100) (mapped : ∀ s k, A s k → Mapped s)
    (may : ∀ s k, A s k → ticks percent ≠ fanTicks → MayTurnDown k (ticks percent)) : Safe A (apply percent) (Left A) := by
  unfold apply
  refine Triple.mono (P := Assert watcher (Recent A fun _ => True)) (Triple.bind (fanReady_rule mapped) fun r => Triple.ite (fun _ => ?_) fun good => ?_)
    (fun _ hc => ⟨hc.1, hc.2, trivial⟩) (fun _ _ => id) fun _ _ => id
  · exact Triple.mono (reported_rule r) (fun _ hc => ⟨hc.1, hc.2.1⟩) (fun _ _ => id) fun _ _ => id
  have write : Triple (Assert watcher (Recent A fun recent => r = .ok → HandedOver recent)) (write32 regDuty (ticks percent))
      (fun _ => Holds A) fun _ _ => False := by
    refine look_bind fun c hc => ?_
    obtain ⟨base, registers, valid⟩ := mapped _ _ hc.2.1
    rw [registers]
    rintro _ rfl
    exact ⟨⟨⟨valid, rfl, hc.2.2 (not_not.mp good), ticks_le small, may _ _ hc.2.1⟩, hc.1⟩, hc.2.1⟩
  exact Triple.bind write fun _ => Triple.bind (Safe.read32 mapped) fun duty => reported_rule _

theorem Safe.changed {f : DeviceContext F → DeviceContext F} : Safe A (Recorded.change f) fun _ s k => ∃ s₀, s = f s₀ ∧ A s₀ k :=
  Safe.change fun s _ h => ⟨s, rfl, h⟩

theorem Safe.noted {e : Entry F} (allowed : ∀ s w, A s w.known → Allows w e) : Safe A (record e) fun _ s k => ∃ k₀, k = k₀.hear e ∧ A s k₀ :=
  Safe.note allowed fun _ k h => ⟨k, rfl, h⟩

end Rules

/-! ### What the driver knows -/

/-- The policy says what the record tells. -/
structure Matches (p : FanPolicy) (k : Known F) : Prop where
  spun : p.fullUntil = after k.boosted spinupMs
  unsampled : k.sample = none → p.temperature = noTemperature
  sampled : ∀ t at_, k.sample = some (t, at_) → p.temperature = t ∧ p.temperatureTime = at_
  counted : p.nextRpm = k.counted.elim 0 fun c => after c 1000
  stalls : p.stalls = min k.stalls 3

/-- The deadline is that of the lease there is. -/
def Leases (s : DeviceContext F) (k : Known F) : Prop :=
  (s.state.deadline = 0 → k.lease = none) ∧
    (s.state.deadline ≠ 0 → ∃ file, s.owner = some file ∧ k.lease = some ⟨file, s.requested, s.state.deadline⟩)

/-- What holds between callbacks. -/
structure Knows (s : DeviceContext F) (k : Known F) : Prop where
  valid : ∀ b ∈ s.registers, fanResourceValid b mmioSize = true
  failed : k.failed = true → s.state.failed ≠ 0
  policy : k.started = true → Matches s.policy k
  query : ∀ t ∈ s.sampleTime, k.query = t
  held : ∀ l ∈ k.lease, s.owner = some l.file
  lease : s.running = true → Leases s k
  running : s.running = true → s.registers ≠ none ∧ k.started = true
  requested : s.requested ≤ 100

namespace Knows

variable {s : DeviceContext F} {k : Known F} {r : FanResult}

theorem mapped_of (h : Knows s k) (registers : s.registers ≠ none) : Mapped s := by
  obtain ⟨base, same⟩ := Option.ne_none_iff_exists'.mp registers
  exact ⟨base, same, h.valid base same⟩

theorem mapped (h : Knows s k) (running : s.running = true) : Mapped s := h.mapped_of (h.running running).1

theorem unfailed (h : Knows s k) (good : s.state.failed = 0) : k.failed = false := by
  cases failed : k.failed with
  | false => rfl
  | true => exact absurd good (h.failed failed)

theorem setPercent (h : Knows s k) (p : BitVec 32) : Knows (s.setPercent p) k := ⟨h.1, h.2, h.3, h.4, h.5, h.6, h.7, h.8⟩

theorem setPolicy (h : Knows s k) {p : FanPolicy} (same : k.started = true → Matches p k) : Knows { s with policy := p } k :=
  ⟨h.1, h.2, same, h.4, h.5, h.6, h.7, h.8⟩

end Knows

namespace Matches

variable {k k' : Known F}

/-- The record says the same where a policy has to agree with it. -/
theorem congr {p : FanPolicy} (h : Matches p k) (boosted : k'.boosted = k.boosted) (sample : k'.sample = k.sample)
    (counted : k'.counted = k.counted) (stalls : k'.stalls = k.stalls) : Matches p k' where
  spun := boosted ▸ h.spun
  unsampled no := h.unsampled (sample ▸ no)
  sampled t at_ same := h.sampled t at_ (sample ▸ same)
  counted := counted ▸ h.counted
  stalls := stalls ▸ h.stalls

/-- A policy without a reason for full speed. -/
theorem calm {p : FanPolicy} (h : Matches p k) (started : k.started = true) (counted : ∃ c, k.counted = some c ∧ k.now < c + 1000)
    (flags : p.flagsAt k.now = 0) : Calm k p.temperature := by
  rw [FanPolicy.flagsAt] at flags
  obtain ⟨flags, hot⟩ := BitVec.or_eq_zero_iff.mp flags
  obtain ⟨flags, stalled⟩ := BitVec.or_eq_zero_iff.mp flags
  obtain ⟨flags, stale⟩ := BitVec.or_eq_zero_iff.mp flags
  obtain ⟨spinup, temperature⟩ := BitVec.or_eq_zero_iff.mp flags
  have raised {c : Prop} [Decidable c] {flag : BitVec 32} (none : (if c then flag else 0) = 0) (some : flag ≠ 0) : ¬c := fun yes =>
    some ((if_pos yes).symm.trans none)
  have spinup := raised spinup (by decide)
  have temperature := raised temperature (by decide)
  have stale := raised stale (by decide)
  have stalled := raised stalled (by decide)
  have hot := raised hot (by decide)
  have taken : k.sample ≠ none := fun no => temperature (.inl (by rw [h.unsampled no]; decide))
  obtain ⟨⟨t, at_⟩, sample⟩ := Option.ne_none_iff_exists'.mp taken
  obtain ⟨rfl, time⟩ := h.sampled t at_ sample
  rw [time] at stale
  rw [h.spun] at spinup
  rw [h.stalls] at stalled
  exact ⟨started, ⟨at_, sample, by omega, by omega⟩, by omega, by omega, by omega, by omega, counted⟩

end Matches

/-- What a target below full speed comes from. -/
def Chosen (manual : Bool) (requested target : BitVec 32) (temperature : ℤ) : Prop :=
  if manual then target = requested else floorSpeed temperature ≤ target

theorem choose_eq {p : FanPolicy} {m : Bool} {requested : BitVec 32} (small : requested ≤ 100) :
    p.choose m requested ≤ 100 ∧
      (p.choose m requested ≠ 100 → p.flags = 0 ∧ Chosen m requested (p.choose m requested) p.temperature) := by
  unfold FanPolicy.choose
  split
  · exact ⟨BitVec.le_refl _, fun no => absurd rfl no⟩
  rename_i none
  obtain ⟨flags, -⟩ := not_or.mp none
  unfold FanPolicy.wish Chosen
  split
  · exact ⟨small, fun _ => ⟨not_not.mp flags, rfl⟩⟩
  · exact ⟨fanCurve_le _ _, fun _ => ⟨not_not.mp flags, floorSpeed_le_curve _ _⟩⟩

namespace Knows

variable {s : DeviceContext F} {k : Known F}

theorem halt (h : Knows s k) : Knows { s with running := false } k where
  valid := h.valid
  failed := h.failed
  policy := h.policy
  query := h.query
  held := h.held
  lease no := by cases no
  running no := by cases no
  requested := h.requested

/-- Other registers, while the device does not run. -/
theorem map (h : Knows s k) (halted : s.running = false) {registers : Option (BitVec 64)}
    (valid : ∀ b ∈ registers, fanResourceValid b mmioSize = true) : Knows { s with registers := registers } k where
  valid := valid
  failed := h.failed
  policy := h.policy
  query := h.query
  held := h.held
  lease := h.lease
  running no := by rw [halted] at no; cases no
  requested := h.requested

theorem run (h : Knows s k) (spent : s.state.deadline = 0) (lease : k.lease = none) (registers : s.registers ≠ none) (started : k.started = true)
    (running : Bool) : Knows { s with running := running } k where
  valid := h.valid
  failed := h.failed
  policy := h.policy
  query := h.query
  held := h.held
  lease _ := ⟨fun _ => lease, fun no => absurd spent no⟩
  running _ := ⟨registers, started⟩
  requested := h.requested

theorem answered (h : Knows s k) : Knows { s with sampleTime := none } k where
  valid := h.valid
  failed := h.failed
  policy := h.policy
  query _ no := by cases no
  held := h.held
  lease := h.lease
  running := h.running
  requested := h.requested

/-- An owner that has no lease is let go. -/
theorem disown (h : Knows s k) (lease : k.lease = none) (spent : s.running = true → s.state.deadline = 0) :
    Knows { s with owner := none } k where
  valid := h.valid
  failed := h.failed
  policy := h.policy
  query := h.query
  held l mem := by rw [lease] at mem; cases mem
  lease running := ⟨fun _ => lease, fun no => absurd (spent running) no⟩
  running := h.running
  requested := h.requested

/-- The targets of the watchdog are allowed. -/
theorem may (h : Knows s k) (running : s.running = true) (asked : k.asked = none) (lasts : s.state.deadline ≠ 0 → k.now < s.state.deadline)
    {target : BitVec 32} (small : target ≤ 100)
    (chosen : target ≠ 100 → ∃ temperature, Calm k temperature ∧ Chosen (decide (s.state.deadline ≠ 0)) s.requested target temperature)
    (good : k.failed = false) (down : ticks target ≠ fanTicks) : MayTurnDown k (ticks target) := by
  obtain ⟨t, calm, from_⟩ := chosen fun full => down (full ▸ ticks_full)
  refine ⟨good, t, calm, ?_⟩
  by_cases manual : s.state.deadline = 0
  · have automatic : floorSpeed t ≤ target := by simpa [Chosen, manual] using from_
    exact .automatic asked ((h.lease running).1 manual) (ticks_mono automatic small)
  · have same : target = s.requested := by simpa [Chosen, manual] using from_
    obtain ⟨file, -, lease⟩ := (h.lease running).2 manual
    exact .leased _ asked lease (lasts manual) (congrArg ticks same)

end Knows

theorem added_knows : Knows (added : DeviceContext F) untold where
  valid _ no := by cases no
  failed no := by cases no
  policy no := by cases no
  query _ no := by cases no
  held _ no := by cases no
  lease no := by cases no
  running no := by cases no
  requested := by
    change (0 : BitVec 32) ≤ 100
    decide

/-- A request of a file that has the lease, or while nobody has. -/
structure Asking (file : F) (percent : BitVec 32) (now : ℕ) (k : Known F) : Prop where
  asked : k.asked = some (file, percent)
  now : k.now = now
  mine : ∀ l ∈ k.lease, l.file = file

theorem Asking.may {k : Known F} {file : F} {percent target : BitVec 32} {now : ℕ} (h : Asking file percent now k)
    (chosen : target ≠ 100 → ∃ temperature, Calm k temperature ∧ Chosen true percent target temperature)
    (good : k.failed = false) (down : ticks target ≠ fanTicks) : MayTurnDown k (ticks target) := by
  obtain ⟨t, calm, from_⟩ := chosen fun full => down (full ▸ ticks_full)
  exact ⟨good, t, calm, .asked file percent h.asked h.mine (congrArg ticks from_)⟩

section Programs

variable [DecidableEq F] {s : DeviceContext F} {k : Known F}

/-- A failure the driver remembers. -/
theorem Knows.fail (h : Knows s k) : Knows s.fail (k.hear .failed) where
  valid := h.valid
  failed _ := by
    change (1 : BitVec 32) ≠ 0
    decide
  policy started := (h.policy started).congr rfl rfl rfl rfl
  query := h.query
  held := h.held
  lease := h.lease
  running := h.running
  requested := h.requested

/-- No lease is left. -/
theorem Knows.end_lease (h : Knows s k) : Knows (s.setDeadline 0) (k.hear .ended) where
  valid := h.valid
  failed := h.failed
  policy started := (h.policy started).congr rfl rfl rfl rfl
  query := h.query
  held _ no := by cases no
  lease _ := ⟨fun _ => rfl, fun no => absurd rfl no⟩
  running := h.running
  requested := h.requested

/-- What setting the speed leaves alone. -/
def fixed (s : DeviceContext F) (k : Known F) : Option (BitVec 64) × Bool × Bool × ℕ × Option (F × BitVec 32) :=
  (s.registers, s.running, k.started, k.now, k.asked)

theorem fanFull_rule (X : Option (BitVec 64) × Bool × Bool × ℕ × Option (F × BitVec 32) → Prop) :
    Safe (fun s k => Knows s k ∧ s.registers ≠ none ∧ X (fixed s k)) fanFull
      fun _ s k => Knows s k ∧ s.state.deadline = 0 ∧ k.lease = none ∧ X (fixed s k) := by
  unfold fanFull
  refine Triple.bind (apply_rule (by decide) (fun s k h => h.1.mapped_of h.2.1) fun _ _ _ no => absurd ticks_full no) fun r => ?_
  refine Triple.bind Safe.changed fun _ => Triple.bind (Safe.noted fun _ _ _ => trivial) fun _ => ?_
  refine Triple.bind (Safe.change (B := fun s k => Knows s k ∧ s.state.deadline = 0 ∧ k.lease = none ∧ X (fixed s k)) ?_)
    fun _ => Safe.pure fun _ _ => id
  rintro _ _ ⟨k', rfl, s₀, rfl, k₀, ⟨knows, registers, rest⟩, rfl⟩
  split
  · exact ⟨knows.end_lease.setPercent 100, rfl, rfl, rest⟩
  · exact ⟨knows.end_lease.fail, rfl, rfl, rest⟩

theorem fanAdjust_rule {percent : BitVec 32} {Y : DeviceContext F → Known F → Prop} (small : percent ≤ 100)
    (stays : ∀ s k p, Y s k → Y (s.setPercent p) k)
    (may : ∀ s k, Y s k → k.failed = false → ticks percent ≠ fanTicks → MayTurnDown k (ticks percent)) :
    Safe (fun s k => Knows s k ∧ s.registers ≠ none ∧ Y s k) (fanAdjust percent) fun r s k => Knows s k ∧ (r = .ok → Y s k) := by
  unfold fanAdjust
  rw [if_neg (BitVec.not_lt.mpr small)]
  refine Safe.look fun s => Triple.ite (fun _ => Safe.pure fun _ _ h => ⟨h.2.1, fun no => by cases no⟩) fun good => ?_
  refine Triple.bind (apply_rule small (fun _ _ h => h.2.1.mapped_of h.2.2.1) fun s' k h => ?_) fun r => Triple.ite (fun bad => ?_) fun done => ?_
  · exact may s' k h.2.2.2 (h.2.1.unfailed (h.1.symm ▸ not_not.mp good))
  · refine Triple.bind (Safe.change (B := fun s k => Knows s k ∧ s.registers ≠ none ∧ True) ?_) fun _ =>
      Triple.bind (fanFull_rule fun _ => True) fun _ => Safe.pure fun _ _ h => ⟨h.1, fun no => absurd no bad⟩
    rintro s' _ ⟨k₀, ⟨-, knows, registers, -⟩, rfl⟩
    rw [if_neg bad]
    exact ⟨knows.fail, registers, trivial⟩
  · refine Triple.bind (Safe.change (B := fun s k => Knows s k ∧ Y s k) ?_) fun _ => Safe.pure fun _ _ h => ⟨h.1, fun _ => h.2⟩
    rintro s' _ ⟨k₀, ⟨-, knows, -, y⟩, rfl⟩
    rw [if_pos (not_not.mp done)]
    exact ⟨knows.setPercent percent, stays _ _ _ y⟩

/-! ### The target of the policy -/

/-- What choosing a target leaves alone. -/
def apart (s : DeviceContext F) (k : Known F) :
    (Option (BitVec 64) × Bool × Option F × FanState × BitVec 32) × ℕ × Option (F × BitVec 32) × Option (Lease F) :=
  ((s.registers, s.running, s.owner, s.state, s.requested), k.now, k.asked, k.lease)

theorem Knows.count (h : Knows s k) (started : k.started = true) (rpm : BitVec 32) :
    Knows { s with policy := s.policy.count k.now rpm } (k.hear (.counted (stalledAt rpm))) where
  valid := h.valid
  failed := h.failed
  policy _ := by
    obtain ⟨spun, unsampled, sampled, counted, stalls⟩ := h.policy started
    refine ⟨spun, unsampled, sampled, rfl, ?_⟩
    change (if stalledAt rpm = true then (if s.policy.stalls < 3 then s.policy.stalls + 1 else s.policy.stalls) else 0) =
      min (if stalledAt rpm = true then k.stalls + 1 else 0) 3
    rw [stalls]
    split
    · split <;> omega
    · rfl
  query := h.query
  held := h.held
  lease := h.lease
  running := h.running
  requested := h.requested

theorem fanPolicyTarget_rule {now : ℕ} {rpm : BitVec 32} {manual : Bool} {requested : BitVec 32} (small : requested ≤ 100)
    (Y : (Option (BitVec 64) × Bool × Option F × FanState × BitVec 32) × ℕ × Option (F × BitVec 32) × Option (Lease F) → Prop) :
    Safe (fun s k => Knows s k ∧ k.started = true ∧ k.now = now ∧ Y (apart s k)) (fanPolicyTarget now rpm manual requested)
      fun target s k => Knows s k ∧ Y (apart s k) ∧ target ≤ 100 ∧
        (target ≠ 100 → ∃ temperature, Calm k temperature ∧ Chosen manual requested target temperature) := by
  unfold fanPolicyTarget
  refine Safe.look fun s => ?_
  refine Triple.bind (Q := fun _ => Holds fun s k => Knows s k ∧ k.started = true ∧ k.now = now ∧ Y (apart s k) ∧
    ∃ c, k.counted = some c ∧ k.now < c + 1000) (Triple.when (fun due => ?_) fun c hc early => ?_) fun _ => ?_
  · refine Triple.bind Safe.changed fun _ => Safe.note ?_ ?_
    · rintro s' w ⟨s₀, -, rfl, knows, started, rfl, -⟩ c counted
      have policy := (knows.policy started).counted
      rw [Option.mem_def.mp counted] at policy
      exact policy.symm.trans_le due
    · rintro s' k ⟨s₀, rfl, rfl, knows, started, rfl, y⟩
      exact ⟨knows.count started rpm, started, rfl, y, k.now, rfl, by change k.now < k.now + 1000; omega⟩
  · obtain ⟨trace, rfl, knows, started, rfl, y⟩ := hc
    refine ⟨trace, knows, started, rfl, y, ?_⟩
    have policy := (knows.policy started).counted
    rcases counted : (watcher.watch c.trace).known.counted with _ | t
    · rw [counted] at policy
      exact absurd (Nat.zero_le _) (policy ▸ early)
    · rw [counted] at policy
      have late := after_le t 1000
      exact ⟨t, rfl, by rw [policy] at early; dsimp only [Option.elim] at early; omega⟩
  refine Triple.bind Safe.changed fun _ => Safe.look fun s₁ => ?_
  refine Triple.bind Safe.changed fun _ => Safe.pure ?_
  rintro s k ⟨s₂, rfl, rfl, s₃, rfl, knows, started, rfl, y, counted⟩
  have policy := knows.policy started
  obtain ⟨le, chosen⟩ := choose_eq (p := { s₃.policy with flags := s₃.policy.flagsAt k.now }) (m := manual) small
  refine ⟨knows.setPolicy fun _ => ⟨policy.1, policy.2, policy.3, policy.4, policy.5⟩, y, le, fun no => ?_⟩
  obtain ⟨flags, from_⟩ := chosen no
  exact ⟨s₃.policy.temperature, policy.calm started counted flags, from_⟩

/-! ### The callbacks -/

theorem Knows.boost (h : Knows s k) : Knows { s with policy := s.policy.full k.now } (k.hear .boosted) where
  valid := h.valid
  failed := h.failed
  policy started := by
    obtain ⟨spun, unsampled, sampled, counted, stalls⟩ := h.policy started
    exact ⟨rfl, unsampled, sampled, counted, stalls⟩
  query := h.query
  held := h.held
  lease := h.lease
  running := h.running
  requested := h.requested

theorem fanPolicyFull_rule {n : ℕ} (X : Option (BitVec 64) × Bool × Bool × ℕ × Option (F × BitVec 32) → Prop) {P : FanState → Prop} :
    Safe (fun s k => Knows s k ∧ k.now = n ∧ k.lease = none ∧ P s.state ∧ X (fixed s k)) (fanPolicyFull n)
      fun _ s k => Knows s k ∧ k.now = n ∧ k.lease = none ∧ P s.state ∧ X (fixed s k) := by
  unfold fanPolicyFull
  refine Triple.bind Safe.changed fun _ => Safe.note (fun _ _ _ => trivial) ?_
  rintro _ k ⟨s, rfl, knows, rfl, rest⟩
  exact ⟨knows.boost, rfl, rest⟩

/-- After the tick there is no deadline any more that has passed. -/
theorem fanTick_rule {now d : ℕ} (X : Option (BitVec 64) × Bool × Bool × ℕ × Option (F × BitVec 32) → Prop) :
    Safe (fun s k => s.state.deadline = d ∧ Knows s k ∧ s.registers ≠ none ∧ X (fixed s k)) (fanTick now)
      fun _ s k => Knows s k ∧ X (fixed s k) ∧
        if d ≠ 0 ∧ now ≥ d then s.state.deadline = 0 ∧ k.lease = none else s.state.deadline = d := by
  unfold fanTick
  refine Safe.look fun s => Triple.ite (fun early => Safe.pure ?_) fun late => ?_
  · rintro s' k ⟨rfl, rfl, knows, registers, x⟩
    refine ⟨knows, x, ?_⟩
    rw [if_neg (by omega)]
  · refine Triple.bind (Safe.change (B := fun s' k => Knows s' k ∧ s'.registers ≠ none ∧ X (fixed s' k) ∧ s.state.deadline = d) ?_)
      fun _ => Safe.mono (Safe.weaken (fanFull_rule fun x => X x ∧ s.state.deadline = d) fun _ _ h => ⟨h.1, h.2.1, h.2.2⟩) ?_
    · rintro s' k ⟨rfl, rfl, knows, registers, x⟩
      exact ⟨⟨knows.1, knows.2, knows.3, knows.4, knows.5, knows.6, knows.7, knows.8⟩, registers, x, rfl⟩
    · rintro _ s' k ⟨knows, spent, lease, x, rfl⟩
      refine ⟨knows, x, ?_⟩
      rw [if_pos (by omega)]
      exact ⟨spent, lease⟩

theorem fanWatchdog_rule (now : ℕ) : Safe (F := F) (fun s k => Knows s k ∧ k.now = now ∧ k.asked = none) (fanWatchdog now) fun _ => Knows := by
  unfold fanWatchdog
  refine Safe.look fun s => Triple.when (fun running => ?_) fun c hc _ => ⟨hc.1, hc.2.2.1⟩
  refine Triple.bind (Safe.weaken (fanTick_rule (d := s.state.deadline)
    fun x : _ × Bool × Bool × ℕ × Option (F × BitVec 32) => x.2.1 = true ∧ x.2.2.2.1 = now ∧ x.2.2.2.2 = none) ?_) fun _ => ?_
  · rintro s' k ⟨rfl, knows, rfl, asked⟩
    exact ⟨rfl, knows, (knows.running running).1, running, rfl, asked⟩
  refine Triple.bind (Q := fun _ => Holds fun s k => Knows s k ∧ (s.running = true ∧ k.now = now ∧ k.asked = none) ∧
    (s.state.deadline ≠ 0 → now < s.state.deadline)) (Triple.when (fun expired => ?_) fun c hc alive => ?_) fun _ => ?_
  · refine Triple.bind (Safe.change (B := fun s k => Knows s k ∧ k.now = now ∧ k.lease = none ∧ s.state.deadline = 0 ∧
        s.running = true ∧ k.now = now ∧ k.asked = none) ?_) fun _ =>
      Safe.mono (fanPolicyFull_rule (fun x : _ × Bool × Bool × ℕ × Option (F × BitVec 32) => x.2.1 = true ∧ x.2.2.2.1 = now ∧ x.2.2.2.2 = none)
        (P := fun s => s.deadline = 0)) ?_
    · rintro s' k ⟨knows, x, spent⟩
      rw [if_pos expired] at spent
      exact ⟨knows.disown spent.2 fun _ => spent.1, x.2.1, spent.2, spent.1, x⟩
    · rintro _ s' k ⟨knows, -, -, spent, x⟩
      exact ⟨knows, x, fun no => absurd spent no⟩
  · obtain ⟨trace, knows, x, same⟩ := hc
    rw [if_neg alive] at same
    exact ⟨trace, knows, x, fun no => by rw [same] at no ⊢; omega⟩
  refine Triple.bind (Safe.read32 fun s k h => h.1.mapped h.2.1.1) fun rpm => Safe.look fun s₂ => ?_
  by_cases small : s₂.requested ≤ 100
  · refine Triple.bind (Safe.weaken (fanPolicyTarget_rule small fun x => x.1.2.1 = true ∧ x.1.2.2.2.1.deadline = s₂.state.deadline ∧
      x.1.2.2.2.2 = s₂.requested ∧ x.2.1 = now ∧ x.2.2.1 = none ∧ (s₂.state.deadline ≠ 0 → now < s₂.state.deadline)) ?_) fun target => ?_
    · rintro s' k ⟨rfl, knows, ⟨running, rfl, asked⟩, lasts⟩
      exact ⟨knows, (knows.running running).2, rfl, running, rfl, rfl, rfl, asked, lasts⟩
    rintro c ⟨trace, knows, ⟨running, deadline, requested, rfl, asked, lasts⟩, le, chosen⟩
    refine Triple.bind (fanAdjust_rule le (Y := fun _ k => k.failed = false → ticks target ≠ fanTicks → MayTurnDown k (ticks target))
      (fun _ _ _ => id) fun _ _ => id) (fun _ => Safe.pure fun _ _ h => h.1) ⟨trace, knows, (knows.running running).1, ?_⟩
    intro good down
    have deadline : c.state.state.deadline = s₂.state.deadline := deadline
    have requested : c.state.requested = s₂.requested := requested
    rw [← deadline, ← requested] at chosen
    exact knows.may running asked (fun no => deadline.symm ▸ lasts (deadline ▸ no)) le chosen good down
  · rintro c ⟨-, rfl, knows, -⟩
    exact absurd knows.requested small

theorem Knows.ask (h : Knows s k) (file : F) (percent : BitVec 32) : Knows s (k.hear (.asked file percent)) where
  valid := h.valid
  failed := h.failed
  policy started := (h.policy started).congr rfl rfl rfl rfl
  query := h.query
  held := h.held
  lease := h.lease
  running := h.running
  requested := h.requested

/-- A lease that is granted. -/
theorem Knows.grant (h : Knows s k) {file : F} {percent : BitVec 32} {deadline : ℕ} (small : percent ≤ 100) (later : deadline ≠ 0) :
    Knows { s.setDeadline deadline with owner := some file, requested := percent } (k.hear (.leased file percent deadline)) where
  valid := h.valid
  failed := h.failed
  policy started := (h.policy started).congr rfl rfl rfl rfl
  query := h.query
  held l mem := by rw [← Option.some.inj mem]
  lease _ := ⟨fun no => absurd no later, fun _ => ⟨file, rfl, rfl⟩⟩
  running := h.running
  requested := small

theorem fanSet_rule {file : F} {percent target : BitVec 32} {leaseMs now : ℕ} (le : target ≤ 100) :
    Safe (fun s k => Knows s k ∧ s.registers ≠ none ∧ Asking file percent now k ∧
        (k.failed = false → ticks target ≠ fanTicks → MayTurnDown k (ticks target))) (fanSet target leaseMs now)
      fun r s k => if r = .ok then ∃ s₀, s = s₀.setDeadline (now + leaseMs) ∧ Knows s₀ k ∧ Asking file percent now k else Knows s k := by
  unfold fanSet
  refine Triple.ite (fun _ => Safe.pure fun _ _ h => ?_) fun _ => ?_
  · rw [if_neg (by decide)]
    exact h.1
  refine Triple.bind (fanAdjust_rule le (Y := fun _ k => Asking file percent now k ∧
    (k.failed = false → ticks target ≠ fanTicks → MayTurnDown k (ticks target))) (fun _ _ _ => id) fun _ _ h => h.2) fun r => ?_
  refine Triple.ite (fun good => ?_) fun bad => Safe.pure fun _ _ h => ?_
  · refine Triple.bind Safe.changed fun _ => Safe.pure ?_
    rintro s k ⟨s₀, rfl, knows, done⟩
    rw [if_pos good]
    exact ⟨s₀, rfl, knows, (done good).1⟩
  · rw [if_neg bad]
    exact h.1

theorem ntSuccess_iff (r : FanResult) : ntSuccess (resultStatus r) = true ↔ r = .ok := by
  cases r <;> decide

theorem fanLease_rule {file : F} {request : FanSet} {now : ℕ} (small : request.percent ≤ 100) (least : 500 ≤ request.leaseMs)
    (most : request.leaseMs ≤ maxLeaseMs) :
    Safe (fun s k => Knows s k ∧ s.running = true ∧ k.now = now ∧ (s.owner = none ∨ s.owner = some file)) (fanLease now file request)
      fun _ => Knows := by
  unfold fanLease
  refine Triple.bind (Safe.note (B := fun s k => Knows s k ∧ s.running = true ∧ Asking file request.percent now k) (fun _ _ _ => trivial) ?_)
    fun _ => ?_
  · rintro s k ⟨knows, running, rfl, owner⟩
    refine ⟨knows.ask file request.percent, running, rfl, rfl, fun l mem => ?_⟩
    have held := knows.held l mem
    rcases owner with none | mine
    · rw [none] at held
      cases held
    · exact Option.some.inj (held.symm.trans mine)
  refine Triple.bind (Safe.read32 fun s k h => h.1.mapped h.2.1) fun rpm => ?_
  refine Triple.bind (Safe.weaken (fanPolicyTarget_rule small fun x => x.1.1 ≠ none ∧ x.2.1 = now ∧ x.2.2.1 = some (file, request.percent) ∧
    ∀ l ∈ x.2.2.2, l.file = file) ?_) fun target => ?_
  · rintro s k ⟨knows, running, asking⟩
    exact ⟨knows, (knows.running running).2, asking.now, (knows.running running).1, asking.now, asking.asked, asking.mine⟩
  rintro c ⟨trace, knows, ⟨registers, nowIs, asked, mine⟩, le, chosen⟩
  have asking : Asking file request.percent now (watcher.watch c.trace).known := ⟨asked, nowIs, mine⟩
  refine Triple.bind (fanSet_rule le) (fun r => ?_) ⟨trace, knows, registers, asking, asking.may chosen⟩
  refine Triple.bind (Q := fun _ => Holds Knows) (Triple.when (fun success => ?_) fun c hc failure => ?_) fun _ => Safe.pure fun _ _ => id
  · rw [ntSuccess_iff] at success
    refine Triple.bind Safe.changed fun _ => Safe.note ?_ ?_
    · rintro s w ⟨s₀, -, h⟩
      rw [if_pos success] at h
      obtain ⟨-, -, -, asking⟩ := h
      have now := asking.now
      exact ⟨asking.asked, by omega, by omega, asking.mine⟩
    · rintro s k ⟨s₀, rfl, h⟩
      rw [if_pos success] at h
      obtain ⟨s₁, rfl, knows, -⟩ := h
      exact knows.grant small (by omega)
  · rw [ntSuccess_iff] at failure
    obtain ⟨trace, h⟩ := hc
    dsimp only at h
    rw [if_neg failure] at h
    exact ⟨trace, h⟩

/-! ### Power, files and temperatures -/

section Steps

theorem Knows.call (h : Knows s k) (now : ℕ) : Knows s (k.hear (.call now)) where
  valid := h.valid
  failed := h.failed
  policy started := (h.policy started).congr rfl rfl rfl rfl
  query := h.query
  held := h.held
  lease := h.lease
  running := h.running
  requested := h.requested

theorem Knows.start (h : Knows s k) (status : Status) :
    Knows { s with state := ⟨0, 0, 0, 0⟩, policy := s.policy.start k.now, temperatureStatus := status, requested := 100 }
      ((k.hear .started).hear .boosted) where
  valid := h.valid
  failed no := by cases no
  policy _ := ⟨rfl, fun _ => rfl, fun _ _ no => (by cases no), rfl, rfl⟩
  query := h.query
  held _ no := by cases no
  lease _ := ⟨fun _ => rfl, fun no => absurd rfl no⟩
  running running := ⟨(h.running running).1, rfl⟩
  requested := BitVec.le_refl _

theorem Knows.stop (h : Knows s k) (halted : s.running = false) : Knows { s with owner := none } (k.hear .stopped) where
  valid := h.valid
  failed := h.failed
  policy no := by cases no
  query := h.query
  held _ no := by cases no
  lease no := by rw [halted] at no; cases no
  running no := by rw [halted] at no; cases no
  requested := h.requested

/-- A file that is not the owner is closed. -/
theorem Knows.close (h : Knows s k) {file : F} (other : s.owner ≠ some file) : Knows s (k.hear (.closed file)) := by
  have kept : k.lease.filter (fun l => l.file ≠ file) = k.lease := by
    rcases lease : k.lease with _ | l
    · rfl
    · have apart : l.file ≠ file := fun same => other ((h.held l lease).trans (congrArg some same))
      simp [Option.filter, apart]
  have policy (started : k.started = true) : Matches s.policy (k.hear (.closed file)) :=
    (h.policy started).congr rfl rfl rfl rfl
  refine ⟨h.valid, h.failed, policy, h.query, fun l mem => h.held l (kept ▸ mem), fun running => ?_, h.running, h.requested⟩
  change (_ → k.lease.filter _ = none) ∧ (_ → ∃ f, _ ∧ k.lease.filter _ = _)
  rw [kept]
  exact h.lease running

/-- The owner is closed. -/
theorem Knows.leave (h : Knows s k) {file : F} (mine : ∀ l ∈ k.lease, l.file = file) (spent : s.running = true → s.state.deadline = 0) :
    Knows { s with owner := none } (k.hear (.closed file)) := by
  have gone : k.lease.filter (fun l => l.file ≠ file) = none := by
    rcases lease : k.lease with _ | l
    · rfl
    · simp [Option.filter, mine l lease]
  have policy (started : k.started = true) : Matches s.policy (k.hear (.closed file)) :=
    (h.policy started).congr rfl rfl rfl rfl
  refine ⟨h.valid, h.failed, policy, h.query, fun l mem => ?_, fun running => ⟨fun _ => gone, fun no => absurd (spent running) no⟩, h.running,
    h.requested⟩
  cases gone.symm.trans mem

theorem Knows.inquire (h : Knows s k) : Knows { s with sampleTime := some k.now } (k.hear .querying) where
  valid := h.valid
  failed := h.failed
  policy started := (h.policy started).congr rfl rfl rfl rfl
  query _ mem := Option.some.inj mem
  held := h.held
  lease := h.lease
  running := h.running
  requested := h.requested

theorem Knows.sample (h : Knows s k) (temperature : ℤ) (status : Status) :
    Knows { s with policy := s.policy.sample temperature k.query, temperatureStatus := status } (k.hear (.sampled temperature)) where
  valid := h.valid
  failed := h.failed
  policy started := by
    obtain ⟨spun, -, -, counted, stalls⟩ := h.policy started
    refine ⟨spun, fun no => (by cases no), fun t at_ same => ?_, counted, stalls⟩
    obtain ⟨rfl, rfl⟩ := Prod.mk.inj (Option.some.inj same)
    exact ⟨rfl, rfl⟩
  query := h.query
  held := h.held
  lease := h.lease
  running := h.running
  requested := h.requested

end Steps

theorem fanMemory_valid {resources : List Resource} {start : BitVec 64} (accepted : fanMemory resources = some start) :
    fanResourceValid start mmioSize = true := by
  rw [fanMemory] at accepted
  split at accepted
  · rename_i base length found
    split at accepted
    · rename_i valid
      cases accepted
      have same : length = mmioSize := by
        rw [fanResourceValid] at valid
        simp only [Bool.and_eq_true, decide_eq_true_eq] at valid
        exact valid.1.1.1
      rwa [same] at valid
    · cases accepted
  · cases accepted

theorem fanPrepare_rule (resources : List Resource) (maps : Bool) :
    Safe (F := F) (fun s k => Knows s k ∧ s.running = false) (fanPrepare resources maps) fun _ => Knows := by
  unfold fanPrepare
  rcases accepted : fanMemory resources with _ | start
  · exact Safe.pure fun _ _ h => h.1
  · refine Triple.bind (Safe.change (B := Knows) ?_) fun _ => Safe.pure fun _ _ => id
    rintro s k ⟨knows, halted⟩
    refine knows.map halted fun b mem => ?_
    cases maps with
    | true => exact Option.some.inj mem ▸ fanMemory_valid accepted
    | false => cases mem

theorem fanRelease_rule : Safe (F := F) Knows fanRelease fun _ => Knows := by
  unfold fanRelease
  refine Triple.bind Safe.changed fun _ => Safe.note (fun _ _ _ => trivial) ?_
  rintro _ k ⟨s, rfl, knows⟩
  exact (knows.halt.map rfl fun _ no => by cases no).stop rfl

theorem fanD0Entry_rule (now : ℕ) : Safe (F := F) (fun s k => Knows s k ∧ k.now = now) (fanD0Entry now) fun _ => Knows := by
  unfold fanD0Entry
  refine Triple.bind Safe.changed fun _ => Triple.bind (Safe.noted fun _ _ _ => trivial) fun _ =>
    Triple.bind (Safe.note (B := fun s k => Knows s k ∧ k.started = true) (fun _ _ _ => trivial) ?_) fun _ => ?_
  · rintro _ _ ⟨k, rfl, s, rfl, knows, rfl⟩
    exact ⟨knows.start _, rfl⟩
  refine Safe.look fun s => Triple.ite (fun _ => Safe.pure fun _ _ h => h.2.1) fun registers => ?_
  refine Safe.weaken (A := fun s k => Knows s k ∧ s.registers ≠ none ∧ k.started = true) ?_ fun _ _ h => ⟨h.2.1, h.1 ▸ registers, h.2.2⟩
  have read (offset : BitVec 32) : Safe (F := F) (fun s k => Knows s k ∧ s.registers ≠ none ∧ k.started = true) (read32 offset)
      fun _ s k => Knows s k ∧ s.registers ≠ none ∧ k.started = true := Safe.read32 fun _ _ h => h.1.mapped_of h.2.1
  refine Triple.bind (read _) fun _ => Triple.bind (read _) fun _ => Triple.bind (read _) fun _ => Triple.bind (read _) fun _ =>
    Triple.bind (read _) fun _ => Triple.bind (read _) fun _ => ?_
  refine Triple.bind (Safe.weaken (fanFull_rule fun x => x.1 ≠ none ∧ x.2.2.1 = true) fun _ _ h => ⟨h.1, h.2.1, h.2.1, h.2.2⟩) fun r => ?_
  refine Triple.bind (Safe.change (B := Knows) ?_) fun _ => Safe.pure fun _ _ => id
  rintro s k ⟨knows, spent, lease, registers, started⟩
  exact knows.run spent lease registers started _

theorem fanD0Exit_rule : Safe (F := F) Knows fanD0Exit fun _ => Knows := by
  unfold fanD0Exit
  refine Triple.bind (Safe.change (B := fun s k => Knows s k ∧ s.running = false) fun _ _ h => ⟨h.halt, rfl⟩) fun _ => Safe.look fun s => ?_
  refine Triple.bind (Q := fun _ => Holds fun s k => Knows s k ∧ s.running = false) (Triple.when (fun registers => ?_) fun c hc _ => ⟨hc.1, hc.2.2⟩)
    fun _ => ?_
  · refine Triple.bind (Safe.weaken (fanFull_rule fun x => x.2.1 = false) ?_) fun _ => Safe.pure fun _ _ h => ⟨h.1, h.2.2.2⟩
    rintro _ k ⟨rfl, knows, halted⟩
    exact ⟨knows, registers, halted⟩
  · refine Triple.bind Safe.changed fun _ => Safe.note (fun _ _ _ => trivial) ?_
    rintro _ k ⟨s, rfl, knows, halted⟩
    exact knows.stop halted

theorem fanTemperatureBegin_rule (now : ℕ) : Safe (F := F) (fun s k => Knows s k ∧ k.now = now) (fanTemperatureBegin now) fun _ => Knows := by
  unfold fanTemperatureBegin
  refine Safe.look fun s => Triple.when (fun _ => ?_) fun c hc _ => ⟨hc.1, hc.2.2.1⟩
  refine Triple.bind Safe.changed fun _ => Safe.note (fun _ _ _ => trivial) ?_
  rintro _ k ⟨s, rfl, -, knows, rfl⟩
  exact knows.inquire

theorem fanTemperatureEnd_rule (temperature : ℤ) (status : Status) : Safe (F := F) Knows (fanTemperatureEnd temperature status) fun _ => Knows := by
  unfold fanTemperatureEnd
  refine Safe.look fun s => ?_
  rcases asked : s.sampleTime with _ | t
  · exact Safe.pure fun _ _ h => h.2
  refine Triple.bind (Safe.change (B := fun s k => Knows s k ∧ k.query = t) ?_) fun _ =>
    Triple.when (fun _ => ?_) fun c hc _ => ⟨hc.1, hc.2.1⟩
  · rintro _ k ⟨rfl, knows⟩
    exact ⟨knows.answered, knows.query t asked⟩
  · refine Triple.bind Safe.changed fun _ => Safe.note (fun _ _ _ => trivial) ?_
    rintro _ k ⟨s, rfl, knows, rfl⟩
    exact knows.sample temperature status

theorem fanCleanup_rule (file : F) (now : ℕ) : Safe (fun s k => Knows s k ∧ k.now = now) (fanCleanup file now) fun _ => Knows := by
  unfold fanCleanup
  refine Safe.look fun s => ?_
  by_cases owner : s.owner = some file
  · rw [Effect.when, if_pos owner]
    refine Triple.bind (Q := fun _ => Holds fun s k => ∃ s₀, s = { s₀ with owner := none } ∧ Knows s₀ k ∧ (∀ l ∈ k.lease, l.file = file) ∧
      (s₀.running = true → s₀.state.deadline = 0)) (Triple.bind (Q := fun _ => Holds fun s k => Knows s k ∧ (∀ l ∈ k.lease, l.file = file) ∧
        (s.running = true → s.state.deadline = 0)) (Triple.when (fun running => ?_) fun c hc halted => ?_) fun _ => Safe.changed) fun _ => ?_
    · refine Triple.bind (Safe.weaken (fanFull_rule fun x => x.2.2.2.1 = now) ?_) fun _ =>
        Safe.mono (Safe.weaken (fanPolicyFull_rule (n := now) (fun _ => True) (P := fun s => s.deadline = 0)) ?_) ?_
      · rintro _ k ⟨rfl, knows, nowIs⟩
        exact ⟨knows, (knows.running running).1, nowIs⟩
      · rintro s' k ⟨knows, spent, lease, nowIs⟩
        exact ⟨knows, nowIs, lease, spent, trivial⟩
      · rintro _ s' k ⟨knows, -, lease, spent, -⟩
        exact ⟨knows, fun l mem => (by rw [lease] at mem; cases mem), fun _ => spent⟩
    · obtain ⟨trace, rfl, knows, -⟩ := hc
      exact ⟨trace, knows, fun l mem => Option.some.inj ((knows.held l mem).symm.trans owner), fun running => absurd running halted⟩
    · refine Safe.note (fun _ _ _ => trivial) ?_
      rintro _ k ⟨s₀, rfl, knows, mine, spent⟩
      exact knows.leave mine spent
  · rw [Effect.when, if_neg owner]
    refine Triple.bind (Safe.pure (C := fun _ s' k => s' = s ∧ Knows s' k) fun _ _ h => ⟨h.1, h.2.1⟩) fun _ =>
      Safe.note (fun _ _ _ => trivial) ?_
    rintro _ k ⟨rfl, knows⟩
    exact knows.close owner

theorem fanQuery_rule (now : ℕ) : Safe (F := F) (fun s k => Knows s k ∧ s.running = true) (fanQuery now) fun _ => Knows := by
  unfold fanQuery
  have read (offset : BitVec 32) : Safe (F := F) (fun s k => Knows s k ∧ s.running = true) (read32 offset)
      fun _ s k => Knows s k ∧ s.running = true := Safe.read32 fun _ _ h => h.1.mapped h.2
  refine Safe.look fun s => Safe.weaken (A := fun s k => Knows s k ∧ s.running = true) ?_ fun _ _ h => h.2
  exact Triple.bind (read _) fun _ => Triple.bind (read _) fun _ => Triple.bind (read _) fun _ => Triple.bind (read _) fun _ =>
    Triple.bind (read _) fun _ => Triple.bind (read _) fun _ => Safe.pure fun _ _ h => h.1

theorem fanControl_rule (now : ℕ) (request : Request F) :
    Safe (fun s k => Knows s k ∧ k.now = now) (fanControl now request) fun _ => Knows := by
  have done {s : DeviceContext F} {answer : Status × Option FanQuery} :
      Safe (fun s' k => s' = s ∧ Knows s' k ∧ k.now = now) (Pure.pure answer) fun _ => Knows := Safe.pure fun _ _ h => h.2.1
  have body : Safe (fun s k => Knows s k ∧ k.now = now) (fanControlBody now request) fun _ => Knows := by
    unfold fanControlBody
    refine Safe.look fun s => Triple.ite (fun _ => done) fun running => ?_
    have running : s.running = true := by simpa using running
    split
    · refine Triple.ite (fun _ => done) fun _ => Triple.ite (fun _ => done) fun _ => ?_
      refine Triple.bind (Safe.weaken (fanQuery_rule now) ?_) fun _ => Safe.pure fun _ _ => id
      rintro _ k ⟨rfl, knows, -⟩
      exact ⟨knows, running⟩
    · refine Triple.ite (fun _ => done) fun _ => Triple.ite (fun _ => done) fun _ => ?_
      split
      · exact done
      rename_i file _
      refine Triple.ite (fun _ => done) fun formed => Triple.ite (fun _ => done) fun free => ?_
      simp only [not_or] at formed
      obtain ⟨-, -, small, least, most⟩ := formed
      refine Triple.bind (Safe.weaken (fanLease_rule (BitVec.not_lt.mp small) (Nat.not_lt.mp least) (Nat.not_lt.mp most)) ?_)
        fun _ => Safe.pure fun _ _ => id
      rintro _ k ⟨rfl, knows, nowIs⟩
      exact ⟨knows, running, nowIs, by tauto⟩
    · exact done
  unfold fanControl
  exact Triple.bind body fun _ => Safe.note (fun _ _ _ => trivial) fun _ _ h => h

theorem body_rule (call : Call F) : Safe (fun s k => Knows s k ∧ call.possible s = true) call.body fun _ => Knows := by
  have timed {now : ℕ} {x : Drive F Unit} (h : Safe (fun s k => Knows s k ∧ k.now = now ∧ k.asked = none) x fun _ => Knows) {P : DeviceContext F → Prop} :
      Safe (fun s k => Knows s k ∧ P s) (record (.call now) >>= fun _ => x) fun _ => Knows :=
    Triple.bind (Safe.note (fun _ _ _ => trivial) fun _ _ h => ⟨h.1.call now, rfl, rfl⟩) fun _ => h
  cases call with
  | prepare resources maps =>
    refine Triple.bind (Safe.weaken (fanPrepare_rule resources maps) ?_) fun _ => Safe.pure fun _ _ => id
    rintro s k ⟨knows, halted⟩
    exact ⟨knows, by simpa [Call.possible] using halted⟩
  | release => exact Safe.weaken fanRelease_rule fun _ _ h => h.1
  | d0Entry now =>
    exact timed (Triple.bind (Safe.weaken (fanD0Entry_rule now) fun _ _ h => ⟨h.1, h.2.1⟩) fun _ => Safe.pure fun _ _ => id)
  | d0Exit => exact Safe.weaken fanD0Exit_rule fun _ _ h => h.1
  | watchdog now => exact timed (fanWatchdog_rule now)
  | temperatureBegin now => exact timed (Safe.weaken (fanTemperatureBegin_rule now) fun _ _ h => ⟨h.1, h.2.1⟩)
  | temperatureEnd temperature status => exact Safe.weaken (fanTemperatureEnd_rule temperature status) fun _ _ h => h.1
  | cleanup file now => exact timed (Safe.weaken (fanCleanup_rule file now) fun _ _ h => ⟨h.1, h.2.1⟩)
  | control now request => exact timed (Safe.weaken (fanControl_rule now request) fun _ _ h => ⟨h.1, h.2.1⟩)

/-- **The fan is fail safe.** In every run, whatever the registers read as and in whatever order and at whatever times the
callbacks come, only the duty register of the fan is written, right after all its registers were as the firmware hands
them over, and with at most full speed. Less than that is written only while the device is started, nothing has failed
since, the last temperature was asked for at most 2.5 s ago and is below 75 °C, it is two seconds since the fan was to spin
up, and its speed was judged within the last second and did not stand still three times in a row; and then only what a
file asks for that gets or holds the lease, which lasts for at most five seconds, or else no less than the temperature
needs. -/
theorem fan_safe (world : World) {c : Recorded World (DeviceContext F) (Entry F)} (reachable : (system world).Reachable c) :
    watcher.InOrder c.trace := by
  have init : Holds Knows (system world : System (Recorded World (DeviceContext F) (Entry F)) (Call F)).init := ⟨trivial, added_knows⟩
  have held : Holds Knows c := by
    refine reachable.invariant init fun {s t} call had _ next => ?_
    obtain ⟨possible, next⟩ := Option.ite_none_right_eq_some.mp next
    rw [← Option.some.inj next]
    have after := body_rule call ⟨had.1, had.2, possible⟩
    rcases run : call.body.run s with ⟨no | done, t⟩
    · rw [run] at after
      exact after.elim
    · rw [run] at after
      exact after
  exact held.1

/-- A fan whose registers are the firmware's, and which has been turned down once. -/
def quietWorld : World where
  read k offset :=
    if offset = regGlobal then 8
    else if offset = regControl then 0x109
    else if offset = regRange then 2078
    else if offset = regPhase then 0
    else if offset = regRpm then 2500
    else if k < 18 then 2078
    else 727

/-- The fan starts, spins up and is turned down at 40 °C. -/
def quiet : List (Call ℕ) :=
  [.prepare [.memory 0x1f0009c000 0x100] true, .d0Entry 0, .temperatureBegin 2500, .temperatureEnd 40000 0, .watchdog 3000]

def afterQuiet : Recorded World (DeviceContext ℕ) (Entry ℕ) := ((system quietWorld).runFrom (system quietWorld).init quiet).getD (system quietWorld).init

theorem fan_safe_quiet : watcher.InOrder afterQuiet.trace ∧ afterQuiet.trace[1]? = some (.wrote 0x1f0009c000 regDuty 727) :=
  ⟨fan_safe quietWorld (System.reachable_of_run (l := quiet) rfl), rfl⟩

end Programs

end Pi5Drivers.Fan
