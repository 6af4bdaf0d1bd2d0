import Mathlib.Tactic.ByContra
import Pi5Drivers.Display.Parsed

/-! How an output learns its modes. The descriptor comes from the mailbox in blocks, the parser makes a list
of it, and the list is cut down to what the output can show. The preferred mode follows through all of this.
The operating system names a mode by its signal only. -/

namespace Pi5Drivers.Display

open Effect

/-! ### The descriptor -/

/-- What the mailbox says when it is asked for a block. -/
structure EdidResult where
  success : Bool
  information : ℕ
  version : BitVec 32
  operation : BitVec 32
  port : BitVec 32
  block : BitVec 32
  edid : ℕ → BitVec 8

/-- The answer is one to the question, and a whole block. -/
def EdidResult.answers (r : EdidResult) (port : BitVec 32) (block : ℕ) : Bool :=
  r.success ∧ r.information = 144 ∧ r.version = 1 ∧ r.operation = 1 ∧ r.port = port ∧ r.block = BitVec.ofNat 32 block ∧
    checksum r.edid ∧ (block = 0 → header r.edid)

namespace Monitor

def zero : Monitor := ⟨fun _ => 0, 0, [], 0, false⟩

def store (m : Monitor) (block : ℕ) (b : ℕ → BitVec 8) : Monitor :=
  { m with
    edid := fun i => if block * 128 ≤ i ∧ i < block * 128 + 128 then b (i - block * 128) else m.edid i
    bytes := m.bytes + 128 }

/-- The blocks after the first, as long as they come. -/
def fetchMore (port : BitVec 32) (ask : ℕ → EdidResult) : ℕ → ℕ → Monitor → Monitor
  | 0, _, m => m
  | left + 1, block, m =>
    if (ask block).answers port block then fetchMore port ask left (block + 1) (m.store block (ask block).edid) else m

/-- The first block says how many there are. -/
def fetch (port : BitVec 32) (ask : ℕ → EdidResult) : Monitor :=
  if (ask 0).answers port 0 then
    fetchMore port ask (min (((ask 0).edid 126).toNat + 1) maxEdidBlocks - 1) 1 (zero.store 0 (ask 0).edid)
  else zero

end Monitor

/-! ### The modes of an output -/

/-- The modes that pass, and the place of the preferred one among them. -/
def survivors (pass : Timing → Bool) (preferred : ℕ) : ℕ → List Timing → List Timing × ℕ → List Timing × ℕ
  | _, [], r => r
  | i, t :: l, (kept, chosen) =>
    survivors pass preferred (i + 1) l
      (if pass t then (kept ++ [t], if i = preferred then kept.length else chosen) else (kept, chosen))

/-- The current signal under the name that the list has for it. -/
def Timing.named (t : Timing) (m : Monitor) : Timing :=
  let t := if m.hdmi then t else t.asDvi
  match m.modes.find? fun s => decide (s.Same t) with
  | some s => { t with videoId := s.videoId, flags := s.flags }
  | none => t

/-- The fields of an output that its modes are about. -/
structure Panel where
  port : BitVec 32
  mailbox : Bool
  owned : Bool
  nativeMaxClock : BitVec 32
  originalTiming : Timing
  currentTiming : Timing
  monitor : Monitor

inductive RefreshStatus
  | success | invalidDeviceState | deviceNotReady | deviceConfigurationError
deriving DecidableEq, Repr

namespace Panel

/-- The output can be programmed for the mode. -/
def shows (p : Panel) (t : Timing) : Bool := t.NativeSupported ∧ t.clock ≤ p.nativeMaxClock

def filtered (p : Panel) (m : Monitor) : Monitor :=
  let (modes, preferred) := survivors p.shows m.preferred 0 m.modes ([], maxModes)
  { m with modes := modes, preferred := preferred }

/-- The current signal stays a mode, be it one of the monitor or not. -/
def completed (t : Timing) (m : Monitor) : Monitor :=
  let m := (m.add t false).2
  if m.modes.length ≤ m.preferred then { m with preferred := 0 } else m

def refreshMonitor (p : Panel) (ask : ℕ → EdidResult) (requireEdid : Bool) : RefreshStatus × Panel :=
  if p.mailbox = false then (.invalidDeviceState, p)
  else
    let m := Monitor.fetch p.port ask
    if requireEdid ∧ m.bytes = 0 then (.deviceNotReady, { p with monitor := m })
    else
      let m := p.filtered (parse.run m).2
      let t := p.originalTiming.named m
      let p := { p with currentTiming := if p.owned then p.currentTiming else t, monitor := completed t m }
      if p.monitor.modes = [] then (.deviceConfigurationError, p) else (.success, p)

end Panel

/-! ### The preferred mode follows -/

section Survivors

variable {pass : Timing → Bool} {preferred : ℕ}

theorem survivors_after (i : ℕ) (l kept : List Timing) (chosen : ℕ) (after : preferred < i) :
    survivors pass preferred i l (kept, chosen) = (kept ++ l.filter pass, chosen) := by
  induction l generalizing i kept with
  | nil => simp only [survivors, List.filter_nil, List.append_nil]
  | cons t l ih =>
    unfold survivors
    by_cases here : pass t = true
    · rw [if_pos here, if_neg (Nat.ne_of_gt after), ih (i + 1) _ (by omega), List.filter_cons_of_pos here, List.append_assoc]
      rfl
    · rw [if_neg here, ih (i + 1) _ (by omega), List.filter_cons_of_neg here]

/-- The place of the preferred mode is the number of those before it that pass. -/
theorem survivors_eq (i : ℕ) (l kept : List Timing) (chosen k : ℕ) (place : preferred = i + k) :
    survivors pass preferred i l (kept, chosen) =
      (kept ++ l.filter pass, if (l[k]?.any pass) = true then kept.length + ((l.take k).filter pass).length else chosen) := by
  induction l generalizing i kept k with
  | nil => simp only [survivors, List.filter_nil, List.append_nil, List.getElem?_nil, Option.any_none, Bool.false_eq_true, if_false]
  | cons t l ih =>
    unfold survivors
    cases k with
    | zero =>
      have here : i = preferred := by omega
      rw [if_pos here]
      by_cases passes : pass t = true
      · rw [if_pos passes, survivors_after (i + 1) _ _ _ (by omega), List.filter_cons_of_pos passes, List.append_assoc]
        simp only [List.getElem?_cons_zero, Option.any_some, passes, if_true, List.take_zero, List.filter_nil, List.length_nil,
          Nat.add_zero]
        rfl
      · rw [if_neg passes, survivors_after (i + 1) _ _ _ (by omega), List.filter_cons_of_neg passes]
        simp only [List.getElem?_cons_zero, Option.any_some, if_neg passes]
    | succ k =>
      have there : i ≠ preferred := by omega
      rw [if_neg there]
      by_cases passes : pass t = true
      · rw [if_pos passes, ih (i + 1) _ k (by omega), List.filter_cons_of_pos passes, List.append_assoc]
        simp only [List.getElem?_cons_succ, List.take_succ_cons, List.filter_cons_of_pos passes, List.length_append, List.length_cons,
          List.length_nil]
        refine Prod.ext rfl ?_
        simp only
        split
        · omega
        · rfl
      · rw [if_neg passes, ih (i + 1) _ k (by omega), List.filter_cons_of_neg passes]
        simp only [List.getElem?_cons_succ, List.take_succ_cons, List.filter_cons_of_neg passes]

/-- An element that passes is where the ones before it end. -/
theorem getElem?_filter {l : List Timing} {k : ℕ} {t : Timing} (there : l[k]? = some t) (passes : pass t = true) :
    (l.filter pass)[((l.take k).filter pass).length]? = some t := by
  obtain ⟨inside, rfl⟩ := List.getElem?_eq_some_iff.mp there
  have split : l.filter pass = (l.take k).filter pass ++ l[k] :: (l.drop (k + 1)).filter pass := by
    conv_lhs => rw [← List.take_append_drop k l, List.drop_eq_getElem_cons inside]
    rw [List.filter_append, List.filter_cons_of_pos passes]
  rw [split, List.getElem?_append_right (Nat.le_refl _), Nat.sub_self]
  rfl

end Survivors

/-! ### The current signal -/

section Current

variable {m : Monitor} {t : Timing}

theorem key_dvi (t : Timing) (m : Monitor) : (if m.hdmi then t else t.asDvi).key = t.key := by
  split
  · rfl
  · exact t.key_asDvi

theorem Timing.key_renamed {t : Timing} {v : BitVec 16} {f : BitVec 32} (h : f &&& 7 = t.flags &&& 7) :
    key { t with videoId := v, flags := f } = t.key := by
  simp only [key, h]

theorem key_named (t : Timing) (m : Monitor) : (t.named m).key = t.key := by
  rw [← key_dvi t m]
  unfold Timing.named
  simp only
  split
  · rename_i s found
    have same : s.Same (if m.hdmi then t else t.asDvi) := of_decide_eq_true (List.find?_some found :)
    exact Timing.key_renamed same.2.2.2.2.2.2.2.2.2
  · rfl

/-- The current signal has the video code of the mode of the list that it is, if it is one. -/
theorem named_cases (t : Timing) (m : Monitor) :
    (∃ s ∈ m.modes, s.key = t.key ∧ (t.named m).videoId = s.videoId) ∨ t.key ∉ m.modes.map Timing.key := by
  rcases found : m.modes.find? fun s => decide (s.Same (if m.hdmi then t else t.asDvi)) with _ | s
  · refine .inr fun mem => ?_
    obtain ⟨s, there, same⟩ := List.mem_map.mp mem
    have := List.find?_eq_none.mp found s there
    exact this (decide_eq_true (Timing.same_iff.mpr (same.trans (key_dvi t m).symm)))
  · refine .inl ⟨s, List.mem_of_find?_eq_some found, ?_, ?_⟩
    · have same : s.Same (if m.hdmi then t else t.asDvi) := of_decide_eq_true (List.find?_some found :)
      exact (Timing.same_iff.mp same).trans (key_dvi t m)
    · simp only [Timing.named, found]

/-- A mode that the list has already is not changed by the current signal, which got its names from there. -/
theorem add_named (h : WellFormed m.modes) (t : Timing) :
    (m.add (t.named m) false).2 = m ∨ (t.named m).Supported ∧ (t.named m).key ∉ m.modes.map Timing.key ∧
      m.modes.length ≠ maxModes ∧ (m.add (t.named m) false).2 = { m with modes := m.modes ++ [t.named m] } := by
  unfold Monitor.add
  split
  · rename_i supported
    split
    · rename_i new
      split
      · exact .inl rfl
      · exact .inr ⟨supported, not_mem_keys new, ‹_›, rfl⟩
    · rename_i i found
      refine .inl ?_
      obtain ⟨inside, same, -⟩ := List.findIdx?_eq_some_iff_getElem.mp found
      have same : m.modes[i].key = t.key := (Timing.same_iff.mp (of_decide_eq_true same)).symm.trans (key_named t m)
      have mem : m.modes[i] ∈ m.modes := List.getElem_mem inside
      have unchanged : (t.named m).merged m.modes[i] = m.modes[i] := by
        rcases named_cases t m with ⟨s, there, key, videoId⟩ | new
        · have found : s = m.modes[i] := List.inj_on_of_nodup_map (apart_iff.mp h.apart) there mem (key.trans same.symm)
          rw [Timing.merged, if_neg]
          rw [videoId, found]
          exact fun both => both.1 both.2
        · exact absurd (List.mem_map.mpr ⟨_, mem, same⟩) new
      have kept : m.modes.modify i (t.named m).merged = m.modes := by
        rw [List.modify_eq_set_getElem?, List.getElem?_eq_getElem inside]
        change (m.modes.set i ((t.named m).merged m.modes[i])) = m.modes
        rw [unchanged, List.set_getElem_self]
      simp only [Monitor.prefer, Bool.false_eq_true, false_and, if_false, kept]
  · exact .inl rfl

end Current

/-! ### What is shown -/

section Shown

variable {p : Panel} {m : Monitor}

theorem filtered_eq (p : Panel) (m : Monitor) :
    p.filtered m = { m with
      modes := m.modes.filter p.shows
      preferred :=
        if (m.modes[m.preferred]?.any p.shows) = true then ((m.modes.take m.preferred).filter p.shows).length else maxModes } := by
  rw [Panel.filtered, survivors_eq 0 m.modes [] maxModes m.preferred (Nat.zero_add _).symm]
  simp only [List.nil_append, List.length_nil, Nat.zero_add]

/-- The list is well formed, and the preferred mode is the one that was preferred among all, or the first one if the
output cannot show that. -/
structure Follows (p : Panel) (parsed shown : Monitor) : Prop where
  modes : WellFormed shown.modes
  preferred : shown.modes ≠ [] → shown.preferred < shown.modes.length
  same : ∀ t, parsed.modes[parsed.preferred]? = some t → p.shows t = true → shown.modes[shown.preferred]? = some t
  first : (∀ t, parsed.modes[parsed.preferred]? = some t → p.shows t = false) → shown.preferred = 0

theorem completed_follows (h : WellFormed m.modes) (t : Timing) :
    Follows p m (Panel.completed (t.named (p.filtered m)) (p.filtered m)) := by
  have filtered := filtered_eq p m
  have modes : (p.filtered m).modes = m.modes.filter p.shows := congrArg Monitor.modes filtered
  have preferred := congrArg Monitor.preferred filtered
  have kept : WellFormed (p.filtered m).modes := modes ▸ h.filter p.shows
  generalize p.filtered m = f at *
  -- the current signal leaves the list as it is, or is put at its end
  have added : ∃ l, (f.add (t.named f) false).2 = { f with modes := f.modes ++ l } ∧ WellFormed (f.modes ++ l) := by
    rcases add_named kept t with same | ⟨supported, fresh, room, appended⟩
    · exact ⟨[], by rw [same, List.append_nil], by rwa [List.append_nil]⟩
    · exact ⟨[t.named f], appended, kept.append supported fresh room⟩
  obtain ⟨l, added, formed⟩ := added
  have shown : Panel.completed (t.named f) f =
      { f with modes := f.modes ++ l, preferred := if (f.modes ++ l).length ≤ f.preferred then 0 else f.preferred } := by
    simp only [Panel.completed, added]
    split <;> rfl
  rw [shown]
  refine ⟨formed, fun some_ => ?_, fun s there passes => ?_, fun none => ?_⟩
  · have pos := List.length_pos_iff.mpr some_
    simp only at pos ⊢
    split <;> omega
  · have place : f.modes[f.preferred]? = some s := by
      rw [modes, preferred, there, Option.any_some, if_pos passes]
      exact getElem?_filter there passes
    have inside := (List.getElem?_eq_some_iff.mp place).1
    simp only
    rw [List.length_append, if_neg (by omega), List.getElem?_append_left inside]
    exact place
  · have last : f.preferred = maxModes := by
      rw [preferred, if_neg]
      rcases there : m.modes[m.preferred]? with _ | s
      · simp only [Option.any_none, Bool.false_eq_true, not_false_iff]
      · rw [Option.any_some, none s there]
        exact Bool.false_ne_true
    simp only [last]
    exact if_pos formed.few

/-- What a refresh makes of a descriptor, whatever the mailbox says. -/
def Refreshed (p : Panel) (ask : ℕ → EdidResult) (requireEdid : Bool) : Prop :=
  ∃ ok parsed, parse.run (Monitor.fetch p.port ask) = (.ok ok, parsed) ∧
    ((p.refreshMonitor ask requireEdid).1 = .success →
      (p.refreshMonitor ask requireEdid).2.monitor.modes ≠ [] ∧ Follows p parsed (p.refreshMonitor ask requireEdid).2.monitor)

theorem refreshMonitor_refreshed (p : Panel) (ask : ℕ → EdidResult) (requireEdid : Bool) : Refreshed p ask requireEdid := by
  obtain ⟨ok, parsed, run, -, -, result⟩ := parse_total (Monitor.fetch p.port ask)
  refine ⟨ok, parsed, run, ?_⟩
  have formed : WellFormed parsed.modes := by
    cases ok with
    | true => exact result.modes
    | false =>
      rw [result.1]
      exact ⟨fun t no => absurd no List.not_mem_nil, List.Pairwise.nil, Nat.zero_le _⟩
  have follows := completed_follows (p := p) formed p.originalTiming
  unfold Panel.refreshMonitor
  split
  · exact fun no => nomatch no
  · simp only
    split
    · exact fun no => nomatch no
    · rw [run]
      split
      · exact fun no => nomatch no
      · rename_i some_
        exact fun _ => ⟨some_, follows⟩

/-- The parser is safe, a timing is what its bytes say, and the preferred mode follows the list. -/
theorem edid_safe (m : Monitor) (b : ℕ → BitVec 8) (p : Panel) (ask : ℕ → EdidResult) (requireEdid : Bool) :
    (∃ ok m', parse.run m = (.ok ok, m') ∧ m'.edid = m.edid ∧ if ok then m'.Listed else m'.modes = []) ∧
      (word b ≠ 0 ∧ b 17 &&& 0xf9 = 0x18 → Exact b (detailed b)) ∧
      ((detailed b).Supported →
        (detailed b).vRefresh.toNat = refreshOf (detailed b).clock.toNat (detailed b).hTotal.toNat (detailed b).vTotal.toNat) ∧
      Refreshed p ask requireEdid := by
  refine ⟨?_, detailed_exact, detailed_refresh, refreshMonitor_refreshed p ask requireEdid⟩
  obtain ⟨ok, m', run, edid, -, result⟩ := parse_total m
  refine ⟨ok, m', run, edid, ?_⟩
  cases ok with
  | true => exact result
  | false => exact result.1

end Shown

/-! ### Descriptors of monitors -/

/-- A monitor before its descriptor is parsed. -/
def Monitor.of (l : List (BitVec 8)) : Monitor := { Monitor.zero with edid := fun i => l.getD i 0, bytes := l.length }

/-- The first descriptor names a standard timing, the second one is full HD, and the third one is much too small. -/
def standardFirst : List (BitVec 8) :=
  [0, 255, 255, 255, 255, 255, 255, 0, 0, 0, 0, 0, 0, 0, 0, 0, 0, 0, 1, 3, 0, 0, 0, 0, 0, 0, 0, 0, 0, 0, 0, 0, 0, 0, 0,
    0, 0, 0, 0, 0, 0, 0, 0, 0, 0, 0, 0, 0, 0, 0, 0, 0, 0, 0, 0, 0, 0, 250, 0, 49, 64, 1, 1, 1, 1, 1, 1, 1, 1, 1, 1, 10, 2,
    58, 128, 24, 113, 56, 45, 64, 88, 44, 69, 0, 0, 0, 0, 0, 0, 30, 255, 255, 0, 1, 0, 0, 1, 0, 0, 0, 0, 0, 0, 0, 0, 0, 0,
    24, 0, 0, 0, 0, 0, 0, 0, 0, 0, 0, 0, 0, 0, 0, 0, 0, 0, 0, 0, 154]

def Monitor.parses (m : Monitor) : Bool :=
  match parse.run m with
  | (.ok ok, _) => ok
  | (.error _, _) => false

theorem Monitor.run_of_parses {m : Monitor} (h : m.parses = true) : parse.run m = (.ok true, (parse.run m).2) := by
  unfold Monitor.parses at h
  split at h
  · rename_i ok m' run
    rw [run, h]
  · exact absurd h Bool.false_ne_true

/-- The preferred mode is the standard timing, not the first detailed timing of the base block that can be shown. The rate of
the third descriptor is cut off. -/
theorem standard_preferred : ∃ m, parse.run (Monitor.of standardFirst) = (.ok true, m) ∧
    (detailed fun k => standardFirst.getD (72 + k) 0).Supported ∧
    (m.modes[m.preferred]?.any fun t => decide (t.Same (detailed fun k => standardFirst.getD (72 + k) 0))) = false ∧
    (detailed fun k => standardFirst.getD (90 + k) 0).vRefresh.toNat ≠ refreshOf 655350 1 1 :=
  ⟨_, Monitor.run_of_parses (by decide +kernel), by decide +kernel, by decide +kernel, by decide +kernel⟩

/-! ### Signals -/

/-- A signal as the operating system describes it. -/
structure SignalInfo where
  videoStandard : BitVec 32
  activeX : BitVec 32
  activeY : BitVec 32
  totalX : BitVec 32
  totalY : BitVec 32
  pixelRate : BitVec 64
  hSyncNumerator : BitVec 32
  hSyncDenominator : BitVec 32
  vSyncNumerator : BitVec 32
  vSyncDenominator : BitVec 32
  scanLineOrdering : BitVec 32

/-- Progressive. -/
def timingSignal (t : Timing) : SignalInfo where
  videoStandard := 255
  activeX := wide t.hDisplay
  activeY := wide t.vDisplay
  totalX := wide t.hTotal
  totalY := wide t.vTotal
  pixelRate := t.clock.setWidth 64 * 1000
  hSyncNumerator := t.clock * 1000
  hSyncDenominator := wide t.hTotal
  vSyncNumerator := t.clock * 1000
  vSyncDenominator := wide t.hTotal * wide t.vTotal
  scanLineOrdering := 1

namespace Monitor

def modeSignal (m : Monitor) (index : ℕ) : Option SignalInfo := m.modes[index]?.map timingSignal

def findMode (m : Monitor) (signal : SignalInfo) : Option ℕ :=
  m.modes.findIdx? fun t => decide (signal.activeX = wide t.hDisplay ∧ signal.activeY = wide t.vDisplay ∧
    signal.totalX = wide t.hTotal ∧ signal.totalY = wide t.vTotal ∧ signal.pixelRate = t.clock.setWidth 64 * 1000 ∧
    signal.scanLineOrdering = 1)

/-- A monitor as the parser leaves it, or as the output has it. -/
def Produced (m : Monitor) : Prop :=
  (∃ m', parse.run m' = (.ok true, m)) ∨
    ∃ (p : Panel) (ask : ℕ → EdidResult) (requireEdid : Bool),
      (p.refreshMonitor ask requireEdid).1 = .success ∧ (p.refreshMonitor ask requireEdid).2.monitor = m

theorem Produced.wellFormed {m : Monitor} (h : m.Produced) : WellFormed m.modes := by
  rcases h with ⟨m', run⟩ | ⟨p, ask, requireEdid, success, rfl⟩
  · obtain ⟨ok, m'', total, -, -, result⟩ := parse_total m'
    obtain ⟨same, rfl⟩ := Prod.mk.inj (run.symm.trans total)
    obtain rfl := Except.ok.inj same
    exact result.modes
  · obtain ⟨ok, parsed, -, follows⟩ := refreshMonitor_refreshed p ask requireEdid
    exact (follows success).2.modes

end Monitor

/-- The signals of two timings are the same. -/
def Timing.SameSignal (s t : Timing) : Prop :=
  s.hDisplay = t.hDisplay ∧ s.vDisplay = t.vDisplay ∧ s.hTotal = t.hTotal ∧ s.vTotal = t.vTotal ∧ s.clock = t.clock

section Signals

variable {m : Monitor} {s t : Timing} {i : ℕ}

theorem wide_inj {a b : BitVec 16} : wide a = wide b ↔ a = b := by
  refine ⟨fun h => BitVec.eq_of_toNat_eq ?_, congrArg _⟩
  have := congrArg BitVec.toNat h
  rwa [BitVec.toNat_setWidth_of_le (by decide), BitVec.toNat_setWidth_of_le (by decide)] at this

theorem rate_inj {a b : BitVec 32} : a.setWidth 64 * 1000 = b.setWidth 64 * 1000 ↔ a = b := by
  have rate (c : BitVec 32) : (c.setWidth 64 * 1000).toNat = c.toNat * 1000 := by
    have := c.isLt
    rw [BitVec.toNat_mul, BitVec.toNat_setWidth_of_le (by decide), show (1000 : BitVec 64).toNat = 1000 from rfl]
    omega
  constructor
  · intro h
    have := congrArg BitVec.toNat h
    rw [rate, rate] at this
    exact BitVec.eq_of_toNat_eq (by omega)
  · intro h
    rw [h]

theorem findMode_eq (m : Monitor) (t : Timing) :
    m.findMode (timingSignal t) = m.modes.findIdx? fun s => decide (t.hDisplay = s.hDisplay ∧ t.vDisplay = s.vDisplay ∧
      t.hTotal = s.hTotal ∧ t.vTotal = s.vTotal ∧ t.clock = s.clock) := by
  simp only [Monitor.findMode, timingSignal, wide_inj, rate_inj, and_true]

/-- The first mode with the signal of a mode is found. That is the mode itself up to its names exactly where no mode before it
has its signal. -/
theorem findMode_modeSignal (produced : m.Produced) (there : m.modes[i]? = some t) :
    ∃ j s, (m.modeSignal i).bind m.findMode = some j ∧ m.modes[j]? = some s ∧ j ≤ i ∧ s.SameSignal t ∧
      (∀ k < j, ∀ r, m.modes[k]? = some r → ¬r.SameSignal t) ∧
      (s.Same t ↔ ∀ k < i, ∀ r, m.modes[k]? = some r → ¬r.SameSignal t) := by
  have formed := produced.wellFormed
  have signal : (m.modeSignal i).bind m.findMode = m.findMode (timingSignal t) := by
    rw [Monitor.modeSignal, there]
    rfl
  rw [signal, findMode_eq]
  obtain ⟨inside, place⟩ := List.getElem?_eq_some_iff.mp there
  rcases found : m.modes.findIdx? _ with _ | j
  · have := List.findIdx?_eq_none_iff.mp found t (place ▸ List.getElem_mem inside)
    exact absurd (of_decide_eq_false this) (by simp only [and_self, not_true, not_false_iff])
  obtain ⟨lt, here, before⟩ := List.findIdx?_eq_some_iff_getElem.mp found
  have before (k : ℕ) (hk : k < j) (r : Timing) (hr : m.modes[k]? = some r) : ¬r.SameSignal t := by
    obtain ⟨lk, rfl⟩ := List.getElem?_eq_some_iff.mp hr
    intro ⟨h0, h1, h2, h3, h4⟩
    exact before k hk (decide_eq_true ⟨h0.symm, h1.symm, h2.symm, h3.symm, h4.symm⟩)
  have same : m.modes[j].SameSignal t := by
    obtain ⟨h0, h1, h2, h3, h4⟩ := of_decide_eq_true here
    exact ⟨h0.symm, h1.symm, h2.symm, h3.symm, h4.symm⟩
  have le : j ≤ i := by
    by_contra lt
    exact before i (Nat.lt_of_not_le lt) t there ⟨rfl, rfl, rfl, rfl, rfl⟩
  refine ⟨j, m.modes[j], rfl, List.getElem?_eq_getElem lt, le, same, before, fun alike => ?_, fun alone => ?_⟩
  · rcases Nat.eq_or_lt_of_le le with rfl | earlier
    · exact before
    · have := List.pairwise_iff_getElem.mp formed.apart j i lt inside earlier
      rw [place] at this
      exact absurd alike this
  · have : j = i := by
      by_contra other
      exact alone j (by omega) _ (List.getElem?_eq_getElem lt) same
    subst this
    rw [place]
    exact Timing.same_iff.mpr rfl

/-- Full HD twice. The sync of the second one begins two pixels later. -/
def twoSyncs : List (BitVec 8) :=
  [0, 255, 255, 255, 255, 255, 255, 0, 0, 0, 0, 0, 0, 0, 0, 0, 0, 0, 1, 3, 0, 0, 0, 0, 0, 0, 0, 0, 0, 0, 0, 0, 0, 0, 0,
    0, 0, 0, 0, 0, 0, 0, 0, 0, 0, 0, 0, 0, 0, 0, 0, 0, 0, 0, 2, 58, 128, 24, 113, 56, 45, 64, 88, 44, 69, 0, 0, 0, 0, 0,
    0, 30, 2, 58, 128, 24, 113, 56, 45, 64, 90, 44, 69, 0, 0, 0, 0, 0, 0, 30, 0, 0, 0, 0, 0, 0, 0, 0, 0, 0, 0, 0, 0, 0, 0,
    0, 0, 0, 0, 0, 0, 0, 0, 0, 0, 0, 0, 0, 0, 0, 0, 0, 0, 0, 0, 0, 0, 94]

def twoModes : Monitor := (parse.run (Monitor.of twoSyncs)).2

theorem twoModes_produced : twoModes.Produced := .inl ⟨_, Monitor.run_of_parses (by decide +kernel)⟩

/-- The mode that is found for the second mode is the first one, and that is another one for the list. -/
theorem second_not_found : twoModes.Produced ∧ (twoModes.modeSignal 1).bind twoModes.findMode = some 0 ∧
    twoModes.modes.length = 2 ∧
    (twoModes.modes[0]?.any fun s => twoModes.modes[1]?.any fun t => decide (s.Same t)) = false :=
  ⟨twoModes_produced, by decide +kernel, by decide +kernel, by decide +kernel⟩

theorem twoModes_found : ∃ t, twoModes.modes[1]? = some t ∧
    ∃ j s, (twoModes.modeSignal 1).bind twoModes.findMode = some j ∧ twoModes.modes[j]? = some s ∧ j ≤ 1 ∧ s.SameSignal t ∧
      (∀ k < j, ∀ r, twoModes.modes[k]? = some r → ¬r.SameSignal t) ∧
      (s.Same t ↔ ∀ k < 1, ∀ r, twoModes.modes[k]? = some r → ¬r.SameSignal t) := by
  have there := List.getElem?_eq_getElem (l := twoModes.modes) (i := 1) (by decide +kernel)
  exact ⟨_, there, findMode_modeSignal twoModes_produced there⟩

end Signals

end Pi5Drivers.Display
