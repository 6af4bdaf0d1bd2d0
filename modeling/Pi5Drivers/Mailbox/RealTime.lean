import Mathlib.Data.BitVec
import Mathlib.Tactic.IntervalCases
import Mathlib.Tactic.Ring
import Pi5Drivers.Lib.Calendar
import Pi5Drivers.Lib.Packing

/-! The real-time clock counts the seconds since the first day of 1970, and its clients give and take a time of the
firmware's interface, which is a date, a time of the day and a time zone. A time that has a count is turned into it
exactly, and a count is turned into a time that has it. -/

namespace Pi5Drivers.Mailbox

open Calendar

/-! ### The conversions -/

/-- The bytes of a time: the year, the month, the day, the hour, the minute, the second, one that is not used, the
nanosecond (2), the zone, and what is known about daylight. -/
abbrev Time := Fin 16 → BitVec 8

def leap (year : ℕ) : Bool := year % 4 = 0 ∧ (year % 100 ≠ 0 ∨ year % 400 = 0)

def monthDays (year month : ℕ) : ℕ :=
  [31, 28, 31, 30, 31, 30, 31, 31, 30, 31, 30, 31].getD (month - 1) 0 + (month = 2 && leap year).toNat

def word (low high : BitVec 8) : BitVec 16 := low.setWidth 16 ||| high.setWidth 16 <<< 8

def timeToEpoch (time : Time) : Option (BitVec 32) :=
  let year := (word (time 0) (time 1)).toNat
  let month := (time 2).toNat
  let day := (time 3).toNat
  let zone := (word (time 10) (time 11)).toInt
  if year < 1900 ∨ 9999 < year ∨ month < 1 ∨ 12 < month ∨ day < 1 ∨ monthDays year month < day ∨ 23 < time 4 ∨
      59 < time 5 ∨ 59 < time 6 ∨ 1000 < word (time 8) (time 9) ∨ zone ≠ 2047 ∧ (zone < -1440 ∨ 1440 < zone) ∨
      time 12 &&& ~~~3 ≠ 0 ∨ time 13 ≠ 0 ∨ time 14 ≠ 0 ∨ time 15 ≠ 0 then none
  else
    let days : ℤ :=
      if 1970 ≤ year then (List.range' 1970 (year - 1970)).foldl (fun (days : ℤ) y => days + (365 + (leap y).toNat)) 0
      else (List.range' year (1970 - year)).foldl (fun (days : ℤ) y => days - (365 + (leap y).toNat)) 0
    let days := (List.range' 1 (month - 1)).foldl (fun (days : ℤ) m => days + monthDays year m) days
    let days := days + (day - 1)
    let seconds := days * 86400 + (time 4).toNat * 3600 + (time 5).toNat * 60 + (time 6).toNat
    let seconds := if zone ≠ 2047 then seconds - zone * 60 else seconds
    if seconds < 0 ∨ 2 ^ 32 - 1 < seconds then none else some (BitVec.ofInt 32 seconds)

/-- Whole years are taken off the days. -/
def takeYears : ℕ → ℕ → ℕ → ℕ × ℕ
  | 0, days, year => (days, year)
  | rounds + 1, days, year =>
    let n := 365 + (leap year).toNat
    if n ≤ days then takeYears rounds (days - n) (year + 1) else (days, year)

/-- Whole months are taken off the days of a year. -/
def takeMonths (year : ℕ) : ℕ → ℕ → ℕ → ℕ × ℕ
  | 0, days, month => (days, month)
  | rounds + 1, days, month =>
    let n := monthDays year month
    if n ≤ days then takeMonths year rounds (days - n) (month + 1) else (days, month)

def epochToTime (epoch : BitVec 32) : Time :=
  let days := epoch.toNat / 86400
  let seconds := epoch.toNat % 86400
  let (days, year) := takeYears days days 1970
  let (days, month) := takeMonths year 12 days 1
  fun i =>
    [BitVec.ofNat 8 year, BitVec.ofNat 8 (year / 256), BitVec.ofNat 8 month, BitVec.ofNat 8 (days + 1),
      BitVec.ofNat 8 (seconds / 3600), BitVec.ofNat 8 (seconds / 60 % 60), BitVec.ofNat 8 (seconds % 60), 1].getD i.val 0

/-! ### What a time means -/

def dateOf (time : Time) : Date := ⟨(word (time 0) (time 1)).toNat, (time 2).toNat, (time 3).toNat⟩

/-- How many minutes the time is ahead of universal time. A time without a zone is universal time. -/
def offset (time : Time) : ℤ :=
  if (word (time 10) (time 11)).toInt = 2047 then 0 else (word (time 10) (time 11)).toInt

/-- The seconds of universal time since the first day of 1970. -/
def utcSeconds (time : Time) : ℤ :=
  ((dateOf time).number - (Date.mk 1970 1 1).number : ℤ) * 86400 + (time 4).toNat * 3600 + (time 5).toNat * 60 + (time 6).toNat -
    offset time * 60

/-- The fields of a time are in their ranges. -/
structure Readable (time : Time) : Prop where
  date : (dateOf time).Valid
  year : 1900 ≤ (dateOf time).year ∧ (dateOf time).year ≤ 9999
  clock : time 4 ≤ 23 ∧ time 5 ≤ 59 ∧ time 6 ≤ 59
  nanosecond : word (time 8) (time 9) ≤ 1000
  zone : -1440 ≤ offset time ∧ offset time ≤ 1440
  rest : time 12 &&& ~~~3 = 0 ∧ time 13 = 0 ∧ time 14 = 0 ∧ time 15 = 0

/-! ### The loops -/

section Loops

variable {month : ℕ}

theorem leap_iff (year : ℕ) : leap year = true ↔ IsLeap year := by
  unfold leap IsLeap
  rw [decide_eq_true_iff]
  omega

theorem leap_toNat (year : ℕ) : 365 + (leap year).toNat = yearLength year := by
  unfold yearLength
  by_cases here : IsLeap year
  · rw [(leap_iff year).mpr here, if_pos here]
    rfl
  · rw [Bool.eq_false_iff.mpr fun no => here ((leap_iff year).mp no), if_neg here]
    rfl

theorem monthDays_eq (year : ℕ) (h : 1 ≤ month ∧ month ≤ 12) : monthDays year month = monthLength year month := by
  obtain ⟨first, last⟩ := h
  unfold monthDays monthLength
  by_cases here : IsLeap year
  · rw [(leap_iff year).mpr here]
    interval_cases month <;> simp [here]
  · rw [Bool.eq_false_iff.mpr fun no => here ((leap_iff year).mp no)]
    interval_cases month <;> simp [here]

theorem sum_years (first n : ℕ) (start : ℤ) :
    (List.range' first n).foldl (fun (days : ℤ) y => days + (365 + (leap y).toNat)) start =
      start + (yearStart (first + n) - yearStart first) := by
  induction n with
  | zero => simp
  | succ n ih =>
    have length : (365 + (leap (first + n)).toNat : ℤ) = yearLength (first + n) := by exact_mod_cast leap_toNat (first + n)
    rw [List.range'_1_concat, List.foldl_append, List.foldl_cons, List.foldl_nil, ih, length, ← Nat.add_assoc, yearStart_succ]
    push_cast
    ring

theorem sum_years_back (first n : ℕ) (start : ℤ) :
    (List.range' first n).foldl (fun (days : ℤ) y => days - (365 + (leap y).toNat)) start =
      start - (yearStart (first + n) - yearStart first) := by
  induction n with
  | zero => simp
  | succ n ih =>
    have length : (365 + (leap (first + n)).toNat : ℤ) = yearLength (first + n) := by exact_mod_cast leap_toNat (first + n)
    rw [List.range'_1_concat, List.foldl_append, List.foldl_cons, List.foldl_nil, ih, length, ← Nat.add_assoc, yearStart_succ]
    push_cast
    ring

theorem sum_months (year n : ℕ) (few : n ≤ 12) (start : ℤ) :
    (List.range' 1 n).foldl (fun (days : ℤ) m => days + monthDays year m) start = start + monthStart year (n + 1) := by
  induction n with
  | zero => exact (Int.add_zero start).symm
  | succ n ih =>
    rw [List.range'_1_concat, List.foldl_append, List.foldl_cons, List.foldl_nil, ih (by omega), Nat.add_comm 1 n,
      monthDays_eq year ⟨Nat.succ_pos n, few⟩, monthStart_succ year (Nat.succ_pos n)]
    push_cast
    ring

/-- The rounds are enough for all years, and the days that are left are in the last one. -/
theorem takeYears_spec (rounds days year : ℕ) (enough : days ≤ rounds) :
    year ≤ (takeYears rounds days year).2 ∧ (takeYears rounds days year).1 < yearLength (takeYears rounds days year).2 ∧
      yearStart (takeYears rounds days year).2 + (takeYears rounds days year).1 = yearStart year + days := by
  induction rounds generalizing days year with
  | zero =>
    refine ⟨Nat.le_refl year, ?_, rfl⟩
    simp only [takeYears, yearLength]
    omega
  | succ rounds ih =>
    simp only [takeYears, leap_toNat]
    split
    · have long : 365 ≤ yearLength year := Nat.le_add_right _ _
      obtain ⟨later, inside, sum⟩ := ih (days - yearLength year) (year + 1) (by omega)
      rw [yearStart_succ] at sum
      exact ⟨by omega, inside, by omega⟩
    · exact ⟨Nat.le_refl year, by simp only; omega, rfl⟩

/-- The days of a year end in one of its months. -/
theorem takeMonths_spec (year rounds days month : ℕ) (first : 1 ≤ month) (enough : 12 ≤ rounds + month ∧ month ≤ 12)
    (inside : monthStart year month + days < yearLength year) :
    1 ≤ (takeMonths year rounds days month).2 ∧ (takeMonths year rounds days month).2 ≤ 12 ∧
      (takeMonths year rounds days month).1 < monthLength year (takeMonths year rounds days month).2 ∧
      monthStart year (takeMonths year rounds days month).2 + (takeMonths year rounds days month).1 = monthStart year month + days := by
  induction rounds generalizing days month with
  | zero =>
    obtain rfl : month = 12 := by omega
    have last := monthStart_succ year (by decide : 1 ≤ 12)
    rw [monthStart_year] at last
    exact ⟨first, Nat.le_refl _, by simp only [takeMonths]; omega, rfl⟩
  | succ rounds ih =>
    simp only [takeMonths, monthDays_eq year ⟨first, enough.2⟩]
    have next := monthStart_succ year first
    split
    · have more : month ≠ 12 := by
        rintro rfl
        rw [monthStart_year] at next
        omega
      have rest := ih (days - monthLength year month) (month + 1) (by omega) (by omega) (by omega)
      obtain ⟨one, twelve, short, sum⟩ := rest
      exact ⟨one, twelve, short, by omega⟩
    · exact ⟨first, enough.2, by simp only; omega, rfl⟩

end Loops

/-! ### Times and counts -/

section Counts

variable {time : Time} {epoch : BitVec 32}

theorem word_toNat (low high : BitVec 8) : (word low high).toNat = low.toNat + 256 * high.toNat := by
  have l := low.isLt
  have h := high.isLt
  have first : (low.setWidth 16).toNat = low.toNat := BitVec.toNat_setWidth_of_le (by decide)
  have second : (high.setWidth 16).toNat = high.toNat := BitVec.toNat_setWidth_of_le (by decide)
  rw [word, toNat_or_shiftLeft (by omega) (by omega), first, second]
  rfl

theorem readable_iff (time : Time) :
    Readable time ↔ ¬((dateOf time).year < 1900 ∨ 9999 < (dateOf time).year ∨ (dateOf time).month < 1 ∨ 12 < (dateOf time).month ∨
      (dateOf time).day < 1 ∨ monthDays (dateOf time).year (dateOf time).month < (dateOf time).day ∨ 23 < time 4 ∨ 59 < time 5 ∨
      59 < time 6 ∨ 1000 < word (time 8) (time 9) ∨
      (word (time 10) (time 11)).toInt ≠ 2047 ∧ ((word (time 10) (time 11)).toInt < -1440 ∨ 1440 < (word (time 10) (time 11)).toInt) ∨
      time 12 &&& ~~~3 ≠ 0 ∨ time 13 ≠ 0 ∨ time 14 ≠ 0 ∨ time 15 ≠ 0) := by
  have zone : (-1440 ≤ offset time ∧ offset time ≤ 1440) ↔ ¬((word (time 10) (time 11)).toInt ≠ 2047 ∧
      ((word (time 10) (time 11)).toInt < -1440 ∨ 1440 < (word (time 10) (time 11)).toInt)) := by
    unfold offset
    split
    · omega
    · omega
  simp only [not_or, not_lt, BitVec.not_lt, ne_eq, not_not]
  constructor
  · rintro ⟨⟨⟨m1, m2⟩, d1, d2⟩, ⟨y1, y2⟩, ⟨hour, minute, second⟩, nanosecond, inZone, rest⟩
    exact ⟨y1, y2, m1, m2, d1, (monthDays_eq _ ⟨m1, m2⟩).symm ▸ d2, hour, minute, second, nanosecond, zone.mp inZone, rest⟩
  · rintro ⟨y1, y2, m1, m2, d1, d2, hour, minute, second, nanosecond, inZone, rest⟩
    exact ⟨⟨⟨m1, m2⟩, d1, monthDays_eq _ ⟨m1, m2⟩ ▸ d2⟩, ⟨y1, y2⟩, ⟨hour, minute, second⟩, nanosecond, zone.mpr inZone, rest⟩

/-- The years before a year, from either side. -/
theorem years_eq (year : ℕ) :
    (if 1970 ≤ year then (List.range' 1970 (year - 1970)).foldl (fun (days : ℤ) y => days + (365 + (leap y).toNat)) 0
      else (List.range' year (1970 - year)).foldl (fun (days : ℤ) y => days - (365 + (leap y).toNat)) 0) =
      yearStart year - yearStart 1970 := by
  split
  · rw [sum_years, Nat.add_sub_cancel' (by assumption)]
    exact Int.zero_add _
  · rw [sum_years_back, Nat.add_sub_cancel' (by omega)]
    ring

/-- A count of seconds, where it is one of 32 bits. -/
theorem count_eq {seconds : ℤ} (epoch : BitVec 32) :
    (if seconds < 0 ∨ 2 ^ 32 - 1 < seconds then none else some (BitVec.ofInt 32 seconds)) = some epoch ↔ seconds = epoch.toNat := by
  have small := epoch.isLt
  split
  · refine ⟨(nomatch ·), fun same => ?_⟩
    omega
  · have value : (BitVec.ofInt 32 seconds).toNat = seconds.toNat := by
      rw [BitVec.toNat_ofInt]
      omega
    rw [Option.some_inj, BitVec.toNat_inj.symm, value]
    omega

/-- A time is turned into its count exactly where it can be read and has one. -/
theorem timeToEpoch_eq_some (time : Time) (epoch : BitVec 32) :
    timeToEpoch time = some epoch ↔ Readable time ∧ utcSeconds time = epoch.toNat := by
  by_cases readable : Readable time
  · have fields := (readable_iff time).mp readable
    have date := readable.date
    have start : (Date.mk 1970 1 1).number = yearStart 1970 := rfl
    have months := fun days => sum_months (dateOf time).year ((dateOf time).month - 1) (by have := date.month; omega) days
    have count : ((yearStart (dateOf time).year - yearStart 1970 + monthStart (dateOf time).year (dateOf time).month : ℤ) +
        ((dateOf time).day - 1)) * 86400 + (time 4).toNat * 3600 + (time 5).toNat * 60 + (time 6).toNat =
          utcSeconds time + offset time * 60 := by
      unfold utcSeconds
      rw [start, Date.number]
      push_cast [Nat.cast_sub date.day.1]
      ring
    have zone : (if (word (time 10) (time 11)).toInt ≠ 2047 then
        utcSeconds time + offset time * 60 - (word (time 10) (time 11)).toInt * 60 else utcSeconds time + offset time * 60) =
          utcSeconds time := by
      by_cases universal : (word (time 10) (time 11)).toInt = 2047
      · rw [if_neg (not_not.mpr universal), offset, if_pos universal]
        omega
      · rw [if_pos universal, offset, if_neg universal]
        omega
    rw [Nat.sub_add_cancel date.month.1] at months
    have whole : timeToEpoch time = if utcSeconds time < 0 ∨ 2 ^ 32 - 1 < utcSeconds time then none
        else some (BitVec.ofInt 32 (utcSeconds time)) := by
      rw [← zone, ← count, ← months, ← years_eq]
      exact if_neg fields
    rw [whole, count_eq, and_iff_right readable]
  · have fields := not_not.mp (mt (readable_iff time).mpr readable)
    have none : timeToEpoch time = none := if_pos fields
    rw [none]
    exact ⟨(nomatch ·), fun h => absurd h.1 readable⟩

/-- The bytes of a count. -/
theorem epochToTime_bytes (epoch : BitVec 32) :
    ∃ year month day, year < 65536 ∧ epochToTime epoch = (fun i =>
        [BitVec.ofNat 8 year, BitVec.ofNat 8 (year / 256), BitVec.ofNat 8 month, BitVec.ofNat 8 day,
          BitVec.ofNat 8 (epoch.toNat % 86400 / 3600), BitVec.ofNat 8 (epoch.toNat % 86400 / 60 % 60),
          BitVec.ofNat 8 (epoch.toNat % 86400 % 60), 1].getD i.val 0) ∧
      (Date.mk year month day).Valid ∧ (1900 ≤ year ∧ year ≤ 9999) ∧
      (Date.mk year month day).number = yearStart 1970 + epoch.toNat / 86400 := by
  have small := epoch.isLt
  have byYears := takeYears_spec (epoch.toNat / 86400) (epoch.toNat / 86400) 1970 (Nat.le_refl _)
  rcases years : takeYears (epoch.toNat / 86400) (epoch.toNat / 86400) 1970 with ⟨days, year⟩
  rw [years] at byYears
  obtain ⟨later, inside, sum⟩ := byYears
  have byMonths := takeMonths_spec year 12 days 1 (Nat.le_refl 1) (by decide) ((Nat.zero_add days).symm ▸ inside)
  rcases months : takeMonths year 12 days 1 with ⟨day, month⟩
  rw [months] at byMonths
  obtain ⟨first, last, short, sum'⟩ := byMonths
  simp only at later sum first last short sum'
  have soon : year < 2107 := by
    by_contra no
    have far := yearStart_mono (Nat.le_of_not_lt no)
    have : yearStart 2107 = yearStart 1970 + 50038 := rfl
    omega
  have january : monthStart year 1 = 0 := rfl
  refine ⟨year, month, day + 1, by omega, ?_, ⟨⟨first, last⟩, Nat.succ_pos day, short⟩, ⟨by omega, by omega⟩, ?_⟩
  · unfold epochToTime
    simp only [years, months]
  · simp only [Date.number, Nat.add_sub_cancel]
    omega

/-- The time of a count can be read and means the count. -/
theorem epochToTime_means (epoch : BitVec 32) : Readable (epochToTime epoch) ∧ utcSeconds (epochToTime epoch) = epoch.toNat := by
  obtain ⟨year, month, day, low, bytes, valid, range, number⟩ := epochToTime_bytes epoch
  have byte {n : ℕ} (h : n < 256) : (BitVec.ofNat 8 n).toNat = n := by
    rw [BitVec.toNat_ofNat]
    exact Nat.mod_eq_of_lt h
  have shortMonth := monthLength_le year month
  have twelve := valid.month.2
  have inMonth := valid.day.2
  simp only at twelve inMonth
  have date : dateOf (epochToTime epoch) = ⟨year, month, day⟩ := by
    have split : (BitVec.ofNat 8 year).toNat + 256 * (BitVec.ofNat 8 (year / 256)).toNat = year := by
      rw [BitVec.toNat_ofNat, BitVec.toNat_ofNat]
      omega
    rw [bytes, dateOf, word_toNat]
    exact congrArg₂ (fun y (p : ℕ × ℕ) => Date.mk y p.1 p.2) split (congrArg₂ Prod.mk (byte (by omega)) (byte (by omega)))
  have unset (i : Fin 16) (h : 8 ≤ i.val) : epochToTime epoch i = 0 := by
    rw [bytes]
    simp only
    rw [List.getD_eq_getElem?_getD, List.getElem?_eq_none h]
    rfl
  have utc : offset (epochToTime epoch) = 0 := by
    rw [offset, unset 10 (by decide), unset 11 (by decide)]
    decide
  have hour : (epochToTime epoch 4).toNat = epoch.toNat % 86400 / 3600 := by
    rw [bytes]
    exact byte (by omega)
  have minute : (epochToTime epoch 5).toNat = epoch.toNat % 86400 / 60 % 60 := by
    rw [bytes]
    exact byte (by omega)
  have second : (epochToTime epoch 6).toNat = epoch.toNat % 86400 % 60 := by
    rw [bytes]
    exact byte (by omega)
  have zero : word (epochToTime epoch 8) (epochToTime epoch 9) = 0 ∧
      (epochToTime epoch 12 &&& ~~~3 = 0 ∧ epochToTime epoch 13 = 0 ∧ epochToTime epoch 14 = 0 ∧ epochToTime epoch 15 = 0) := by
    rw [unset 8 (by decide), unset 9 (by decide), unset 12 (by decide), unset 13 (by decide), unset 14 (by decide),
      unset 15 (by decide)]
    decide
  refine ⟨⟨date ▸ valid, date ▸ range, ⟨?_, ?_, ?_⟩, ?_, ?_, zero.2⟩, ?_⟩
  · rw [BitVec.le_def, hour]
    change _ ≤ 23
    omega
  · rw [BitVec.le_def, minute]
    change _ ≤ 59
    omega
  · rw [BitVec.le_def, second]
    change _ ≤ 59
    omega
  · rw [zero.1]
    decide
  · rw [utc]
    decide
  · have start : (Date.mk 1970 1 1).number = yearStart 1970 := rfl
    rw [utcSeconds, date, number, start, hour, minute, second, utc]
    push_cast
    omega

/-- A count is the count of its time, and a time that has a count is the same instant as the time of it. -/
theorem timeToEpoch_exact :
    (∀ epoch, timeToEpoch (epochToTime epoch) = some epoch) ∧
      ∀ time epoch, timeToEpoch time = some epoch →
        (dateOf time).Valid ∧ (epoch.toNat : ℤ) = utcSeconds time ∧ utcSeconds (epochToTime epoch) = utcSeconds time := by
  refine ⟨fun epoch => (timeToEpoch_eq_some _ epoch).mpr (epochToTime_means epoch), fun time epoch given => ?_⟩
  obtain ⟨readable, count⟩ := (timeToEpoch_eq_some time epoch).mp given
  exact ⟨readable.date, count.symm, (epochToTime_means epoch).2.trans count.symm⟩

/-- Half an hour after midnight, in a zone in which it is an hour earlier already in the next year. -/
theorem newYear_exact :
    utcSeconds (epochToTime 1800) =
      utcSeconds (fun i => [0xb1, 7, 12, 31, 23, 30, 0, 0, 0, 0, 0xc4, 0xff, 0, 0, 0, 0].getD i.val 0) :=
  (timeToEpoch_exact.2 _ 1800 (by decide)).2.2

end Counts

end Pi5Drivers.Mailbox
