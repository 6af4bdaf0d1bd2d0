import Pi5Drivers.Lib.Common
import Mathlib.Algebra.BigOperators.Group.List.Basic
import Mathlib.Data.List.Range
import Mathlib.Tactic.SplitIfs

/-! The Gregorian calendar, continued backwards before its time. The days are numbered from the first day of the
year 0 on, so that the day after a day has the next number. -/

namespace Pi5Drivers.Calendar

def IsLeap (year : ℕ) : Prop := year % 4 = 0 ∧ year % 100 ≠ 0 ∨ year % 400 = 0

instance (year : ℕ) : Decidable (IsLeap year) := inferInstanceAs (Decidable (_ ∨ _))

def monthLength (year : ℕ) : ℕ → ℕ
  | 2 => if IsLeap year then 29 else 28
  | 4 | 6 | 9 | 11 => 30
  | _ => 31

structure Date where
  year : ℕ
  month : ℕ
  day : ℕ
deriving DecidableEq, Repr

namespace Date

structure Valid (d : Date) : Prop where
  month : 1 ≤ d.month ∧ d.month ≤ 12
  day : 1 ≤ d.day ∧ d.day ≤ monthLength d.year d.month

/-- The day after a day. -/
def next (d : Date) : Date :=
  if d.day < monthLength d.year d.month then ⟨d.year, d.month, d.day + 1⟩
  else if d.month < 12 then ⟨d.year, d.month + 1, 1⟩
  else ⟨d.year + 1, 1, 1⟩

end Date

/-! ### Numbers of days -/

/-- The days before a year. -/
def yearStart (year : ℕ) : ℕ := 365 * year + (year + 3) / 4 - (year + 99) / 100 + (year + 399) / 400

/-- The days of a year before a month. -/
def monthStart (year month : ℕ) : ℕ := ((List.range (month - 1)).map fun m => monthLength year (m + 1)).sum

def Date.number (d : Date) : ℕ := yearStart d.year + monthStart d.year d.month + (d.day - 1)

section Numbers

variable {year month : ℕ}

def yearLength (year : ℕ) : ℕ := 365 + if IsLeap year then 1 else 0

/-- A multiple of `n + 1` is passed where the next one is looked for from it on. -/
theorem next_multiple (year n : ℕ) :
    (year + 1 + n) / (n + 1) = (year + n) / (n + 1) + if year % (n + 1) = 0 then 1 else 0 := by
  have step : (year + n + 1) / (n + 1) = (year + n) / (n + 1) + if n + 1 ∣ year + n + 1 then 1 else 0 := Nat.succ_div
  have same : n + 1 ∣ year + n + 1 ↔ year % (n + 1) = 0 := by
    rw [Nat.add_assoc, ← Nat.dvd_iff_mod_eq_zero]
    exact (Nat.dvd_add_iff_left (Nat.dvd_refl (n + 1))).symm
  rw [Nat.add_right_comm, step]
  simp only [same]

theorem yearStart_succ (year : ℕ) : yearStart (year + 1) = yearStart year + yearLength year := by
  have fourth : (year + 1 + 3) / 4 = (year + 3) / 4 + if year % 4 = 0 then 1 else 0 := next_multiple year 3
  have century : (year + 1 + 99) / 100 = (year + 99) / 100 + if year % 100 = 0 then 1 else 0 := next_multiple year 99
  have cycle : (year + 1 + 399) / 400 = (year + 399) / 400 + if year % 400 = 0 then 1 else 0 := next_multiple year 399
  have fewer : (year + 99) / 100 ≤ (year + 3) / 4 := by omega
  unfold yearStart yearLength
  rw [fourth, century, cycle]
  by_cases leap : IsLeap year
  · rw [if_pos leap]
    unfold IsLeap at leap
    split_ifs <;> omega
  · rw [if_neg leap]
    unfold IsLeap at leap
    split_ifs <;> omega

theorem yearStart_mono {first last : ℕ} (h : first ≤ last) : yearStart first ≤ yearStart last := by
  induction h with
  | refl => exact Nat.le_refl _
  | step _ ih =>
    rw [yearStart_succ]
    omega

theorem monthStart_succ (year : ℕ) (h : 1 ≤ month) : monthStart year (month + 1) = monthStart year month + monthLength year month := by
  obtain ⟨n, rfl⟩ : ∃ n, month = n + 1 := ⟨month - 1, by omega⟩
  unfold monthStart
  rw [Nat.add_sub_cancel, Nat.add_sub_cancel, List.range_succ, List.map_append, List.sum_append]
  rfl

/-- The months fill the year. -/
theorem monthStart_year (year : ℕ) : monthStart year 13 = yearLength year := by
  unfold monthStart yearLength
  by_cases leap : IsLeap year
  · simp [List.range_succ, monthLength, leap]
  · simp [List.range_succ, monthLength, leap]

theorem monthLength_pos (year month : ℕ) : 28 ≤ monthLength year month := by
  unfold monthLength
  split
  · split <;> decide
  all_goals decide

theorem monthLength_le (year month : ℕ) : monthLength year month ≤ 31 := by
  unfold monthLength
  split
  · split <;> decide
  all_goals decide

/-- The numbers count the days. -/
theorem number_next {d : Date} (valid : d.Valid) : d.next.number = d.number + 1 := by
  obtain ⟨year, month, day⟩ := d
  obtain ⟨⟨first, last⟩, pos, inside⟩ := valid
  simp only at first last pos inside
  unfold Date.next Date.number
  simp only
  split
  · simp only
    omega
  · split
    · simp only
      rw [monthStart_succ year first]
      omega
    · obtain rfl : month = 12 := by omega
      have start : monthStart (year + 1) 1 = 0 := rfl
      have whole := monthStart_succ year first
      rw [monthStart_year] at whole
      simp only
      rw [yearStart_succ, start]
      omega

theorem next_valid {d : Date} (valid : d.Valid) : d.next.Valid := by
  unfold Date.next
  split
  · exact ⟨valid.month, Nat.succ_pos _, by assumption⟩
  · split
    · exact ⟨⟨Nat.succ_pos _, by assumption⟩, Nat.le_refl 1, Nat.le_trans (Nat.le_of_ble_eq_true rfl) (monthLength_pos _ _)⟩
    · exact ⟨⟨Nat.le_refl 1, Nat.le_of_ble_eq_true rfl⟩, Nat.le_refl 1, Nat.le_trans (Nat.le_of_ble_eq_true rfl) (monthLength_pos _ _)⟩

end Numbers

end Pi5Drivers.Calendar
