import Mathlib.Tactic.IntervalCases
import Mathlib.Tactic.Ring
import WebClient.Calendar

/-!
# Weekdays

The weekday of a date is what is reached when days are counted, forwards or backwards, from
a Thursday, 1970-01-01. It is the one that a date's number of days gives.
-/

set_option autoImplicit false

namespace WebClient.Date

def next (date : Date) : Date :=
  if date.day < daysInMonth date.year date.month then { date with day := date.day + 1 }
  else if date.month < 12 then ⟨date.year, date.month + 1, 1⟩
  else ⟨date.year + 1, 1, 1⟩

/-- The date falls on a day of the week, Sunday being zero. -/
inductive FallsOn : Date → Nat → Prop
  | epoch : FallsOn ⟨1970, 1, 1⟩ 4
  | next {date : Date} {day : Nat} (valid : date.IsValid) (falls : FallsOn date day) :
      FallsOn date.next ((day + 1) % 7)
  | previous {date : Date} {day : Nat} (valid : date.IsValid) (within : day < 7)
      (falls : FallsOn date.next ((day + 1) % 7)) : FallsOn date day

variable {year : Int} {month day : Nat}

theorem isValid_mk_iff : IsValid ⟨year, month, day⟩ ↔
    (-262143 ≤ year ∧ year ≤ 262142) ∧ 1 ≤ month ∧ month ≤ 12 ∧ 1 ≤ day ∧
      day ≤ daysInMonth year month := by
  simp only [IsValid, inRange, Bool.and_eq_true, decide_eq_true_eq]

theorem next_mk (year : Int) (month day : Nat) : next ⟨year, month, day⟩ =
    if day < daysInMonth year month then ⟨year, month, day + 1⟩
    else if month < 12 then ⟨year, month + 1, 1⟩
    else ⟨year + 1, 1, 1⟩ :=
  rfl

/-! ## Counting days -/

def daysBefore (year : Int) : Int :=
  year / 400 * 146097 + year % 400 * 365 + year % 400 / 4 - year % 400 / 100 - 719469

private theorem daysBefore_eq (year : Int) :
    daysBefore year = daysBefore (year - 1) + (if isLeapYear year then 366 else 365) := by
  simp only [daysBefore, isLeapYear, Bool.and_eq_true, Bool.or_eq_true, decide_eq_true_eq]
  split <;> omega

theorem toDays_of_early (early : month ≤ 2) :
    toDays ⟨year, month, day⟩ = daysBefore (year - 1) + (153 * (month + 9) + 2) / 5 + day := by
  simp only [toDays, daysBefore, if_pos early]
  ring

theorem toDays_of_late (late : 2 < month) :
    toDays ⟨year, month, day⟩ = daysBefore year + (153 * (month - 3) + 2) / 5 + day := by
  simp only [toDays, daysBefore, if_neg (Nat.not_le_of_lt late)]
  ring

/-- A month begins where the one before it ends. -/
theorem toDays_month_succ (year : Int) (first : 1 ≤ month) (last : month ≤ 11) :
    toDays ⟨year, month + 1, 1⟩ = toDays ⟨year, month, daysInMonth year month⟩ + 1 := by
  obtain rfl | rfl | later : month = 1 ∨ month = 2 ∨ 3 ≤ month := by omega
  · rw [toDays_of_early (by decide), toDays_of_early (by decide)]
    simp only [daysInMonth]
    norm_num
    ring
  · rw [toDays_of_late (by decide), toDays_of_early (by decide), daysBefore_eq]
    simp only [daysInMonth]
    split <;> norm_num <;> ring
  · rw [toDays_of_late (by omega), toDays_of_late (by omega)]
    unfold daysInMonth
    interval_cases month <;> norm_num <;> ring

private theorem toDays_year_succ (year : Int) :
    toDays ⟨year + 1, 1, 1⟩ = toDays ⟨year, 12, 31⟩ + 1 := by
  rw [toDays_of_early (by decide), toDays_of_late (by decide)]
  norm_num
  ring

theorem toDays_next {date : Date} (valid : date.IsValid) : date.next.toDays = date.toDays + 1 := by
  obtain ⟨year, month, day⟩ := date
  obtain ⟨-, first, last, -, ended⟩ := isValid_mk_iff.1 valid
  rw [next_mk]
  split
  · by_cases early : month ≤ 2
    · rw [toDays_of_early early, toDays_of_early early, Int.natCast_succ]
      ring
    · have late : 2 < month := Nat.lt_of_not_le early
      rw [toDays_of_late late, toDays_of_late late, Int.natCast_succ]
      ring
  · rename_i full
    obtain rfl : day = daysInMonth year month := Nat.le_antisymm ended (Nat.le_of_not_lt full)
    split
    · rename_i within
      exact toDays_month_succ year first (Nat.le_of_lt_succ within)
    · rename_i beyond
      obtain rfl : month = 12 := Nat.le_antisymm last (Nat.le_of_not_lt beyond)
      exact toDays_year_succ year

/-! ## Dates before and after the epoch -/

theorem daysInMonth_le (year : Int) (month : Nat) : daysInMonth year month ≤ 31 := by
  unfold daysInMonth
  split
  · split <;> decide
  · split <;> decide

theorem one_le_daysInMonth (year : Int) (month : Nat) : 1 ≤ daysInMonth year month := by
  unfold daysInMonth
  split
  · split <;> decide
  · split <;> decide

theorem le_year_of_toDays (valid : IsValid ⟨year, month, day⟩)
    (since : 0 ≤ toDays ⟨year, month, day⟩) : 1970 ≤ year := by
  obtain ⟨-, first, last, begun, ended⟩ := isValid_mk_iff.1 valid
  have short := daysInMonth_le year month
  by_cases early : month ≤ 2
  · rw [toDays_of_early early, daysBefore] at since
    omega
  · rw [toDays_of_late (Nat.lt_of_not_le early), daysBefore] at since
    omega

theorem year_le_of_toDays (valid : IsValid ⟨year, month, day⟩)
    (before : toDays ⟨year, month, day⟩ ≤ 0) : year ≤ 1970 := by
  obtain ⟨-, first, last, begun, ended⟩ := isValid_mk_iff.1 valid
  by_cases early : month ≤ 2
  · rw [toDays_of_early early, daysBefore] at before
    omega
  · rw [toDays_of_late (Nat.lt_of_not_le early), daysBefore] at before
    omega

private theorem eq_epoch_of_toDays {date : Date} (valid : date.IsValid) (epoch : date.toDays = 0) :
    date = ⟨1970, 1, 1⟩ := by
  obtain ⟨year, month, day⟩ := date
  obtain rfl : year = 1970 :=
    Int.le_antisymm (year_le_of_toDays valid epoch.le) (le_year_of_toDays valid epoch.ge)
  obtain ⟨-, first, last, begun, ended⟩ := isValid_mk_iff.1 valid
  by_cases early : month ≤ 2
  · rw [toDays_of_early early, daysBefore] at epoch
    obtain ⟨rfl, rfl⟩ : month = 1 ∧ day = 1 := by omega
    rfl
  · rw [toDays_of_late (Nat.lt_of_not_le early), daysBefore] at epoch
    omega

private theorem isValid_next {date : Date} (valid : date.IsValid) (before : date.toDays < 0) :
    date.next.IsValid := by
  obtain ⟨year, month, day⟩ := date
  have early := year_le_of_toDays valid before.le
  obtain ⟨range, first, last, begun, ended⟩ := isValid_mk_iff.1 valid
  rw [next_mk]
  split
  · rename_i room
    exact isValid_mk_iff.2 ⟨range, first, last, Nat.le_add_left 1 day, room⟩
  · split
    · rename_i within
      exact isValid_mk_iff.2
        ⟨range, Nat.le_add_left 1 month, within, le_rfl, one_le_daysInMonth _ _⟩
    · exact isValid_mk_iff.2
        ⟨by omega, le_rfl, by decide, le_rfl, one_le_daysInMonth _ _⟩

private theorem exists_next_eq {date : Date} (valid : date.IsValid) (after : 0 < date.toDays) :
    ∃ before : Date, before.IsValid ∧ before.next = date := by
  obtain ⟨year, month, day⟩ := date
  have late := le_year_of_toDays valid after.le
  obtain ⟨range, first, last, begun, ended⟩ := isValid_mk_iff.1 valid
  by_cases monthBegins : day = 1
  · subst monthBegins
    by_cases yearBegins : month = 1
    · subst yearBegins
      have earlier : -262143 ≤ year - 1 ∧ year - 1 ≤ 262142 := by omega
      refine ⟨⟨year - 1, 12, 31⟩,
        isValid_mk_iff.2 ⟨earlier, by decide, le_rfl, by decide, le_rfl⟩, ?_⟩
      have december : daysInMonth (year - 1) 12 = 31 := rfl
      rw [next_mk, december, if_neg (Nat.lt_irrefl 31), if_neg (Nat.lt_irrefl 12),
        Int.sub_add_cancel]
    · refine ⟨⟨year, month - 1, daysInMonth year (month - 1)⟩,
        isValid_mk_iff.2 ⟨range, by omega, by omega, one_le_daysInMonth _ _, le_rfl⟩, ?_⟩
      rw [next_mk, if_neg (Nat.lt_irrefl _), if_pos (by omega), Nat.sub_add_cancel first]
  · refine ⟨⟨year, month, day - 1⟩,
      isValid_mk_iff.2 ⟨range, first, last, by omega, by omega⟩, ?_⟩
    rw [next_mk, if_pos (by omega), Nat.sub_add_cancel begun]

/-! ## Counting weekdays -/

theorem weekday_next {date : Date} (valid : date.IsValid) :
    date.next.weekday = (date.weekday + 1) % 7 := by
  rw [weekday, weekday, toDays_next valid]
  omega

theorem weekday_lt (date : Date) : date.weekday < 7 := by
  unfold weekday
  omega

private theorem weekday_of_fallsOn {date : Date} {day : Nat} (falls : date.FallsOn day) :
    date.weekday = day := by
  induction falls with
  | epoch => rfl
  | next valid falls ih => rw [weekday_next valid, ih]
  | @previous date day valid within falls ih =>
    rw [weekday_next valid] at ih
    have bound := date.weekday_lt
    omega

private theorem fallsOn_weekday {date : Date} (valid : date.IsValid) :
    date.FallsOn date.weekday := by
  induction distance : date.toDays.natAbs generalizing date with
  | zero =>
    rw [eq_epoch_of_toDays valid (Int.natAbs_eq_zero.1 distance)]
    exact .epoch
  | succ count ih =>
    by_cases early : date.toDays < 0
    · have following := toDays_next valid
      have falls := ih (isValid_next valid early) (by omega)
      rw [weekday_next valid] at falls
      exact .previous valid date.weekday_lt falls
    · obtain ⟨before, known, rfl⟩ := exists_next_eq valid (by omega)
      have following := toDays_next known
      have falls := ih known (by omega)
      rw [weekday_next known]
      exact .next known falls

/-- Every date falls on one day of the week. -/
theorem fallsOn_iff {date : Date} (valid : date.IsValid) {day : Nat} :
    date.FallsOn day ↔ date.weekday = day := by
  constructor
  · exact weekday_of_fallsOn
  · rintro rfl
    exact fallsOn_weekday valid

end WebClient.Date
