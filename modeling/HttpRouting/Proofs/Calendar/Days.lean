import HttpRouting.Calendar.Basic
import Mathlib.Tactic.IntervalCases

/-!
Days and their counts.  Years are reckoned from March, so that four hundred of them are one cycle of
146097 days and the leap day is the last of its year.  Every count belongs to exactly one day of the
calendar, which has that count.
-/

set_option autoImplicit false
set_option relaxedAutoImplicit false

namespace HttpRouting.CivilDate

/-- The days of a cycle before a year of it. -/
def daysBefore (year : Nat) : Nat :=
  365 * year + year / 4 - year / 100 + year / 400

/-- The days of a cycle less the leap days among them, by which the year of a day is found. -/
def withoutLeapDays (day : Nat) : Nat :=
  day - day / 1460 + day / 36524 - day / 146096

/-- The date of a day within a year that begins in March. -/
def ofYearDay (era : Int) (year dayOfYear : Nat) : CivilDate :=
  let monthFromMarch := (5 * dayOfYear + 2) / 153
  let month := if monthFromMarch < 10 then monthFromMarch + 3 else monthFromMarch - 9
  { year := (year : Int) + era * 400 + (if month ≤ 2 then 1 else 0)
    month
    day := dayOfYear - (153 * monthFromMarch + 2) / 5 + 1 }

theorem monthLength_le (year : Int) (month : Nat) : monthLength year month ≤ 31 := by
  unfold monthLength
  split
  · split <;> omega
  · split <;> omega

theorem isValid_iff {date : CivilDate} : date.isValid = true ↔
    1 ≤ date.month ∧ date.month ≤ 12 ∧ 1 ≤ date.day ∧
      date.day ≤ monthLength date.year date.month := by
  simp only [isValid, Bool.and_eq_true, decide_eq_true_eq, and_assoc]

section Years

variable {day day' year : Nat}

theorem exists_year (years : Nat) (within : day < daysBefore years) :
    ∃ year < years, daysBefore year ≤ day ∧ day < daysBefore (year + 1) := by
  induction years with
  | zero => simp [daysBefore] at within
  | succ years ih =>
    by_cases earlier : day < daysBefore years
    · obtain ⟨year, below, bounds⟩ := ih earlier
      exact ⟨year, by omega, bounds⟩
    · exact ⟨years, by omega, by omega, within⟩

theorem withoutLeapDays_le (within : day' < 146097) (order : day ≤ day') :
    withoutLeapDays day ≤ withoutLeapDays day' := by
  unfold withoutLeapDays
  omega

/-- The first and the last day of each year are found to be of that year. -/
theorem withoutLeapDays_ends : ∀ year < 400,
    withoutLeapDays (daysBefore year) / 365 = year ∧
      withoutLeapDays (daysBefore (year + 1) - 1) / 365 = year := by
  decide +kernel

theorem daysBefore_succ_le (within : year < 400) : daysBefore (year + 1) ≤ 146097 := by
  unfold daysBefore
  omega

/-- The days between the first and the last of a year are of that year too. -/
theorem withoutLeapDays_div (within : year < 400) (from_first : daysBefore year ≤ day)
    (to_last : day < daysBefore (year + 1)) : withoutLeapDays day / 365 = year := by
  obtain ⟨first, last⟩ := withoutLeapDays_ends year within
  have bound := daysBefore_succ_le within
  have low : withoutLeapDays (daysBefore year) ≤ withoutLeapDays day :=
    withoutLeapDays_le (by omega) from_first
  have high : withoutLeapDays day ≤ withoutLeapDays (daysBefore (year + 1) - 1) :=
    withoutLeapDays_le (by omega) (by omega)
  omega

end Years

/-- Every count is that of a day of some year. -/
theorem exists_ofDays (days : Int) :
    ∃ (era : Int) (year dayOfYear : Nat), year < 400 ∧
      daysBefore year + dayOfYear < daysBefore (year + 1) ∧
      days + 719468 = era * 146097 + (daysBefore year + dayOfYear : Nat) ∧
      ofDays days = ofYearDay era year dayOfYear := by
  have within : ((days + 719468) % 146097).toNat < daysBefore 400 := by
    simp only [daysBefore]
    omega
  obtain ⟨year, below, from_first, to_last⟩ := exists_year 400 within
  have found := withoutLeapDays_div below from_first to_last
  have start : 365 * year + year / 4 - year / 100 = daysBefore year := by
    simp only [daysBefore]
    omega
  refine ⟨(days + 719468) / 146097, year, ((days + 719468) % 146097).toNat - daysBefore year, below,
    by omega, by omega, ?_⟩
  unfold withoutLeapDays at found
  simp only [ofDays, ofYearDay, found, start]

section YearDay

variable {era : Int} {year dayOfYear : Nat}

theorem toDays_ofYearDay (within : year < 400)
    (to_last : daysBefore year + dayOfYear < daysBefore (year + 1)) :
    (ofYearDay era year dayOfYear).toDays =
      era * 146097 + (daysBefore year + dayOfYear : Nat) - 719468 := by
  unfold ofYearDay toDays
  have month_within : (5 * dayOfYear + 2) / 153 ≤ 11 := by
    unfold daysBefore at to_last
    omega
  have month_begins : (153 * ((5 * dayOfYear + 2) / 153) + 2) / 5 ≤ dayOfYear := by omega
  generalize (5 * dayOfYear + 2) / 153 = month at month_within month_begins
  have start : year * 365 + year / 4 - year / 100 = daysBefore year := by
    simp only [daysBefore]
    omega
  by_cases early : month < 10
  · have later : ¬ month + 3 ≤ 2 := by omega
    simp only [early, if_true, later, if_false]
    have era_eq : ((year : Int) + era * 400 + 0) / 400 = era := by omega
    have year_eq : (((year : Int) + era * 400 + 0) % 400).toNat = year := by omega
    rw [era_eq, year_eq, if_pos (by omega), start]
    omega
  · have first : month - 9 ≤ 2 := by omega
    simp only [early, if_false, first, if_true]
    have era_eq : ((year : Int) + era * 400 + 1 - 1) / 400 = era := by omega
    have year_eq : (((year : Int) + era * 400 + 1 - 1) % 400).toNat = year := by omega
    rw [era_eq, year_eq, if_neg (by omega), start]
    omega

/-- A day of a year is in the calendar, the leap day in leap years only. -/
theorem isValid_ofYearDay (within : year < 400)
    (to_last : daysBefore year + dayOfYear < daysBefore (year + 1)) :
    (ofYearDay era year dayOfYear).isValid = true := by
  have length : dayOfYear < if isLeapYear ((year : Int) + era * 400 + 1) then 366 else 365 := by
    unfold daysBefore at to_last
    unfold isLeapYear
    split
    · omega
    · next common =>
      simp only [Bool.and_eq_true, Bool.or_eq_true, decide_eq_true_eq, not_and, not_or] at common
      omega
  have month_within : (5 * dayOfYear + 2) / 153 ≤ 11 := by split at length <;> omega
  obtain ⟨month, found⟩ : ∃ month, (5 * dayOfYear + 2) / 153 = month := ⟨_, rfl⟩
  rw [found] at month_within
  simp only [isValid_iff, ofYearDay, found]
  by_cases february : month = 11
  · subst february
    split at length
    · next leap =>
      simp [monthLength, leap]
      omega
    · next common =>
      simp [monthLength, common]
      omega
  · -- Every other month has its length in all years.
    interval_cases month <;> simp [monthLength] <;> omega

end YearDay

/-- The day that is found for a count has that count. -/
theorem toDays_ofDays (days : Int) : (ofDays days).toDays = days := by
  obtain ⟨era, year, dayOfYear, within, to_last, count, found⟩ := exists_ofDays days
  rw [found, toDays_ofYearDay within to_last]
  omega

theorem isValid_ofDays (days : Int) : (ofDays days).isValid = true := by
  obtain ⟨era, year, dayOfYear, within, to_last, -, found⟩ := exists_ofDays days
  rw [found]
  exact isValid_ofYearDay within to_last

/-- A bound for the years is one for the counts. -/
theorem lt_of_year_ofDays_le {days year : Int} (bound : (ofDays days).year ≤ year) :
    days + 719468 < (year / 400 + 1) * 146097 := by
  obtain ⟨era, yearOfEra, dayOfYear, within, to_last, count, found⟩ := exists_ofDays days
  have cycle := daysBefore_succ_le within
  rw [found] at bound
  simp only [ofYearDay] at bound
  have era_le : era ≤ year / 400 := by split at bound <;> omega
  omega

end HttpRouting.CivilDate
