import GraphQuery.Calendar
import Mathlib.Tactic.IntervalCases

/-!
# Dates of days

The date of a day, counted from 1970-01-01, is a valid date, and counting the days to it gives the
day back. Main statement: the round trip, for all days before and after.
-/

namespace GraphQuery.Date

/-! ## Years of a period -/

/-- The days of a period before a year of it. -/
def daysBefore (year : Nat) : Nat := 365 * year + year / 4 - year / 100 + year / 400

/-- A day of a period without the leap days before it, so that all its years are of one length. -/
def evenDay (day : Nat) : Nat := day - day / 1460 + day / 36524 - day / 146096

theorem evenDay_mono {a b : Nat} (order : a ≤ b) (inside : b < 146097) : evenDay a ≤ evenDay b := by
  unfold evenDay
  omega

/-- The first and the last day of a year fall into it. -/
theorem evenDay_daysBefore {year : Nat} (inside : year < 400) :
    365 * year ≤ evenDay (daysBefore year) ∧ evenDay (daysBefore (year + 1) - 1) < 365 * (year + 1) := by
  have checked : ∀ y < 400,
      365 * y ≤ evenDay (daysBefore y) ∧ evenDay (daysBefore (y + 1) - 1) < 365 * (y + 1) := by decide +kernel
  exact checked year inside

theorem evenDay_div_lt {day : Nat} (inside : day < 146097) : evenDay day / 365 < 400 := by
  unfold evenDay
  omega

/-- A day of a period falls into the year that `evenDay` tells. -/
theorem daysBefore_year {day : Nat} (inside : day < 146097) :
    daysBefore (evenDay day / 365) ≤ day ∧ day < daysBefore (evenDay day / 365 + 1) := by
  have bound := evenDay_div_lt inside
  generalize told : evenDay day / 365 = year at bound
  constructor
  · -- Were the day before the year, it would not be after the last day of the year before.
    by_contra early
    have later : year ≠ 0 := by
      rintro rfl
      exact early (Nat.zero_le day)
    obtain ⟨before, rfl⟩ : ∃ y, year = y + 1 := Nat.exists_eq_succ_of_ne_zero later
    have last := (evenDay_daysBefore (show before < 400 by omega)).2
    have behind : evenDay day ≤ evenDay (daysBefore (before + 1) - 1) :=
      evenDay_mono (by omega) (by unfold daysBefore; omega)
    omega
  · by_contra late
    by_cases top : year = 399
    · subst top
      have : daysBefore (399 + 1) = 146097 := by decide
      omega
    · have first := (evenDay_daysBefore (show year + 1 < 400 by omega)).1
      have ahead : evenDay (daysBefore (year + 1)) ≤ evenDay day := evenDay_mono (by omega) inside
      omega

/-! ## Days of a year -/

/-- The date of a day of a year that starts in March. -/
def ofMarch (year : Int) (day : Nat) : Date :=
  let march := (5 * day + 2) / 153
  let month := if march < 10 then march + 3 else march - 9
  ⟨if month ≤ 2 then year + 1 else year, month, day - (153 * march + 2) / 5 + 1⟩

theorem isValid_ofMarch {year : Int} {day : Nat} (inside : day < 366) (leap : day = 365 → isLeap (year + 1) = true) :
    (ofMarch year day).isValid = true := by
  obtain ⟨march, told⟩ : ∃ march, march = (5 * day + 2) / 153 := ⟨_, rfl⟩
  have few : march < 12 := by omega
  rw [ofMarch, ← told, isValid]
  by_cases february : march = 11
  · -- February has a day 29 only at the end of the longer year.
    rw [february]
    cases long : isLeap (year + 1) with
    | false =>
      have short : day ≠ 365 := fun last => Bool.false_ne_true (long.symm.trans (leap last))
      simp [daysInMonth, long]
      omega
    | true =>
      simp [daysInMonth, long]
      omega
  · have fewer : march < 11 := by omega
    interval_cases march
    all_goals
      simp [daysInMonth]
      omega

/-- The days to a date, by its year and month counted from March. -/
theorem toDays_eq {date : Date} {period : Int} {year march day : Nat} (early : year < 400)
    (years : (if date.month ≤ 2 then date.year - 1 else date.year) = period * 400 + year)
    (months : (date.month + 9) % 12 = march) (days : dayOfYear march date.day = day) :
    date.toDays = period * periodDays + (daysBefore year + day : Nat) - epochDays := by
  have period_eq : (period * 400 + year) / 400 = period := by omega
  have year_eq : (period * 400 + year) % 400 = year := by omega
  rw [toDays, years, months, days, period_eq, year_eq]
  unfold daysBefore
  omega

theorem toDays_ofMarch {period : Int} {year day : Nat} (inside : day < 366) (early : year < 400) :
    toDays (ofMarch (period * 400 + year) day) = period * periodDays + (daysBefore year + day : Nat) - epochDays := by
  have dayBack : dayOfYear ((5 * day + 2) / 153) (day - (153 * ((5 * day + 2) / 153) + 2) / 5 + 1) = day := by
    unfold dayOfYear
    omega
  by_cases spring : (5 * day + 2) / 153 < 10
  · refine toDays_eq early ?_ ?_ dayBack
    · simp only [ofMarch, if_pos spring]
      rw [if_neg (by omega), if_neg (by omega)]
    · simp only [ofMarch, if_pos spring]
      omega
  · refine toDays_eq early ?_ ?_ dayBack
    · simp only [ofMarch, if_neg spring]
      rw [if_pos (by omega), if_pos (by omega)]
      omega
    · simp only [ofMarch, if_neg spring]
      omega

/-! ## Days of the calendar -/

/-- A year of 366 days, counted from March, ends in a leap year. -/
theorem isLeap_of_long {period : Int} {year : Nat} (early : year < 400)
    (long : daysBefore (year + 1) = daysBefore year + 366) : isLeap (period * 400 + year + 1) = true := by
  unfold daysBefore at long
  simp only [isLeap, Bool.and_eq_true, Bool.or_eq_true, decide_eq_true_eq]
  omega

/-- The date of a day, by the period, the year of the period and the day of the year. -/
theorem ofDays_eq (days : Int) :
    ∃ year day : Nat, year < 400 ∧ day < 366 ∧
      ofDays days = ofMarch ((days + epochDays) / periodDays * 400 + year) day ∧
      days = (days + epochDays) / periodDays * periodDays + (daysBefore year + day : Nat) - epochDays ∧
      (day = 365 → daysBefore (year + 1) = daysBefore year + 366) := by
  obtain ⟨inPeriod, told⟩ : ∃ d : Nat, d = ((days + epochDays) % periodDays).toNat := ⟨_, rfl⟩
  have inside : inPeriod < 146097 := by
    unfold periodDays at told
    omega
  have early := evenDay_div_lt inside
  obtain ⟨started, ended⟩ := daysBefore_year inside
  have length : daysBefore (evenDay inPeriod / 365 + 1) ≤ daysBefore (evenDay inPeriod / 365) + 366 := by
    unfold daysBefore
    omega
  refine ⟨evenDay inPeriod / 365, inPeriod - daysBefore (evenDay inPeriod / 365), early, by omega, ?_, ?_, ?_⟩
  · have before : daysBefore (evenDay inPeriod / 365) =
        365 * (evenDay inPeriod / 365) + evenDay inPeriod / 365 / 4 - evenDay inPeriod / 365 / 100 := by
      unfold daysBefore
      omega
    rw [before, told]
    rfl
  · unfold periodDays epochDays at *
    omega
  · omega

theorem isValid_ofDays (days : Int) : (ofDays days).isValid = true := by
  obtain ⟨year, day, early, inside, date, -, long⟩ := ofDays_eq days
  rw [date]
  exact isValid_ofMarch inside fun last => isLeap_of_long early (long last)

example : ofDays 19782 = ⟨2024, 2, 29⟩ := by decide

theorem month_le_and_day_le {date : Date} (valid : date.isValid = true) : date.month ≤ 12 ∧ date.day ≤ 31 := by
  simp only [isValid, Bool.and_eq_true, decide_eq_true_eq] at valid
  have short : daysInMonth date.year date.month ≤ 31 := by
    unfold daysInMonth
    split
    · split <;> omega
    all_goals omega
  omega

/-- Counting the days to the date of a day gives the day back. -/
theorem toDays_ofDays (days : Int) : (ofDays days).toDays = days := by
  obtain ⟨year, day, early, inside, date, total, -⟩ := ofDays_eq days
  rw [date, toDays_ofMarch inside early]
  exact total.symm

/-- The year of a day is one of its period or the first of the next. -/
theorem year_ofDays (days : Int) :
    (days + epochDays) / periodDays * 400 ≤ (ofDays days).year ∧
      (ofDays days).year ≤ (days + epochDays) / periodDays * 400 + 400 := by
  obtain ⟨year, day, early, inside, date, -, -⟩ := ofDays_eq days
  rw [date, ofMarch]
  dsimp only
  constructor <;> split <;> omega

end GraphQuery.Date
