import Mathlib.Order.Monotone.Basic
import Mathlib.Algebra.Order.Ring.Int
import Mathlib.Tactic.IntervalCases
import Logbook.Time.Calendar

set_option autoImplicit false

/-! # Numbers of days

Every number is that of a day (`Date.toDays_ofDays`), and the calendar has that day
(`Date.isValid_ofDays`). -/

namespace Logbook.Time

namespace Date

/-! ## Years of a cycle -/

/-- The number, within its cycle, of the first day of a year. -/
def firstDay (year : Int) : Int :=
  365 * year + year / 4 - year / 100 + year / 400

/-- The number of a day within its cycle without the leap days before it; the last day of a leap
    year has the number of the day before. -/
def withoutLeapDays (day : Int) : Int :=
  day - day / 1460 + day / 36524 - day / 146096

theorem withoutLeapDays_le {day later : Int} (h : day ≤ later) :
    withoutLeapDays day ≤ withoutLeapDays later := by
  refine monotone_int_of_le_succ (fun n => ?_) h
  have hcentury : (n + 1) / 146096 = (n + 1) / 36524 / 4 := by
    rw [Int.ediv_ediv_of_nonneg (by decide)]
    rfl
  unfold withoutLeapDays
  omega

/-- The years of a cycle, each of which takes up its own days. -/
theorem withoutLeapDays_bounds :
    ∀ year : Nat, year < 400 → 365 * (year : Int) ≤ withoutLeapDays (firstDay year) ∧
      withoutLeapDays (firstDay (year + 1) - 1) < 365 * (year + 1) := by
  decide +kernel

/-- The year of a day within its cycle. -/
def yearOfCycle (day : Int) : Int :=
  withoutLeapDays day / 365

theorem yearOfCycle_spec {day : Int} (hlow : 0 ≤ day) (hhigh : day < 146097) :
    0 ≤ yearOfCycle day ∧ yearOfCycle day < 400 ∧
      firstDay (yearOfCycle day) ≤ day ∧ day < firstDay (yearOfCycle day + 1) := by
  have hfirst : withoutLeapDays 0 ≤ withoutLeapDays day := withoutLeapDays_le hlow
  have hlast : withoutLeapDays day ≤ withoutLeapDays 146096 := withoutLeapDays_le (by omega)
  rw [show withoutLeapDays 0 = 0 from rfl] at hfirst
  rw [show withoutLeapDays 146096 = 145999 from rfl] at hlast
  have hyear : 365 * yearOfCycle day ≤ withoutLeapDays day ∧
      withoutLeapDays day < 365 * (yearOfCycle day + 1) := by
    unfold yearOfCycle
    omega
  generalize yearOfCycle day = year at hyear
  obtain ⟨year, rfl⟩ := Int.eq_ofNat_of_zero_le (show 0 ≤ year by omega)
  refine ⟨by omega, by omega, ?_, ?_⟩
  -- a day before or after the year would have the number of an earlier or a later year
  · by_contra hbefore
    obtain ⟨previous, rfl⟩ := Nat.exists_eq_succ_of_ne_zero (n := year) (by
      rintro rfl
      exact hbefore hlow)
    have hle := withoutLeapDays_le (show day ≤ firstDay (previous + 1) - 1 by push_cast at *; omega)
    have hbounds := (withoutLeapDays_bounds previous (by omega)).2
    omega
  · by_contra hafter
    have hnext : year + 1 < 400 := by
      by_contra hlast
      obtain rfl : year = 399 := by omega
      exact hafter hhigh
    have hle := withoutLeapDays_le (not_lt.1 hafter)
    have hbounds := (withoutLeapDays_bounds (year + 1) hnext).1
    push_cast at hbounds
    omega

/-! ## Days of a year -/

/-- A day of a year that starts in March. -/
def ofDayOfYear (year dayOfYear : Int) : Date :=
  let month := (5 * dayOfYear + 2) / 153
  let day := dayOfYear - (153 * month + 2) / 5 + 1
  let month := if month < 10 then month + 3 else month - 9
  ⟨if month ≤ 2 then year + 1 else year, month, day⟩

/-- Every day is one of a year of a cycle. -/
theorem exists_ofDayOfYear (days : Int) :
    ∃ cycle year dayOfYear, 0 ≤ year ∧ year < 400 ∧ 0 ≤ dayOfYear ∧
      dayOfYear < firstDay (year + 1) - firstDay year ∧
      days = cycle * 146097 + firstDay year + dayOfYear - 719468 ∧
      ofDays days = ofDayOfYear (year + cycle * 400) dayOfYear := by
  have hdiv := Int.ediv_mul_add_emod (days + 719468) 146097
  obtain ⟨hyear, hyears, hfirst, hnext⟩ := yearOfCycle_spec
    (Int.emod_nonneg (days + 719468) (by decide)) (Int.emod_lt_of_pos _ (by decide))
  have hday : days + 719468 - (days + 719468) / 146097 * 146097 = (days + 719468) % 146097 := by
    omega
  generalize hyear' : yearOfCycle ((days + 719468) % 146097) = year at hyear hyears hfirst hnext
  have hcycle : firstDay year = 365 * year + year / 4 - year / 100 := by
    unfold firstDay
    omega
  refine ⟨(days + 719468) / 146097, year, (days + 719468) % 146097 - firstDay year, hyear, hyears,
    Int.sub_nonneg.2 hfirst, Int.sub_lt_sub_right hnext _, by omega, ?_⟩
  rw [hcycle, ← hyear']
  simp only [ofDays, hday]
  rfl

/-- A year that starts in March has the last day of a leap year's February, if it has one. -/
theorem isLeapYear_iff {year : Int} :
    isLeapYear (year + 1) = true ↔ firstDay (year + 1) - firstDay year = 366 := by
  simp only [isLeapYear, firstDay, Bool.and_eq_true, Bool.or_eq_true, decide_eq_true_eq]
  omega

theorem toDays_ofDayOfYear {cycle year dayOfYear : Int} (hyear : 0 ≤ year) (hyears : year < 400)
    (hfirst : 0 ≤ dayOfYear) (hlast : dayOfYear < 366) :
    (ofDayOfYear (year + cycle * 400) dayOfYear).toDays
      = cycle * 146097 + firstDay year + dayOfYear - 719468 := by
  simp only [ofDayOfYear, toDays, firstDay]
  split <;> split <;> omega

/-- **Every number is that of a day.** -/
theorem toDays_ofDays (days : Int) : (ofDays days).toDays = days := by
  obtain ⟨cycle, year, dayOfYear, hyear, hyears, hfirst, hlast, hdays, hdate⟩ :=
    exists_ofDayOfYear days
  have hlength : firstDay (year + 1) - firstDay year ≤ 366 := by
    unfold firstDay
    omega
  rw [hdate, toDays_ofDayOfYear hyear hyears hfirst (by omega), hdays]

theorem isValid_ofDayOfYear {year dayOfYear : Int} (hfirst : 0 ≤ dayOfYear)
    (hlast : dayOfYear < firstDay (year + 1) - firstDay year) :
    (ofDayOfYear year dayOfYear).isValid = true := by
  have hlength : firstDay (year + 1) - firstDay year ≤ 365 ∨
      firstDay (year + 1) - firstDay year = 366 := by
    unfold firstDay
    omega
  have hday : dayOfYear < 366 := by omega
  rw [← isLeapYear_iff] at hlength
  obtain ⟨month, hmonth⟩ : ∃ month, month = (5 * dayOfYear + 2) / 153 := ⟨_, rfl⟩
  have hmonths : 0 ≤ month ∧ month ≤ 11 := by omega
  simp only [isValid, ofDayOfYear, ← hmonth]
  obtain ⟨hlow, hhigh⟩ := hmonths
  -- only the length of the last month, February, depends on the year
  interval_cases month <;> simp [daysInMonth] <;> try omega
  rcases hlength with hcommon | hleap
  · split <;> omega
  · rw [if_pos hleap]
    omega

/-- **The calendar has every day.** -/
theorem isValid_ofDays (days : Int) : (ofDays days).isValid = true := by
  obtain ⟨cycle, year, dayOfYear, -, -, hfirst, hlast, -, hdate⟩ := exists_ofDayOfYear days
  have hcycle : firstDay (year + cycle * 400 + 1) - firstDay (year + cycle * 400)
      = firstDay (year + 1) - firstDay year := by
    unfold firstDay
    omega
  rw [hdate]
  exact isValid_ofDayOfYear hfirst (by rwa [hcycle])

/-- The days of the first cycles have years of four digits at most. -/
theorem year_ofDays_bounds {days : Int} (hlow : -719468 ≤ days)
    (hhigh : days < 24 * 146097 - 719468) :
    0 ≤ (ofDays days).year ∧ (ofDays days).year < 10000 := by
  obtain ⟨cycle, year, dayOfYear, hyear, hyears, hfirst, hlast, hdays, hdate⟩ :=
    exists_ofDayOfYear days
  have hcycle : 0 ≤ cycle ∧ cycle < 24 := by
    unfold firstDay at hlast hdays
    omega
  rw [hdate, ofDayOfYear]
  dsimp only
  constructor <;> split <;> omega

theorem bounds_of_isValid {d : Date} (h : d.isValid = true) :
    1 ≤ d.month ∧ d.month ≤ 12 ∧ 1 ≤ d.day ∧ d.day ≤ 31 := by
  simp only [isValid, Bool.and_eq_true, decide_eq_true_eq] at h
  obtain ⟨⟨⟨hmonth, hmonths⟩, hday⟩, hdays⟩ := h
  refine ⟨hmonth, hmonths, hday, hdays.trans ?_⟩
  unfold daysInMonth
  split <;> split <;> omega

end Date

end Logbook.Time
