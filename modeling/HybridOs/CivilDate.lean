import Mathlib

/-!
# Dates of the Gregorian calendar

A date is a number of days since the first of January 1970. The year, the month and the day of
the month of a date are counted in years that start in March, so that the day that a leap year
has more comes last.
-/

namespace HybridOs.CivilDate

/-- The date of a day of a month of a year. Months past the end of the year lie in the next
ones. -/
def dateOf (year month day : ℤ) : ℤ :=
  let months := 12 * year + (month - 3)
  let marchYear := months / 12
  365 * marchYear + marchYear / 4 - marchYear / 100 + marchYear / 400 +
    (153 * (months % 12) + 2) / 5 + (day - 1) - 719468

/-- The periods of four hundred years since the first of March of year zero. -/
def eraOf (date : ℤ) : ℤ := (date + 719468) / 146097

/-- The day of its period that a date is. -/
def dayOfEra (date : ℤ) : ℤ := (date + 719468) % 146097

/-- The year of its period, starting in March, that a date lies in. -/
def yearOfEra (date : ℤ) : ℤ :=
  (dayOfEra date - dayOfEra date / 1460 + dayOfEra date / 36524 - dayOfEra date / 146096) / 365

/-- The day of that year. -/
def dayOfYear (date : ℤ) : ℤ :=
  dayOfEra date - (365 * yearOfEra date + yearOfEra date / 4 - yearOfEra date / 100)

/-- The month of that year, from zero for March on. -/
def marchMonth (date : ℤ) : ℤ := (5 * dayOfYear date + 2) / 153

/-- The year of a date. -/
def yearOf (date : ℤ) : ℤ :=
  400 * eraOf date + yearOfEra date + if marchMonth date < 10 then 0 else 1

/-- The month of a date. -/
def monthOf (date : ℤ) : ℤ :=
  if marchMonth date < 10 then marchMonth date + 3 else marchMonth date - 9

/-- The day of the month of a date. -/
def dayOf (date : ℤ) : ℤ := dayOfYear date - (153 * marchMonth date + 2) / 5 + 1

variable (date : ℤ)

theorem yearOfEra_range : 0 ≤ yearOfEra date ∧ yearOfEra date ≤ 399 := by
  unfold yearOfEra dayOfEra
  omega

/-- The year found is the one that the day lies in. The centuries of the era are told apart, as
the last one has a leap year more. -/
theorem dayOfYear_range : 0 ≤ dayOfYear date ∧ dayOfYear date ≤ 365 := by
  have hlow : 0 ≤ dayOfEra date := by
    unfold dayOfEra
    omega
  have hhigh : dayOfEra date ≤ 146096 := by
    unfold dayOfEra
    omega
  have hfound : yearOfEra date = (dayOfEra date - dayOfEra date / 1460 + dayOfEra date / 36524 -
      dayOfEra date / 146096) / 365 := rfl
  have hcentury : dayOfEra date / 36524 = 0 ∨ dayOfEra date / 36524 = 1 ∨
      dayOfEra date / 36524 = 2 ∨ dayOfEra date / 36524 = 3 ∨ dayOfEra date / 36524 = 4 := by
    omega
  have hlast : dayOfEra date / 146096 = 0 ∨ dayOfEra date / 146096 = 1 := by omega
  have hcenturyOfYear : yearOfEra date / 100 = 0 ∨ yearOfEra date / 100 = 1 ∨
      yearOfEra date / 100 = 2 ∨ yearOfEra date / 100 = 3 := by
    omega
  unfold dayOfYear
  rcases hcentury with h | h | h | h | h <;> rcases hlast with h' | h' <;> rw [h, h'] at hfound <;>
    rcases hcenturyOfYear with h'' | h'' | h'' | h'' <;> rw [h''] <;> omega

theorem marchMonth_range : 0 ≤ marchMonth date ∧ marchMonth date ≤ 11 := by
  have hday := dayOfYear_range date
  unfold marchMonth
  omega

/-- The months since March of year zero of a date. -/
theorem months_eq : 12 * yearOf date + (monthOf date - 3) =
    12 * (400 * eraOf date + yearOfEra date) + marchMonth date := by
  unfold yearOf monthOf
  split_ifs <;> omega

/-- A date is the one of its year, month and day. -/
theorem dateOf_civil : dateOf (yearOf date) (monthOf date) (dayOf date) = date := by
  have hyear := yearOfEra_range date
  have hmonth := marchMonth_range date
  have hera : date + 719468 = 146097 * eraOf date + dayOfEra date := by
    unfold eraOf dayOfEra
    omega
  have hday : dayOf date - 1 = dayOfYear date - (153 * marchMonth date + 2) / 5 := by
    unfold dayOf
    omega
  have hdayOfYear : dayOfYear date =
      dayOfEra date - (365 * yearOfEra date + yearOfEra date / 4 - yearOfEra date / 100) := rfl
  have hmonths := months_eq date
  have hmarchYear : (12 * yearOf date + (monthOf date - 3)) / 12 =
      400 * eraOf date + yearOfEra date := by omega
  have hmarchMonth : (12 * yearOf date + (monthOf date - 3)) % 12 = marchMonth date := by omega
  have hleap : (400 * eraOf date + yearOfEra date) / 4 =
      100 * eraOf date + yearOfEra date / 4 := by omega
  have hcentury : (400 * eraOf date + yearOfEra date) / 100 =
      4 * eraOf date + yearOfEra date / 100 := by omega
  have hgregorian : (400 * eraOf date + yearOfEra date) / 400 = eraOf date := by omega
  simp only [dateOf, hmarchYear]
  omega

/-! ## Neighbouring dates -/

/-- The days before the first of March of a year. -/
def daysBefore (marchYear : ℤ) : ℤ :=
  365 * marchYear + marchYear / 4 - marchYear / 100 + marchYear / 400

theorem daysBefore_lt {y z : ℤ} (h : y < z) : daysBefore y + 365 ≤ daysBefore z := by
  unfold daysBefore
  omega

theorem eq_daysBefore :
    date + 719468 = daysBefore (400 * eraOf date + yearOfEra date) + dayOfYear date := by
  have hyear := yearOfEra_range date
  have hera : date + 719468 = 146097 * eraOf date + dayOfEra date := by
    unfold eraOf dayOfEra
    omega
  have hday : dayOfYear date =
      dayOfEra date - (365 * yearOfEra date + yearOfEra date / 4 - yearOfEra date / 100) := rfl
  unfold daysBefore
  omega

/-- The day before has another day of the month. -/
theorem dayOf_pred_ne : dayOf (date - 1) ≠ dayOf date := by
  have hday := dayOfYear_range date
  have hbefore := dayOfYear_range (date - 1)
  have heq := eq_daysBefore date
  have heq' := eq_daysBefore (date - 1)
  unfold dayOf marchMonth
  rcases lt_trichotomy (400 * eraOf (date - 1) + yearOfEra (date - 1))
      (400 * eraOf date + yearOfEra date) with h | h | h
  · have hyears := daysBefore_lt h
    have hfirst : (5 * dayOfYear date + 2) / 153 = 0 := by omega
    have hlast : (5 * dayOfYear (date - 1) + 2) / 153 = 11 := by omega
    rw [hfirst, hlast]
    omega
  · rw [h] at heq'
    omega
  · have hyears := daysBefore_lt h
    omega

end HybridOs.CivilDate
