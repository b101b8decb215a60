import Mathlib.Logic.Equiv.Defs
import PathObservatory.Documents.Timestamps

/-! # Dates and the count of days

The calendar is extended to every year, before the first as well. Its dates are
numbered by the integers, in their order: each day has the number after the one
before it, and each integer is the number of one date.
-/
namespace PathObservatory

/-- A date of the calendar. -/
@[ext] structure CivilDate where
  year : ℤ
  month : ℤ
  day : ℤ
  month_pos : 1 ≤ month
  month_le : month ≤ 12
  day_pos : 1 ≤ day
  day_le : day ≤ Rfc3339.daysInMonth year month
deriving DecidableEq

namespace Rfc3339
open Gregorian

/-- The year that starts in March. -/
def marchYear (year month : ℤ) : ℤ := year - if month ≤ 2 then 1 else 0

/-- The month of that year, from 0. -/
def marchMonth (month : ℤ) : ℤ := month + if 2 < month then -3 else 9

theorem marchMonth_bounds {month : ℤ} (h1 : 1 ≤ month) (h12 : month ≤ 12) :
    0 ≤ marchMonth month ∧ marchMonth month ≤ 11 ∧ civilMonth (marchMonth month) = month := by
  unfold civilMonth marchMonth
  refine ⟨?_,?_,?_⟩
  all_goals
    split_ifs
    all_goals omega

/-- The count of days, without the cycles of the source. -/
theorem daysFromCivil_eq_linear (year day : ℤ) {month : ℤ} (hmonth : 1 ≤ month) :
    daysFromCivil year month day =
      yearStart (marchYear year month) + (daysBeforeMonth (marchMonth month) + day - 1) -
        719468 := by
  have hdoy : 0 ≤ 153 * marchMonth month + 2 := by
    unfold marchMonth
    split_ifs <;> omega
  have hrest : 0 ≤ marchYear year month - marchYear year month / 400 * 400 := by omega
  have hera := @cycle_eq (marchYear year month) 399 400 (by decide) (by decide)
  rw [marchYear] at hera hrest ⊢
  rw [marchMonth] at hdoy
  simp only [daysFromCivil, hera, Int.tdiv_eq_ediv_of_nonneg hdoy,
    Int.tdiv_eq_ediv_of_nonneg hrest, yearStart, daysBefore, daysBeforeMonth, marchMonth]
  omega

end Rfc3339

namespace CivilDate
open Gregorian Rfc3339

/-- The number of the date. -/
def days (d : CivilDate) : ℤ := daysFromCivil d.year d.month d.day

/-- Every month has a first day. -/
theorem one_le_daysInMonth (year : ℤ) {month : ℤ} (h1 : 1 ≤ month) (h12 : month ≤ 12) :
    1 ≤ daysInMonth year month := by
  unfold daysInMonth
  split_ifs
  · decide
  · interval_cases month <;> decide

/-- The day after: in the month, else in the next month, else in the next year. -/
def next (d : CivilDate) : CivilDate :=
  if hday : d.day < daysInMonth d.year d.month then
    ⟨d.year,d.month,d.day + 1,d.month_pos,d.month_le,by have := d.day_pos; omega,hday⟩
  else if hmonth : d.month < 12 then
    ⟨d.year,d.month + 1,1,by have := d.month_pos; omega,hmonth,le_refl 1,
      one_le_daysInMonth _ (by have := d.month_pos; omega) hmonth⟩
  else ⟨d.year + 1,1,1,le_refl 1,by decide,le_refl 1,one_le_daysInMonth _ (le_refl 1) (by decide)⟩

theorem days_eq (d : CivilDate) : d.days =
    yearStart (marchYear d.year d.month) + (daysBeforeMonth (marchMonth d.month) + d.day - 1) -
      719468 := daysFromCivil_eq_linear d.year d.day d.month_pos

/-- February apart, a month ends where the next one starts. -/
theorem daysInMonth_eq_march (year : ℤ) {month : ℤ} (h1 : 1 ≤ month) (h12 : month ≤ 12)
    (hfeb : month ≠ 2) : daysInMonth year month =
      daysBeforeMonth (marchMonth month + 1) - daysBeforeMonth (marchMonth month) := by
  obtain ⟨h0,-,hcivil⟩ := marchMonth_bounds h1 h12
  have h10 : marchMonth month ≤ 10 := by
    unfold marchMonth
    split_ifs <;> omega
  rw [← @daysInMonth_of_march year _ h0 h10, hcivil]

theorem daysInMonth_february (year : ℤ) :
    daysInMonth year 2 = if year % 4 = 0 ∧ (year % 100 ≠ 0 ∨ year % 400 = 0) then 29 else 28 := by
  rw [daysInMonth]
  by_cases hleap : isLeapYear year = true
  · rw [if_pos ⟨rfl,hleap⟩, if_pos ((isLeapYear_iff year).mp hleap)]
  · rw [if_neg (fun h => hleap h.2), if_neg (mt (isLeapYear_iff year).mpr hleap)]
    rfl

/-- The first of March is the day after the last of February. -/
theorem daysFromCivil_march (year : ℤ) :
    daysFromCivil year 3 1 = daysFromCivil year 2 (daysInMonth year 2) + 1 := by
  rw [daysFromCivil_eq_linear year _ (by decide), daysFromCivil_eq_linear year _ (by decide),
    daysInMonth_february]
  have hbefore : marchYear year 2 + 1 = marchYear year 3 := by
    simp only [marchYear]
    omega
  have hmarch : marchYear year 3 = year := sub_zero year
  have hyear := yearStart_succ (marchYear year 2)
  rw [hbefore, hmarch] at hyear
  have hmonths : daysBeforeMonth (marchMonth 3) = 0 ∧ daysBeforeMonth (marchMonth 2) = 337 := by
    decide
  rw [hmarch, hyear, hmonths.1, hmonths.2]
  split_ifs <;> omega

/-- The next date has the next number. -/
theorem days_next (d : CivilDate) : d.next.days = d.days + 1 := by
  obtain ⟨year,month,day,h1,h12,hday1,hlast⟩ := d
  unfold next
  dsimp only
  split_ifs with hday hmonth
  · simp only [days_eq]
    omega
  · obtain rfl : day = daysInMonth year month := by omega
    by_cases hfeb : month = 2
    · subst hfeb
      exact daysFromCivil_march year
    · have hyear : marchYear year (month + 1) = marchYear year month := by
        unfold marchYear
        split_ifs <;> omega
      have hnext : marchMonth (month + 1) = marchMonth month + 1 := by
        unfold marchMonth
        split_ifs <;> omega
      simp only [days_eq, hyear, hnext, daysInMonth_eq_march year h1 h12 hfeb]
      omega
  · obtain rfl : month = 12 := by omega
    obtain rfl : day = daysInMonth year 12 := by omega
    have hyear : marchYear (year + 1) 1 = marchYear year 12 := by
      simp only [marchYear]
      omega
    have hmonths : daysBeforeMonth (marchMonth 1) =
        daysBeforeMonth (marchMonth 12) + daysInMonth year 12 := by
      rw [daysInMonth_eq_march year h1 h12 (by decide)]
      rfl
    simp only [days_eq, hyear, hmonths]
    omega

/-- A date is in its month and in its year. -/
theorem day_bounds (d : CivilDate) :
    daysBeforeMonth (marchMonth d.month) + d.day - 1 < daysBeforeMonth (marchMonth d.month + 1) ∧
      yearStart (marchYear d.year d.month) + (daysBeforeMonth (marchMonth d.month) + d.day - 1) <
        yearStart (marchYear d.year d.month + 1) := by
  obtain ⟨year,month,day,h1,h12,-,hlast⟩ := d
  dsimp only
  rw [yearStart_succ]
  by_cases hfeb : month = 2
  · subst hfeb
    have hyear : marchYear year 2 + 1 = year := by
      simp only [marchYear]
      omega
    have hmonths : daysBeforeMonth (marchMonth 2) = 337 ∧
        daysBeforeMonth (marchMonth 2 + 1) = 367 := by decide
    rw [daysInMonth_february] at hlast
    rw [hyear, hmonths.1, hmonths.2]
    split_ifs at hlast ⊢
    · omega
    · omega
  · rw [daysInMonth_eq_march year h1 h12 hfeb] at hlast
    have hle : daysBeforeMonth (marchMonth month + 1) ≤ 337 := by
      unfold daysBeforeMonth marchMonth
      split_ifs <;> omega
    refine ⟨by omega,?_⟩
    split_ifs <;> omega

/-- Two dates have two numbers. -/
theorem days_injective : Function.Injective days := by
  intro d e h
  obtain ⟨hmonth,hyear⟩ := d.day_bounds
  obtain ⟨hother,hotherYear⟩ := e.day_bounds
  obtain ⟨hd0,-,hdcivil⟩ := marchMonth_bounds d.month_pos d.month_le
  obtain ⟨he0,-,hecivil⟩ := marchMonth_bounds e.month_pos e.month_le
  have hdday := d.day_pos
  have heday := e.day_pos
  have hdbefore : 0 ≤ daysBeforeMonth (marchMonth d.month) := by
    unfold daysBeforeMonth
    omega
  have hebefore : 0 ≤ daysBeforeMonth (marchMonth e.month) := by
    unfold daysBeforeMonth
    omega
  rw [days_eq, days_eq] at h
  have hyears := year_unique (by omega) hyear (by omega) hotherYear (by omega)
  rw [hyears] at h
  have hdmonth := monthOfDay_eq (by omega) hmonth
  have hemonth := monthOfDay_eq (by omega) hother
  have hdays : daysBeforeMonth (marchMonth d.month) + d.day - 1 =
      daysBeforeMonth (marchMonth e.month) + e.day - 1 := by omega
  rw [hdays, hemonth] at hdmonth
  have hmonths : d.month = e.month := by rw [← hdcivil, ← hecivil, hdmonth]
  rw [hmonths] at hyears hdays
  unfold marchYear at hyears
  exact CivilDate.ext (by omega) hmonths (by omega)

/-- The date of a number. -/
def ofDays (number : ℤ) : CivilDate :=
  let date := civilFromDays_bounds number
  ⟨(civilFromDays number).1,(civilFromDays number).2.1,(civilFromDays number).2.2,date.2.2.1,
    date.2.2.2.1,date.2.2.2.2.1,date.2.2.2.2.2⟩

theorem days_ofDays (number : ℤ) : (ofDays number).days = number := daysFromCivil_eq number

/-- The dates of the calendar are numbered by the integers. -/
def equivDays : CivilDate ≃ ℤ where
  toFun := days
  invFun := ofDays
  left_inv d := days_injective (days_ofDays d.days)
  right_inv := days_ofDays

theorem civilFromDays_days (d : CivilDate) : civilFromDays d.days = (d.year,d.month,d.day) := by
  have hdate : ofDays d.days = d := equivDays.left_inv d
  have hyear := congrArg CivilDate.year hdate
  have hmonth := congrArg CivilDate.month hdate
  have hday := congrArg CivilDate.day hdate
  exact Prod.ext hyear (Prod.ext hmonth hday)

/-- Dates and numbers of days are converted into each other, over all years: the
first of January 1970 has number 0, and the numbers follow the days. -/
theorem civil_conversion_exact :
    daysFromCivil 1970 1 1 = 0 ∧
      (∀ d : CivilDate, d.next.days = d.days + 1) ∧
      (∀ d : CivilDate, civilFromDays d.days = (d.year,d.month,d.day)) ∧
      ∀ number, daysFromCivil (civilFromDays number).1 (civilFromDays number).2.1
        (civilFromDays number).2.2 = number :=
  ⟨by decide,days_next,civilFromDays_days,days_ofDays⟩

end CivilDate

end PathObservatory
