import Mathlib.Algebra.Order.Ring.Nat
import Mathlib.Tactic.IntervalCases

/-! # Counting the days of the calendar

The days before a date of the Gregorian calendar are the days of the years before
it, the days of the months before it in its year, and the days before it in its
month. Years count from 0, as the calendar is extended backwards.
-/
namespace Calendar

/-- Every fourth year is a leap year, but of the centuries only every fourth. -/
def IsLeap (year : ℕ) : Prop := 4 ∣ year ∧ (100 ∣ year → 400 ∣ year)

instance (year : ℕ) : Decidable (IsLeap year) := inferInstanceAs (Decidable (_ ∧ (_ → _)))

theorem not_isLeap {year : ℕ} (h : ¬ IsLeap year) (hfour : 4 ∣ year) :
    100 ∣ year ∧ ¬ 400 ∣ year := by
  by_contra hnot
  exact h ⟨hfour,fun hhundred => by_contra fun hcycle => hnot ⟨hhundred,hcycle⟩⟩

def yearLength (year : ℕ) : ℕ := if IsLeap year then 366 else 365

/-- The months are numbered from 1. -/
def monthLength (year : ℕ) : ℕ → ℕ
  | 1 => 31
  | 2 => if IsLeap year then 29 else 28
  | 3 => 31
  | 4 => 30
  | 5 => 31
  | 6 => 30
  | 7 => 31
  | 8 => 31
  | 9 => 30
  | 10 => 31
  | 11 => 30
  | 12 => 31
  | _ => 0

def daysBeforeYear : ℕ → ℕ
  | 0 => 0
  | year + 1 => daysBeforeYear year + yearLength year

def daysBeforeMonth (year : ℕ) : ℕ → ℕ
  | 0 => 0
  | month + 1 => daysBeforeMonth year month + monthLength year month

theorem daysBeforeMonth_early (year : ℕ) {month : ℕ} (h1 : 1 ≤ month) (h2 : month ≤ 2) :
    daysBeforeMonth year month = 31 * (month - 1) := by
  interval_cases month <;> rfl

/-- From March on the months alternate, behind a leap day. -/
theorem daysBeforeMonth_late (year : ℕ) {month : ℕ} (h3 : 3 ≤ month) (h12 : month ≤ 12) :
    daysBeforeMonth year month =
      (153 * (month - 3) + 2) / 5 + 59 + if IsLeap year then 1 else 0 := by
  by_cases hleap : IsLeap year
  · interval_cases month <;> simp [daysBeforeMonth, monthLength, hleap]
  · interval_cases month <;> simp [daysBeforeMonth, monthLength, hleap]

/-- The days since the first of January of the year 0. -/
def dayCount (year month day : ℕ) : ℕ := daysBeforeYear year + daysBeforeMonth year month + (day - 1)

/-- The leap years before a year are the fourth ones, without the centuries that are
none. -/
theorem daysBeforeYear_eq (year : ℕ) :
    daysBeforeYear year + (year + 99) / 100 = 365 * year + (year + 3) / 4 + (year + 399) / 400 := by
  induction year with
  | zero => rfl
  | succ year ih =>
    rw [daysBeforeYear, yearLength]
    by_cases hleap : IsLeap year
    · obtain ⟨hfour,hcentury⟩ := hleap
      rw [if_pos ⟨hfour,hcentury⟩]
      by_cases hhundred : 100 ∣ year
      · have hcycle := hcentury hhundred
        omega
      · omega
    · rw [if_neg hleap]
      have hplain := not_isLeap hleap
      omega

end Calendar
