import Mathlib.Data.Int.Notation
import Mathlib.Order.Defs.LinearOrder
import Mathlib.Tactic.SplitIfs

/-! # Days and years of the Gregorian cycle

A cycle of 400 years has 146097 days. Years are counted from the first of March,
so that a leap day is the last day of its year; the year of a day is found by
division, after the leap days before it are taken out.
-/
namespace Gregorian

/-- The cycle of a number below zero is found by truncated division, of the number
brought down by the last place of a cycle. -/
theorem cycle_eq (number : ℤ) {last length : ℤ} (h0 : 0 ≤ last) (h : last + 1 = length) :
    (if 0 ≤ number then number else number - last).tdiv length = number / length := by
  split_ifs with hnumber
  · exact Int.tdiv_eq_ediv_of_nonneg hnumber
  · have hneg : number - last = -(last - number) := by omega
    have hdivmod := Int.mul_ediv_add_emod (last - number) length
    have hrem0 := Int.emod_nonneg (last - number) (by omega : length ≠ 0)
    have hrem := Int.emod_lt_of_pos (last - number) (by omega : 0 < length)
    have hplace : last - (last - number) % length + length * -((last - number) / length) =
        number := by
      rw [Int.mul_neg]
      omega
    rw [hneg, Int.neg_tdiv, Int.tdiv_eq_ediv_of_nonneg (by omega)]
    exact ((Int.ediv_emod_unique (by omega)).mpr ⟨hplace,by omega,by omega⟩).1.symm

def yearOfDay (day : ℤ) : ℤ := (day - day / 1460 + day / 36524 - day / 146096) / 365

/-- The days of the cycle before the given year. -/
def daysBefore (year : ℤ) : ℤ := 365 * year + year / 4 - year / 100

def dayOfYear (day : ℤ) : ℤ := day - daysBefore (yearOfDay day)

/-- A day by its century, the year in it and the leap days passed in it. -/
structure Placed (day century year rest leaps : ℤ) : Prop where
  century_nonneg : 0 ≤ century
  century_le : century ≤ 3
  day_eq : day = 36524 * century + rest
  rest_nonneg : 0 ≤ rest
  rest_lt : rest < 36524
  leaps_le : 1460 * leaps ≤ rest + 24 * century
  lt_leaps : rest + 24 * century < 1460 * leaps + 1460
  year_le : 365 * year ≤ rest - leaps
  lt_year : rest - leaps < 365 * year + 365
  year_eq : yearOfDay day = 100 * century + year

theorem exists_placed {day : ℤ} (h0 : 0 ≤ day) (h : day < 146096) :
    ∃ century year rest leaps, Placed day century year rest leaps := by
  have hcentury : 0 ≤ day / 36524 ∧ day / 36524 ≤ 3 := by omega
  have hlast : day / 146096 = 0 := by omega
  have hleaps : day / 1460 = 25 * (day / 36524) + (day % 36524 + 24 * (day / 36524)) / 1460 := by
    omega
  refine ⟨day / 36524,yearOfDay day - 100 * (day / 36524),day % 36524,
    (day % 36524 + 24 * (day / 36524)) / 1460,hcentury.1,hcentury.2,?_,?_,?_,?_,?_,?_,?_,?_⟩
  · omega
  · omega
  · omega
  · omega
  · omega
  · rw [yearOfDay, hlast, hleaps]
    omega
  · rw [yearOfDay, hlast, hleaps]
    omega
  · omega

/-- The leap days passed lag behind the years by less than one cycle of four. -/
theorem Placed.leaps_year {day century year rest leaps : ℤ}
    (h : Placed day century year rest leaps) :
    0 ≤ year ∧ year ≤ 99 ∧ year / 4 ≤ leaps ∧ leaps ≤ year / 4 + 1 := by
  obtain ⟨h1,h2,-,h3,h4,h5,h6,h7,h8,-⟩ := h
  refine ⟨?_,?_,?_,?_⟩
  all_goals omega

/-- A day is in the year that is found for it, and only the last year of four
that does not end a century has a leap day. -/
theorem dayOfYear_bounds {day : ℤ} (h0 : 0 ≤ day) (h : day ≤ 146096) :
    0 ≤ dayOfYear day ∧ dayOfYear day ≤ 365 ∧ 0 ≤ yearOfDay day ∧ yearOfDay day ≤ 399 ∧
      (dayOfYear day = 365 → (yearOfDay day + 1) % 4 = 0 ∧
        ((yearOfDay day + 1) % 100 ≠ 0 ∨ (yearOfDay day + 1) % 400 = 0)) := by
  by_cases hlast : day = 146096
  · subst hlast
    decide
  · obtain ⟨century,year,rest,leaps,hplaced⟩ := exists_placed h0 (by omega)
    obtain ⟨hy0,hy,hle,hlag⟩ := hplaced.leaps_year
    obtain ⟨h1,h2,h3,h4,h5,h6,h7,h8,h9,h10⟩ := hplaced
    have hfours : yearOfDay day / 4 = 25 * century + year / 4 := by omega
    have hhundreds : yearOfDay day / 100 = century := by omega
    rw [dayOfYear, daysBefore, hfours, hhundreds, h10, h3]
    refine ⟨by omega,by omega,by omega,by omega,fun hleap => ?_⟩
    have hthird : year = 4 * (year / 4) + 3 := by omega
    exact ⟨by omega,by omega⟩

/-- The days before the given year of any cycle. -/
def yearStart (year : ℤ) : ℤ := daysBefore year + year / 400

theorem yearStart_succ (year : ℤ) :
    yearStart (year + 1) = yearStart year + 365 +
      if (year + 1) % 4 = 0 ∧ ((year + 1) % 100 ≠ 0 ∨ (year + 1) % 400 = 0) then 1 else 0 := by
  unfold yearStart daysBefore
  split_ifs <;> omega

theorem yearStart_mono {a b : ℤ} (h : a ≤ b) : yearStart a ≤ yearStart b := by
  unfold yearStart daysBefore
  omega

/-- The years do not overlap. -/
theorem year_unique {a b i j : ℤ} (hi0 : 0 ≤ i) (hi : yearStart a + i < yearStart (a + 1))
    (hj0 : 0 ≤ j) (hj : yearStart b + j < yearStart (b + 1))
    (h : yearStart a + i = yearStart b + j) : a = b := by
  rcases Int.lt_trichotomy a b with hlt | heq | hlt
  · have hmono := @yearStart_mono (a + 1) b hlt
    omega
  · exact heq
  · have hmono := @yearStart_mono (b + 1) a hlt
    omega

/-- The month of a day of the year, counted from March. -/
def monthOfDay (day : ℤ) : ℤ := (5 * day + 2) / 153

def daysBeforeMonth (month : ℤ) : ℤ := (153 * month + 2) / 5

theorem monthOfDay_bounds {day : ℤ} (h0 : 0 ≤ day) (h : day ≤ 365) :
    0 ≤ monthOfDay day ∧ monthOfDay day ≤ 11 ∧ daysBeforeMonth (monthOfDay day) ≤ day := by
  unfold daysBeforeMonth monthOfDay
  refine ⟨?_,?_,?_⟩
  all_goals omega

theorem monthOfDay_eq {day month : ℤ} (h : daysBeforeMonth month ≤ day)
    (hnext : day < daysBeforeMonth (month + 1)) : monthOfDay day = month := by
  unfold daysBeforeMonth at h hnext
  unfold monthOfDay
  omega

end Gregorian
