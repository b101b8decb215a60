import Mathlib.Data.Int.DivMod
import Mathlib.Tactic.IntervalCases
import PathObservatory.Documents.Rfc3339

/-! # Timestamps are read back

Every instant that is set is written with fields in their ranges and read back
from its text. The text of an unset instant is refused.
-/
namespace PathObservatory

namespace Rfc3339
open Gregorian

theorem floorSplit_eq (value : ℤ) {divisor : ℤ} (h : 0 < divisor) :
    floorSplit value divisor = (value / divisor,value % divisor) := by
  have hdivmod := Int.mul_tdiv_add_tmod value divisor
  have hlt := Int.tmod_lt_of_pos value h
  have hneg := Int.lt_tmod_of_pos value h
  unfold floorSplit
  by_cases hrem : value.tmod divisor < 0
  · obtain ⟨hquotient,hremainder⟩ := (@Int.ediv_emod_unique value divisor
      (value.tmod divisor + divisor) (value.tdiv divisor - 1) h).mpr
        ⟨by rw [mul_sub_one]; omega,by omega,by omega⟩
    rw [if_pos hrem, hquotient, hremainder]
  · obtain ⟨hquotient,hremainder⟩ := (@Int.ediv_emod_unique value divisor
      (value.tmod divisor) (value.tdiv divisor) h).mpr ⟨by omega,by omega,by omega⟩
    rw [if_neg hrem, hquotient, hremainder]

section Civil

/-- The cycle of 400 years that a day is in. -/
def eraOf (days : ℤ) : ℤ := (days + 719468) / 146097

def dayOfEra (days : ℤ) : ℤ := (days + 719468) % 146097

theorem dayOfEra_bounds (days : ℤ) : 0 ≤ dayOfEra days ∧ dayOfEra days ≤ 146096 ∧
    days + 719468 = eraOf days * 146097 + dayOfEra days := by
  unfold dayOfEra eraOf
  omega

/-- Month of the civil year of a month counted from March. -/
def civilMonth (month : ℤ) : ℤ := month + if month < 10 then 3 else -9

theorem civilFromDays_eq (days : ℤ) :
    civilFromDays days = (yearOfDay (dayOfEra days) + eraOf days * 400 +
        (if civilMonth (monthOfDay (dayOfYear (dayOfEra days))) ≤ 2 then 1 else 0),
      civilMonth (monthOfDay (dayOfYear (dayOfEra days))),
      dayOfYear (dayOfEra days) - daysBeforeMonth (monthOfDay (dayOfYear (dayOfEra days))) + 1) := by
  obtain ⟨h0,h,hdays⟩ := dayOfEra_bounds days
  generalize dayOfEra days = day at *
  generalize eraOf days = era at *
  obtain ⟨hdoy0,hdoyLe,hyear0,-,-⟩ := dayOfYear_bounds h0 h
  obtain ⟨hmonth0,-,-⟩ := monthOfDay_bounds hdoy0 hdoyLe
  have hquotient : (if 0 ≤ era * 146097 + day then era * 146097 + day else
      era * 146097 + day - 146096).tdiv 146097 = era := by
    rw [cycle_eq _ (by decide) (by decide)]
    omega
  have hyear : (day - day.tdiv 1460 + day.tdiv 36524 - day.tdiv 146096).tdiv 365 =
      yearOfDay day := by
    simp only [Int.tdiv_eq_ediv_of_nonneg h0]
    rw [Int.tdiv_eq_ediv_of_nonneg (by omega), yearOfDay]
  have hdoy : day - (365 * yearOfDay day + (yearOfDay day).tdiv 4 - (yearOfDay day).tdiv 100) =
      dayOfYear day := by
    simp only [Int.tdiv_eq_ediv_of_nonneg hyear0]
    rw [dayOfYear, daysBefore]
  have hmonth : (5 * dayOfYear day + 2).tdiv 153 = monthOfDay (dayOfYear day) := by
    rw [Int.tdiv_eq_ediv_of_nonneg (by omega), monthOfDay]
  have hbefore : (153 * monthOfDay (dayOfYear day) + 2).tdiv 5 =
      daysBeforeMonth (monthOfDay (dayOfYear day)) := by
    rw [Int.tdiv_eq_ediv_of_nonneg (by omega), daysBeforeMonth]
  simp only [civilFromDays, hdays, hquotient, add_sub_cancel_left, hyear, hdoy, hmonth, hbefore]
  rfl

/-- The date of a day denotes the day. -/
theorem daysFromCivil_eq (days : ℤ) :
    daysFromCivil (civilFromDays days).1 (civilFromDays days).2.1 (civilFromDays days).2.2 =
      days := by
  rw [civilFromDays_eq]
  obtain ⟨h0,h,hdays⟩ := dayOfEra_bounds days
  generalize dayOfEra days = day at *
  generalize eraOf days = era at *
  obtain ⟨hdoy0,hdoy,hyear0,hyear,-⟩ := dayOfYear_bounds h0 h
  obtain ⟨hmonth0,hmonth,-⟩ := monthOfDay_bounds hdoy0 hdoy
  have hplace : dayOfYear day = day - daysBefore (yearOfDay day) := rfl
  rw [daysBefore] at hplace
  generalize dayOfYear day = doy at *
  generalize yearOfDay day = year at *
  generalize monthOfDay doy = month at *
  have hmarch : civilMonth month + (if 2 < civilMonth month then -3 else 9) = month := by
    unfold civilMonth
    split_ifs <;> omega
  have hquotient : (if 0 ≤ year + era * 400 then year + era * 400 else
      year + era * 400 - 399).tdiv 400 = era := by
    rw [cycle_eq _ (by decide) (by decide)]
    omega
  have hbefore : 0 ≤ 153 * month + 2 := by omega
  simp only [daysFromCivil, add_sub_cancel_right, hquotient, hmarch,
    Int.tdiv_eq_ediv_of_nonneg hyear0, Int.tdiv_eq_ediv_of_nonneg hbefore, daysBeforeMonth]
  omega

theorem isLeapYear_iff (year : ℤ) :
    isLeapYear year = true ↔ year % 4 = 0 ∧ (year % 100 ≠ 0 ∨ year % 400 = 0) := by
  simp only [isLeapYear, ne_eq, ← Int.dvd_iff_tmod_eq_zero, Bool.or_eq_true, Bool.and_eq_true,
    decide_eq_true_eq]
  omega

/-- Only February, the last month counted from March, depends on the year. -/
theorem daysInMonth_of_march {year month : ℤ} (h0 : 0 ≤ month) (h : month ≤ 10) :
    daysInMonth year (civilMonth month) = daysBeforeMonth (month + 1) - daysBeforeMonth month := by
  have hmonth : civilMonth month ≠ 2 := by
    unfold civilMonth
    split_ifs <;> omega
  rw [daysInMonth, if_neg (fun hfeb => hmonth hfeb.1)]
  interval_cases month <;> rfl

theorem day_le_daysInMonth {doy year : ℤ} (h0 : 0 ≤ doy) (h : doy ≤ 365)
    (hleap : doy = 365 → isLeapYear year = true) :
    doy - daysBeforeMonth (monthOfDay doy) + 1 ≤
      daysInMonth year (civilMonth (monthOfDay doy)) := by
  obtain ⟨hmonth0,hmonth,-⟩ := monthOfDay_bounds h0 h
  have hnext : 5 * doy + 2 < 153 * (monthOfDay doy + 1) := by
    unfold monthOfDay
    omega
  generalize monthOfDay doy = month at *
  by_cases hfeb : month = 11
  · subst hfeb
    have hbefore : daysBeforeMonth 11 = 337 := rfl
    by_cases hlast : doy = 365
    · rw [daysInMonth, if_pos ⟨by decide,hleap hlast⟩]
      omega
    · have hdays : 28 ≤ daysInMonth year (civilMonth 11) := by
        unfold daysInMonth
        split_ifs <;> decide
      omega
  · rw [daysInMonth_of_march hmonth0 (by omega)]
    unfold daysBeforeMonth
    omega

/-- The date of a day is a date of the calendar. -/
theorem civilFromDays_bounds (days : ℤ) :
    eraOf days * 400 ≤ (civilFromDays days).1 ∧ (civilFromDays days).1 ≤ eraOf days * 400 + 400 ∧
      1 ≤ (civilFromDays days).2.1 ∧ (civilFromDays days).2.1 ≤ 12 ∧
      1 ≤ (civilFromDays days).2.2 ∧
      (civilFromDays days).2.2 ≤ daysInMonth (civilFromDays days).1 (civilFromDays days).2.1 := by
  rw [civilFromDays_eq]
  obtain ⟨h0,h,-⟩ := dayOfEra_bounds days
  generalize dayOfEra days = day at *
  obtain ⟨hdoy0,hdoy,hyear0,hyear,hlast⟩ := dayOfYear_bounds h0 h
  obtain ⟨hmonth0,hmonth,hbefore⟩ := monthOfDay_bounds hdoy0 hdoy
  have hcivil : 1 ≤ civilMonth (monthOfDay (dayOfYear day)) ∧
      civilMonth (monthOfDay (dayOfYear day)) ≤ 12 := by
    unfold civilMonth
    split_ifs <;> omega
  refine ⟨by dsimp only; split_ifs <;> omega,by dsimp only; split_ifs <;> omega,hcivil.1,hcivil.2,
    by dsimp only; omega,day_le_daysInMonth hdoy0 hdoy (fun hdoyLast => ?_)⟩
  have hmonthLast : civilMonth (monthOfDay (dayOfYear day)) ≤ 2 := by
    rw [hdoyLast]
    decide
  have hleap := hlast hdoyLast
  rw [if_pos hmonthLast, isLeapYear_iff]
  omega

end Civil

/-- Digits of a fixed number that make the value. -/
structure FixedDigits (width : ℕ) (value : ℤ) (text : ByteString) : Prop where
  length : text.length = width
  digits : ∀ c ∈ text, Json.isDigit c = true
  value : (Json.valueOfDigits text : ℤ) = value

theorem length_decimal_le {width n : ℕ} (hwidth : 0 < width) (h : n < 10 ^ width) :
    (Json.decimal n).length ≤ width := by
  unfold Json.decimal
  split_ifs with hzero
  · exact hwidth
  · rw [List.length_map, List.length_reverse]
    exact (Nat.digits_length_le_iff (by decide) n).mpr h

theorem valueOfDigits_zeros (count : ℕ) (text : ByteString) :
    Json.valueOfDigits (List.replicate count 0x30 ++ text) = Json.valueOfDigits text := by
  induction count with
  | zero => rfl
  | succ count ih => exact ih

theorem fixedDigits_padded {width : ℕ} {value : ℤ} (hwidth : 0 < width) (h0 : 0 ≤ value)
    (h : value < 10 ^ width) : FixedDigits width value (padded width value) := by
  have hlt : value.natAbs < 10 ^ width := by
    zify
    rwa [abs_of_nonneg h0]
  have hlength := length_decimal_le hwidth hlt
  rw [padded, if_neg (not_lt.mpr h0)]
  refine ⟨?_,?_,?_⟩
  · rw [List.length_append, List.length_replicate]
    omega
  · intro c hc
    rcases List.mem_append.mp hc with hc | hc
    · rw [List.eq_of_mem_replicate hc]
      rfl
    · exact Json.isDigit_iff.mpr (Json.decimal_digits _ c hc)
  · rw [valueOfDigits_zeros, Json.valueOfDigits_decimal]
    omega

theorem parseFixedInt_append {before digits rest : ByteString} {count : ℕ} {value : ℤ}
    (h : FixedDigits count value digits) :
    parseFixedInt (before ++ (digits ++ rest)) before.length count = some value := by
  have hdigits : ((before ++ (digits ++ rest)).drop before.length).take count = digits := by
    rw [List.drop_left, ← h.length, List.take_left]
  have hlength : ¬ (before ++ (digits ++ rest)).length < before.length + count := by
    simp only [List.length_append, h.length]
    omega
  rw [parseFixedInt, if_neg hlength, hdigits, if_pos (List.all_eq_true.mpr h.digits), h.value]

theorem FixedDigits.two {value : ℤ} {text : ByteString} (h : FixedDigits 2 value text) :
    ∃ a b, text = [a,b] := List.length_eq_two.mp h.length

theorem FixedDigits.four {value : ℤ} {text : ByteString} (h : FixedDigits 4 value text) :
    ∃ a b c d, text = [a,b,c,d] := by
  obtain ⟨length,-,-⟩ := h
  match text, length with
  | [a,b,c,d], _ => exact ⟨a,b,c,d,rfl⟩

/-- The fields of a date and time of day are within their widths. -/
structure CivilTime.Fits (civil : CivilTime) : Prop where
  year : 0 ≤ civil.year ∧ civil.year < 10 ^ 4
  month : 0 ≤ civil.month ∧ civil.month < 10 ^ 2
  day : 0 ≤ civil.day ∧ civil.day < 10 ^ 2
  hour : 0 ≤ civil.hour ∧ civil.hour < 10 ^ 2
  minute : 0 ≤ civil.minute ∧ civil.minute < 10 ^ 2
  second : 0 ≤ civil.second ∧ civil.second < 10 ^ 2

/-- The digits of the fields with what separates them, and a rest. -/
def fieldText (year month day : ByteString) (separator : UInt8)
    (hour minute second rest : ByteString) : ByteString :=
  year ++ 0x2D :: (month ++ 0x2D :: (day ++ separator :: (hour ++ 0x3A :: (minute ++
    0x3A :: (second ++ rest)))))

/-- The fields are read from their digits. -/
theorem parseCivil_fieldText {civil : CivilTime} {separator : UInt8}
    {year month day hour minute second : ByteString} (hyear : FixedDigits 4 civil.year year)
    (hmonth : FixedDigits 2 civil.month month) (hday : FixedDigits 2 civil.day day)
    (hseparator : separator ∈ ([0x54,0x74] : ByteString)) (hhour : FixedDigits 2 civil.hour hour)
    (hminute : FixedDigits 2 civil.minute minute) (hsecond : FixedDigits 2 civil.second second)
    (rest : ByteString) :
    parseCivil (fieldText year month day separator hour minute second rest) = some civil := by
  obtain ⟨y1,y2,y3,y4,rfl⟩ := hyear.four
  obtain ⟨m1,m2,rfl⟩ := hmonth.two
  obtain ⟨d1,d2,rfl⟩ := hday.two
  obtain ⟨h1,h2,rfl⟩ := hhour.two
  obtain ⟨n1,n2,rfl⟩ := hminute.two
  obtain ⟨s1,s2,rfl⟩ := hsecond.two
  have h4 := @parseFixedInt_append [] _ (0x2D :: m1 :: m2 :: 0x2D :: d1 :: d2 :: separator :: h1 ::
    h2 :: 0x3A :: n1 :: n2 :: 0x3A :: s1 :: s2 :: rest) _ _ hyear
  have h5 := @parseFixedInt_append [y1,y2,y3,y4,0x2D] _ (0x2D :: d1 :: d2 :: separator :: h1 ::
    h2 :: 0x3A :: n1 :: n2 :: 0x3A :: s1 :: s2 :: rest) _ _ hmonth
  have h8 := @parseFixedInt_append [y1,y2,y3,y4,0x2D,m1,m2,0x2D] _ (separator :: h1 :: h2 ::
    0x3A :: n1 :: n2 :: 0x3A :: s1 :: s2 :: rest) _ _ hday
  have h11 := @parseFixedInt_append [y1,y2,y3,y4,0x2D,m1,m2,0x2D,d1,d2,separator] _ (0x3A :: n1 ::
    n2 :: 0x3A :: s1 :: s2 :: rest) _ _ hhour
  have h14 := @parseFixedInt_append [y1,y2,y3,y4,0x2D,m1,m2,0x2D,d1,d2,separator,h1,h2,0x3A] _
    (0x3A :: s1 :: s2 :: rest) _ _ hminute
  have h17 := @parseFixedInt_append
    [y1,y2,y3,y4,0x2D,m1,m2,0x2D,d1,d2,separator,h1,h2,0x3A,n1,n2,0x3A] _ rest _ _ hsecond
  simp only [List.cons_append, List.nil_append, List.length_cons, List.length_nil, Nat.reduceAdd]
    at h4 h5 h8 h11 h14 h17
  have htext : fieldText [y1,y2,y3,y4] [m1,m2] [d1,d2] separator [h1,h2] [n1,n2] [s1,s2] rest =
      y1 :: y2 :: y3 :: y4 :: 0x2D :: m1 :: m2 :: 0x2D :: d1 :: d2 :: separator :: h1 :: h2 ::
        0x3A :: n1 :: n2 :: 0x3A :: s1 :: s2 :: rest := rfl
  rw [htext]
  rcases List.mem_pair.mp hseparator with rfl | rfl
  · simp [parseCivil, h4, h5, h8, h11, h14, h17, hasByte]
  · simp [parseCivil, h4, h5, h8, h11, h14, h17, hasByte]

theorem fieldText_length {year month day hour minute second : ByteString} {separator : UInt8}
    (hyear : year.length = 4) (hmonth : month.length = 2) (hday : day.length = 2)
    (hhour : hour.length = 2) (hminute : minute.length = 2) (hsecond : second.length = 2) :
    (fieldText year month day separator hour minute second []).length = 19 := by
  simp only [fieldText, List.length_append, List.length_cons, List.length_nil, hyear, hmonth, hday,
    hhour, hminute, hsecond]

theorem fieldText_append (year month day hour minute second rest : ByteString)
    (separator : UInt8) :
    fieldText year month day separator hour minute second rest =
      fieldText year month day separator hour minute second [] ++ rest := by
  simp only [fieldText, List.append_assoc, List.cons_append, List.append_nil]

/-- The fixed part is nineteen bytes, from which the fields are read. -/
theorem parseCivil_civilText {civil : CivilTime} (h : civil.Fits) (rest : ByteString) :
    (civilText civil).length = 19 ∧ parseCivil (civilText civil ++ rest) = some civil := by
  have hyear := fixedDigits_padded (by decide : 0 < 4) h.year.1 h.year.2
  have hmonth := fixedDigits_padded (by decide : 0 < 2) h.month.1 h.month.2
  have hday := fixedDigits_padded (by decide : 0 < 2) h.day.1 h.day.2
  have hhour := fixedDigits_padded (by decide : 0 < 2) h.hour.1 h.hour.2
  have hminute := fixedDigits_padded (by decide : 0 < 2) h.minute.1 h.minute.2
  have hsecond := fixedDigits_padded (by decide : 0 < 2) h.second.1 h.second.2
  have htext : civilText civil = fieldText (padded 4 civil.year) (padded 2 civil.month)
      (padded 2 civil.day) 0x54 (padded 2 civil.hour) (padded 2 civil.minute)
      (padded 2 civil.second) [] := by
    simp only [civilText, fieldText, List.append_assoc, List.cons_append, List.nil_append,
      List.append_nil]
  rw [htext, ← fieldText_append]
  exact ⟨fieldText_length hyear.length hmonth.length hday.length hhour.length hminute.length
      hsecond.length,
    parseCivil_fieldText hyear hmonth hday (by decide) hhour hminute hsecond rest⟩

theorem valueOfDigits_append_zeros (text : ByteString) (count : ℕ) :
    Json.valueOfDigits (text ++ List.replicate count 0x30) =
      Json.valueOfDigits text * 10 ^ count := by
  induction count with
  | zero => rw [List.replicate_zero, List.append_nil, pow_zero, mul_one]
  | succ count ih =>
    rw [Json.valueOfDigits] at ih
    rw [Json.valueOfDigits, List.replicate_succ', ← List.append_assoc, List.foldl_append, ih,
      List.foldl_cons, List.foldl_nil, pow_succ]
    show 10 * (Json.valueOfDigits text * 10 ^ count) = Json.valueOfDigits text * (10 ^ count * 10)
    rw [mul_comm, mul_assoc]

/-- What is cut off is zeros. -/
theorem exists_trimZeros {text : ByteString} (h : text ≠ []) :
    trimZeros text ≠ [] ∧ ∃ count, text = trimZeros text ++ List.replicate count 0x30 := by
  cases text with
  | nil => exact absurd rfl h
  | cons digit digits =>
    refine ⟨List.cons_ne_nil _ _,(digits.rtakeWhile (· = 0x30)).length,?_⟩
    have hzeros : digits.rtakeWhile (· = 0x30) =
        List.replicate (digits.rtakeWhile (· = 0x30)).length 0x30 :=
      List.eq_replicate_of_mem (fun c hc => by simpa using List.mem_rtakeWhile_imp hc)
    rw [trimZeros, List.cons_append, ← hzeros, List.rdropWhile_append_rtakeWhile]

theorem parseFraction_fractionText {fraction : ℤ} (h0 : 0 ≤ fraction)
    (h : fraction < 1000000000) :
    parseFraction (fractionText fraction ++ [0x5A]) = .ok (fraction,[0x5A]) := by
  by_cases hzero : fraction = 0
  · rw [hzero]
    rfl
  · obtain ⟨hlength,hdigits,hvalue⟩ := fixedDigits_padded (by decide : 0 < 9) h0 h
    rw [fractionText, if_neg hzero]
    generalize padded 9 fraction = text at *
    have hne : text ≠ [] := List.ne_nil_of_length_pos (by omega)
    obtain ⟨htrim,count,htext⟩ := exists_trimZeros hne
    rw [htext] at hdigits hlength hvalue
    rw [List.length_append, List.length_replicate] at hlength
    rw [valueOfDigits_append_zeros] at hvalue
    have hall := (List.forall_mem_append.mp hdigits).1
    have htake : (trimZeros text ++ [0x5A]).takeWhile Json.isDigit = trimZeros text := by
      rw [List.takeWhile_append_of_pos hall]
      exact List.append_nil _
    have hdrop : (trimZeros text ++ [0x5A]).dropWhile Json.isDigit = [0x5A] :=
      List.dropWhile_append_of_pos hall
    have hnine : (trimZeros text).take 9 = trimZeros text := List.take_of_length_le (by omega)
    have hcount : 9 - (trimZeros text).length = count := by omega
    have hnonempty : (!(trimZeros text).isEmpty) = true := by
      rwa [Bool.not_eq_true', List.isEmpty_eq_false_iff]
    push_cast at hvalue
    simp only [List.cons_append, parseFraction, htake, hdrop, hnine, hcount, hnonempty, hvalue]
    rfl

theorem daysInMonth_le (year : ℤ) {month : ℤ} (h0 : 1 ≤ month) (h : month ≤ 12) :
    daysInMonth year month ≤ 31 := by
  unfold daysInMonth
  split_ifs
  · decide
  · interval_cases month <;> decide

/-- The fields of an instant are in their ranges and denote it. -/
theorem civilOfSeconds_spec {seconds : ℤ} (h0 : -10 ^ 10 ≤ seconds) (h : seconds ≤ 10 ^ 10) :
    (civilOfSeconds seconds).Fits ∧ (civilOfSeconds seconds).inRange = true ∧
      (civilOfSeconds seconds).seconds = seconds := by
  have hera : 0 ≤ eraOf (seconds / 86400) ∧ eraOf (seconds / 86400) ≤ 5 := by
    unfold eraOf
    omega
  have hdenotes := daysFromCivil_eq (seconds / 86400)
  obtain ⟨hyear0,hyear,hmonth0,hmonth,hdate0,hdate⟩ := civilFromDays_bounds (seconds / 86400)
  have hlast := daysInMonth_le (civilFromDays (seconds / 86400)).1 hmonth0 hmonth
  have hrest0 := Int.emod_nonneg seconds (by decide : (86400 : ℤ) ≠ 0)
  have hrest := Int.emod_lt_of_pos seconds (by decide : (0 : ℤ) < 86400)
  have hminutes0 := Int.emod_nonneg (seconds % 86400) (by decide : (3600 : ℤ) ≠ 0)
  simp only [civilOfSeconds, floorSplit_eq seconds (by decide : (0 : ℤ) < 86400),
    Int.tmod_eq_emod_of_nonneg hrest0, Int.tdiv_eq_ediv_of_nonneg hrest0,
    Int.tdiv_eq_ediv_of_nonneg hminutes0]
  generalize civilFromDays (seconds / 86400) = civil at *
  obtain ⟨year,month,day⟩ := civil
  dsimp only at *
  refine ⟨?_,?_,?_⟩
  · constructor
    all_goals
      dsimp only
      omega
  · simp only [CivilTime.inRange, Bool.not_eq_true', Bool.or_eq_false_iff, decide_eq_false_iff_not,
      not_lt]
    omega
  · simp only [CivilTime.seconds, hdenotes]
    omega

end Rfc3339

namespace TimePoint

theorem eq_unset {point : TimePoint} (h : ¬ point.isSet = true) : point = {} := by
  rw [isSet, bne_iff_ne, not_not] at h
  exact TimePoint.ext h

/-- The text of an instant that is set. -/
theorem toRfc3339_of_isSet {point : TimePoint} (h : point.isSet = true) :
    point.toRfc3339 =
      Rfc3339.civilText (Rfc3339.civilOfSeconds (point.unixNanos.toInt / 1000000000)) ++
        Rfc3339.fractionText (point.unixNanos.toInt % 1000000000) ++ [0x5A] := by
  rw [toRfc3339, if_pos h, Rfc3339.floorSplit_eq _ (by decide)]

/-- An instant that is set is read back from its text. -/
theorem parse_toRfc3339 {point : TimePoint} (h : point.isSet = true) :
    parseRfc3339 point.toRfc3339 = .ok point := by
  have hle := point.unixNanos.le_toInt
  have hlt := point.unixNanos.toInt_lt
  obtain ⟨hfits,hrange,hseconds⟩ := @Rfc3339.civilOfSeconds_spec
    (point.unixNanos.toInt / 1000000000) (by omega) (by omega)
  have hfraction := @Rfc3339.parseFraction_fractionText (point.unixNanos.toInt % 1000000000)
    (by omega) (by omega)
  have hnanos : point.unixNanos.toInt / 1000000000 * 1000000000 +
      point.unixNanos.toInt % 1000000000 = point.unixNanos.toInt := by omega
  rw [toRfc3339_of_isSet h, List.append_assoc]
  generalize Rfc3339.fractionText (point.unixNanos.toInt % 1000000000) = fraction at *
  obtain ⟨hlength,hcivil⟩ := Rfc3339.parseCivil_civilText hfits (fraction ++ [0x5A])
  have hdrop : (Rfc3339.civilText (Rfc3339.civilOfSeconds (point.unixNanos.toInt / 1000000000)) ++
      (fraction ++ [0x5A])).drop 19 = fraction ++ [0x5A] := by
    rw [← hlength, List.drop_left]
  have hlong : 20 ≤ (Rfc3339.civilText
      (Rfc3339.civilOfSeconds (point.unixNanos.toInt / 1000000000)) ++
        (fraction ++ [0x5A])).length := by
    simp only [List.length_append, List.length_singleton, hlength]
    omega
  simp only [parseRfc3339, hlong, hcivil, hdrop, hrange, hfraction, hseconds, decide_true, require,
    if_true]
  show Except.ok (⟨Int64.ofInt (point.unixNanos.toInt / 1000000000 * 1000000000 +
    point.unixNanos.toInt % 1000000000)⟩ : TimePoint) = .ok point
  rw [hnanos, Int64.ofInt_toInt]

/-- The text of an instant that was never set is no timestamp. -/
theorem parse_unset {point : TimePoint} (h : point.isSet = false) :
    parseRfc3339 point.toRfc3339 =
      .error { code := .invalidFormat, message := "timestamp is too short for RFC 3339" } := by
  have hshort : decide (20 ≤ (bytesOf "unset").length) = false := by decide +kernel
  rw [toRfc3339, if_neg (by rw [h]; decide), parseRfc3339, hshort]
  rfl

end TimePoint

end PathObservatory
