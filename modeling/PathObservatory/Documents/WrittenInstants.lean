import PathObservatory.Documents.CivilDates
import PathObservatory.Documents.TimestampFields
import PathObservatory.Library.Calendar

/-! # The instants that texts denote

A timestamp is written with the digits of a date, of a time of day and of a fraction.
It denotes the nanoseconds that have passed since the first of January 1970, by the
count of the days of the calendar. What is parsed is that number, where it fits.
-/
namespace PathObservatory
open Rfc3339

/-- A time as it is written; no digits are the absence of a fraction. -/
structure WrittenTime where
  year : ℕ
  month : ℕ
  day : ℕ
  hour : ℕ
  minute : ℕ
  second : ℕ
  fraction : ByteString
deriving DecidableEq

namespace WrittenTime

/-- A date of the calendar and a time of the day, of which the last minute may have
a second more. -/
structure InCalendar (w : WrittenTime) : Prop where
  month : 1 ≤ w.month ∧ w.month ≤ 12
  day : 1 ≤ w.day ∧ w.day ≤ Calendar.monthLength w.year w.month
  hour : w.hour ≤ 23
  minute : w.minute ≤ 59
  second : w.second ≤ 60

/-- The days since the first of January 1970. -/
def days (w : WrittenTime) : ℤ :=
  Calendar.dayCount w.year w.month w.day - Calendar.dayCount 1970 1 1

def seconds (w : WrittenTime) : ℤ :=
  w.days * 86400 + w.hour * 3600 + w.minute * 60 + w.second

/-- The whole nanoseconds in the fraction. -/
def fractionNanos (w : WrittenTime) : ℕ :=
  Json.valueOfDigits w.fraction * 10 ^ 9 / 10 ^ w.fraction.length

def instant (w : WrittenTime) : ℤ := w.seconds * 1000000000 + w.fractionNanos

def civil (w : WrittenTime) : CivilTime where
  year := w.year
  month := w.month
  day := w.day
  hour := w.hour
  minute := w.minute
  second := w.second

/-- The fraction with its point. -/
def fractionPart : ByteString → ByteString
  | [] => []
  | digits => 0x2E :: digits

/-- The text spells the time. -/
structure Spells (text : ByteString) (w : WrittenTime) : Prop where
  digits : ∀ c ∈ w.fraction, Json.isDigit c = true
  parts : ∃ year month day separator hour minute second zone,
    text = fieldText year month day separator hour minute second
      (fractionPart w.fraction ++ [zone]) ∧
    FixedDigits 4 w.year year ∧ FixedDigits 2 w.month month ∧ FixedDigits 2 w.day day ∧
    separator ∈ ([0x54,0x74] : ByteString) ∧ FixedDigits 2 w.hour hour ∧
    FixedDigits 2 w.minute minute ∧ FixedDigits 2 w.second second ∧
    zone ∈ ([0x5A,0x7A] : ByteString)

end WrittenTime

/-- The text is a timestamp of the calendar, for this many nanoseconds. -/
def Denotes (text : ByteString) (instant : ℤ) : Prop :=
  ∃ w : WrittenTime, w.InCalendar ∧ w.Spells text ∧ w.instant = instant

section Days

theorem isLeapYear_eq (year : ℕ) : isLeapYear year = true ↔ Calendar.IsLeap year := by
  rw [isLeapYear_iff, Calendar.IsLeap]
  omega

theorem daysInMonth_eq (year : ℕ) {month : ℕ} (h : 1 ≤ month ∧ month ≤ 12) :
    daysInMonth year month = Calendar.monthLength year month := by
  obtain ⟨h1,h12⟩ := h
  unfold daysInMonth
  by_cases hleap : Calendar.IsLeap year
  · have hsource := (isLeapYear_eq year).mpr hleap
    interval_cases month <;> simp [Calendar.monthLength, hleap, hsource, kDays]
  · have hsource := mt (isLeapYear_eq year).mp hleap
    interval_cases month <;> simp [Calendar.monthLength, hleap, hsource, kDays]

/-- The days before a year, by the years that start in March. -/
theorem daysBeforeYear_eq_yearStart (year : ℕ) :
    (Calendar.daysBeforeYear year : ℤ) = Gregorian.yearStart (year - 1) + 366 := by
  have hyears := Calendar.daysBeforeYear_eq year
  unfold Gregorian.yearStart Gregorian.daysBefore
  omega

theorem yearStart_eq (year : ℕ) : Gregorian.yearStart year =
    Gregorian.yearStart (year - 1) + 365 + if Calendar.IsLeap year then 1 else 0 := by
  have hstep := Gregorian.yearStart_succ (year - 1)
  rw [sub_add_cancel] at hstep
  rw [hstep]
  congr 1
  exact if_congr ((isLeapYear_iff year).symm.trans (isLeapYear_eq year)) rfl rfl

/-- The source counts the days that the calendar has. -/
theorem daysFromCivil_eq_dayCount {year month day : ℕ} (hmonth : 1 ≤ month ∧ month ≤ 12)
    (hday : 1 ≤ day) : daysFromCivil year month day =
      (Calendar.dayCount year month day : ℤ) - Calendar.dayCount 1970 1 1 := by
  obtain ⟨h1,h12⟩ := hmonth
  have hepoch : Calendar.dayCount 1970 1 1 = 719528 := by
    have hyears := Calendar.daysBeforeYear_eq 1970
    rw [Calendar.dayCount, Calendar.daysBeforeMonth_early 1970 (by decide) (by decide)]
    omega
  have hyears := daysBeforeYear_eq_yearStart year
  rw [daysFromCivil_eq_linear _ _ (by omega), hepoch, Calendar.dayCount, Gregorian.daysBeforeMonth]
  by_cases hearly : month ≤ 2
  · have hyear : marchYear year month = year - 1 := by rw [marchYear, if_pos (by omega)]
    rw [Calendar.daysBeforeMonth_early year h1 hearly, hyear, marchMonth, if_neg (by omega)]
    interval_cases month <;> omega
  · have hyear : marchYear year month = year := by rw [marchYear, if_neg (by omega), sub_zero]
    have hleap := yearStart_eq year
    rw [Calendar.daysBeforeMonth_late year (by omega) h12, hyear, marchMonth, if_pos (by omega)]
    split_ifs at hleap ⊢ <;> omega

end Days

namespace WrittenTime

theorem inRange_iff {civil : CivilTime} : civil.inRange = true ↔
    (1 ≤ civil.month ∧ civil.month ≤ 12) ∧
      (1 ≤ civil.day ∧ civil.day ≤ daysInMonth civil.year civil.month) ∧
      civil.hour ≤ 23 ∧ civil.minute ≤ 59 ∧ civil.second ≤ 60 := by
  simp only [CivilTime.inRange, Bool.not_eq_true', Bool.or_eq_false_iff, decide_eq_false_iff_not,
    not_lt, and_assoc]

theorem inRange_civil (w : WrittenTime) : w.civil.inRange = true ↔ w.InCalendar := by
  rw [inRange_iff]
  constructor
  · rintro ⟨⟨hmonth1,hmonth12⟩,⟨hday1,hday⟩,hhour,hminute,hsecond⟩
    have hmonth : 1 ≤ w.month ∧ w.month ≤ 12 := ⟨Int.ofNat_le.mp hmonth1,Int.ofNat_le.mp hmonth12⟩
    have hdays : (w.day : ℤ) ≤ daysInMonth w.year w.month := hday
    rw [daysInMonth_eq w.year hmonth] at hdays
    exact ⟨hmonth,⟨Int.ofNat_le.mp hday1,Int.ofNat_le.mp hdays⟩,Int.ofNat_le.mp hhour,
      Int.ofNat_le.mp hminute,Int.ofNat_le.mp hsecond⟩
  · rintro ⟨hmonth,hday,hhour,hminute,hsecond⟩
    have hdays : (w.day : ℤ) ≤ daysInMonth w.year w.month := by
      rw [daysInMonth_eq w.year hmonth]
      exact Int.ofNat_le.mpr hday.2
    exact ⟨⟨Int.ofNat_le.mpr hmonth.1,Int.ofNat_le.mpr hmonth.2⟩,⟨Int.ofNat_le.mpr hday.1,hdays⟩,
      Int.ofNat_le.mpr hhour,Int.ofNat_le.mpr hminute,Int.ofNat_le.mpr hsecond⟩

theorem seconds_civil {w : WrittenTime} (h : w.InCalendar) : w.civil.seconds = w.seconds := by
  have hdays : daysFromCivil w.civil.year w.civil.month w.civil.day = w.days :=
    daysFromCivil_eq_dayCount h.month h.day.1
  rw [CivilTime.seconds, hdays]
  rfl

end WrittenTime

section Fractions

theorem valueOfDigits_append (front back : ByteString) :
    Json.valueOfDigits (front ++ back) =
      Json.valueOfDigits front * 10 ^ back.length + Json.valueOfDigits back := by
  induction back using List.reverseRecOn with
  | nil => simp [Json.valueOfDigits]
  | append_singleton back digit ih =>
    have hstep : ∀ text : ByteString, Json.valueOfDigits (text ++ [digit]) =
        10 * Json.valueOfDigits text + (digit.toNat - 0x30) := by
      intro text
      simp [Json.valueOfDigits, List.foldl_append]
    rw [← List.append_assoc, hstep, hstep, ih, List.length_append, List.length_singleton, pow_succ]
    ring

theorem valueOfDigits_lt {text : ByteString} (h : ∀ c ∈ text, Json.isDigit c = true) :
    Json.valueOfDigits text < 10 ^ text.length := by
  induction text using List.reverseRecOn with
  | nil => decide
  | append_singleton front digit ih =>
    obtain ⟨hfront,hdigit⟩ := List.forall_mem_append.mp h
    have hlt := ih hfront
    have hlast : Json.valueOfDigits [digit] < 10 := by
      have hle := (Json.isDigit_iff.mp (hdigit digit (List.mem_singleton_self digit))).2
      simp only [UInt8.le_iff_toNat_le, UInt8.reduceToNat] at hle
      have hvalue : Json.valueOfDigits [digit] = digit.toNat - 0x30 := by simp [Json.valueOfDigits]
      omega
    rw [valueOfDigits_append, List.length_append, List.length_singleton, pow_add]
    omega

/-- Nine digits of a fraction, made up to nine, are its whole nanoseconds. -/
theorem nanos_of_nine {digits : ByteString} (h : ∀ c ∈ digits, Json.isDigit c = true) :
    Json.valueOfDigits (digits.take 9) * 10 ^ (9 - (digits.take 9).length) =
      Json.valueOfDigits digits * 10 ^ 9 / 10 ^ digits.length := by
  by_cases hshort : digits.length ≤ 9
  · rw [List.take_of_length_le hshort]
    have hpow : 10 ^ 9 = 10 ^ (9 - digits.length) * 10 ^ digits.length := by
      rw [← pow_add, Nat.sub_add_cancel hshort]
    rw [hpow, ← mul_assoc, Nat.mul_div_cancel _ (Nat.pow_pos (by decide))]
  · have hlength : (digits.take 9).length = 9 := List.length_take_of_le (by omega)
    have hback : (digits.drop 9).length = digits.length - 9 := List.length_drop
    have hlt : Json.valueOfDigits (digits.drop 9) < 10 ^ (digits.drop 9).length :=
      valueOfDigits_lt fun c hc => h c (List.mem_of_mem_drop hc)
    have hpow : 10 ^ digits.length = 10 ^ (digits.drop 9).length * 10 ^ 9 := by
      rw [← pow_add, hback, Nat.sub_add_cancel (by omega)]
    have hvalue : Json.valueOfDigits digits =
        Json.valueOfDigits (digits.take 9) * 10 ^ (digits.drop 9).length +
          Json.valueOfDigits (digits.drop 9) := by
      rw [← valueOfDigits_append, List.take_append_drop]
    rw [hlength, hpow, Nat.mul_div_mul_right _ _ (by decide), hvalue, Nat.sub_self, pow_zero,
      mul_one, Nat.add_comm, Nat.add_mul_div_right _ _ (Nat.pow_pos (by decide)),
      Nat.div_eq_of_lt hlt, Nat.zero_add]

/-- A fraction that is read has digits, of which the whole nanoseconds are taken, and
the zone stands behind it. -/
theorem parseFraction_sound {rest tail : ByteString} {fraction : ℤ}
    (h : parseFraction rest = .ok (fraction,tail)) (hzone : hasByte tail 0 [0x5A,0x7A] = true)
    (hlast : tail.length ≤ 1) :
    ∃ digits zone, rest = WrittenTime.fractionPart digits ++ [zone] ∧
      (∀ c ∈ digits, Json.isDigit c = true) ∧ zone ∈ ([0x5A,0x7A] : ByteString) ∧
      fraction = (Json.valueOfDigits digits * 10 ^ 9 / 10 ^ digits.length : ℕ) := by
  have htail : ∃ zone ∈ ([0x5A,0x7A] : ByteString), tail = [zone] := by
    match tail, hlast with
    | [], _ => cases hzone
    | [zone], _ => exact ⟨zone,List.contains_iff_mem.mp hzone,rfl⟩
  obtain ⟨zone,hmem,rfl⟩ := htail
  unfold parseFraction at h
  split at h
  · next digits =>
    rw [require_bind_eq_ok, pure_eq_ok, Prod.mk.injEq] at h
    obtain ⟨hne,hfraction,hdrop⟩ := h
    have hall : ∀ c ∈ digits.takeWhile Json.isDigit, Json.isDigit c = true :=
      fun c hc => List.mem_takeWhile_imp hc
    have hdigits : digits.takeWhile Json.isDigit ≠ [] := by
      intro hnil
      rw [hnil] at hne
      cases hne
    refine ⟨digits.takeWhile Json.isDigit,zone,?_,hall,hmem,?_⟩
    · obtain ⟨first,others,hcons⟩ := List.exists_cons_of_ne_nil hdigits
      have hsplit := List.takeWhile_append_dropWhile (p := Json.isDigit) (l := digits)
      rw [hdrop, hcons] at hsplit
      rw [hcons, ← hsplit]
      rfl
    · rw [← hfraction, ← nanos_of_nine hall]
      push_cast
      rfl
  · rw [pure_eq_ok, Prod.mk.injEq] at h
    obtain ⟨rfl,rfl⟩ := h
    exact ⟨[],zone,rfl,nofun,hmem,rfl⟩

theorem parseFraction_complete {digits : ByteString} {zone : UInt8}
    (hdigits : ∀ c ∈ digits, Json.isDigit c = true) (hzone : zone ∈ ([0x5A,0x7A] : ByteString)) :
    parseFraction (WrittenTime.fractionPart digits ++ [zone]) =
      .ok (((Json.valueOfDigits digits * 10 ^ 9 / 10 ^ digits.length : ℕ) : ℤ),[zone]) := by
  have hnodigit : Json.isDigit zone = false := by
    rcases List.mem_pair.mp hzone with rfl | rfl <;> decide
  cases hcons : digits with
  | nil => rcases List.mem_pair.mp hzone with rfl | rfl <;> rfl
  | cons first others =>
    have htake : (digits ++ [zone]).takeWhile Json.isDigit = digits := by
      rw [List.takeWhile_append_of_pos hdigits, List.takeWhile_cons_of_neg (by simp [hnodigit]),
        List.append_nil]
    have hdrop : (digits ++ [zone]).dropWhile Json.isDigit = [zone] := by
      rw [List.dropWhile_append_of_pos hdigits, List.dropWhile_cons_of_neg (by simp [hnodigit])]
    have hnine := nanos_of_nine hdigits
    have hpart : WrittenTime.fractionPart (first :: others) = 0x2E :: digits := by
      rw [hcons]
      rfl
    have hnonempty : (!(digits.take 9).isEmpty) = true := by
      rw [hcons]
      rfl
    rw [← hcons, ← hnine, hcons, hpart, ← hcons]
    simp only [List.cons_append, parseFraction, htake, hdrop, hnonempty]
    push_cast
    rfl

end Fractions

section Fields

theorem parseFixedInt_sound {text : ByteString} {offset count : ℕ} {value : ℤ}
    (h : parseFixedInt text offset count = some value) :
    ∃ digits, FixedDigits count value digits ∧
      text.drop offset = digits ++ text.drop (offset + count) := by
  unfold parseFixedInt at h
  dsimp only at h
  split_ifs at h with hshort hall
  refine ⟨(text.drop offset).take count,⟨?_,List.all_eq_true.mp hall,Option.some.inj h⟩,?_⟩
  · rw [List.length_take, List.length_drop]
    omega
  · rw [← List.drop_drop, List.take_append_drop]

theorem exists_of_hasByte {text bytes : ByteString} {offset : ℕ} (hlength : offset < text.length)
    (h : hasByte text offset bytes = true) :
    ∃ c ∈ bytes, text.drop offset = c :: text.drop (offset + 1) := by
  refine ⟨text[offset],?_,List.drop_eq_getElem_cons hlength⟩
  rw [hasByte, List.getD_eq_getElem _ _ hlength] at h
  exact List.contains_iff_mem.mp h

theorem guard_eq_some {p : Prop} [Decidable p] {u : Unit} :
    (guard p : Option Unit) = some u ↔ p := by
  simp [guard]

/-- Where the fields are read, the text has their digits and the separators. -/
theorem parseCivil_sound {text : ByteString} {civil : CivilTime}
    (h : parseCivil text = some civil) (hlength : 20 ≤ text.length) :
    ∃ year month day separator hour minute second,
      text = fieldText year month day separator hour minute second (text.drop 19) ∧
      FixedDigits 4 civil.year year ∧ FixedDigits 2 civil.month month ∧
      FixedDigits 2 civil.day day ∧ separator ∈ ([0x54,0x74] : ByteString) ∧
      FixedDigits 2 civil.hour hour ∧ FixedDigits 2 civil.minute minute ∧
      FixedDigits 2 civil.second second := by
  simp only [parseCivil, Option.bind_eq_bind, Option.bind_eq_some_iff, guard_eq_some,
    Option.pure_def, Option.some.injEq] at h
  obtain ⟨_,hyear,-,h4,_,hmonth,-,h7,_,hday,-,h10,_,hhour,-,h13,_,hminute,-,h16,_,hsecond,rfl⟩ := h
  obtain ⟨year,hyear,hcut4⟩ := parseFixedInt_sound hyear
  obtain ⟨a,ha,hcut5⟩ := exists_of_hasByte (by omega) h4
  obtain ⟨month,hmonth,hcut7⟩ := parseFixedInt_sound hmonth
  obtain ⟨b,hb,hcut8⟩ := exists_of_hasByte (by omega) h7
  obtain ⟨day,hday,hcut10⟩ := parseFixedInt_sound hday
  obtain ⟨separator,hseparator,hcut11⟩ := exists_of_hasByte (by omega) h10
  obtain ⟨hour,hhour,hcut13⟩ := parseFixedInt_sound hhour
  obtain ⟨c,hc,hcut14⟩ := exists_of_hasByte (by omega) h13
  obtain ⟨minute,hminute,hcut16⟩ := parseFixedInt_sound hminute
  obtain ⟨d,hd,hcut17⟩ := exists_of_hasByte (by omega) h16
  obtain ⟨second,hsecond,hcut19⟩ := parseFixedInt_sound hsecond
  refine ⟨year,month,day,separator,hour,minute,second,?_,hyear,hmonth,hday,hseparator,hhour,
    hminute,hsecond⟩
  rw [List.mem_singleton] at ha hb hc hd
  subst ha hb hc hd
  calc text = text.drop 0 := rfl
    _ = fieldText year month day separator hour minute second (text.drop 19) := by
      simp only [hcut4, hcut5, hcut7, hcut8, hcut10, hcut11, hcut13, hcut14, hcut16, hcut17, hcut19,
        fieldText, Nat.zero_add, Nat.reduceAdd]

end Fields

/-- The accepted texts are those that spell a time of the calendar. -/
theorem accepts_iff {text : ByteString} {civil : CivilTime} {fraction : ℤ} :
    Accepts text civil fraction ↔
      ∃ w : WrittenTime, w.InCalendar ∧ w.Spells text ∧ civil = w.civil ∧
        fraction = w.fractionNanos := by
  constructor
  · rintro ⟨hlength,hfields,hrange,tail,hrest,hzone,hlast⟩
    obtain ⟨year,month,day,separator,hour,minute,second,htext,hyear,hmonth,hday,hseparator,hhour,
      hminute,hsecond⟩ := parseCivil_sound hfields hlength
    obtain ⟨digits,zone,hdrop,hdigits,hmem,hfraction⟩ := parseFraction_sound hrest hzone hlast
    let w : WrittenTime :=
      { year := Json.valueOfDigits year, month := Json.valueOfDigits month,
        day := Json.valueOfDigits day, hour := Json.valueOfDigits hour,
        minute := Json.valueOfDigits minute, second := Json.valueOfDigits second,
        fraction := digits }
    have hcivil : civil = w.civil := by
      cases civil
      simp only [CivilTime.mk.injEq, WrittenTime.civil]
      exact ⟨hyear.value.symm,hmonth.value.symm,hday.value.symm,hhour.value.symm,
        hminute.value.symm,hsecond.value.symm⟩
    rw [hdrop] at htext
    refine ⟨w,(WrittenTime.inRange_civil w).mp (hcivil ▸ hrange),⟨hdigits,year,month,day,separator,
      hour,minute,second,zone,htext,?_,?_,?_,hseparator,?_,?_,?_,hmem⟩,hcivil,hfraction⟩
    · exact ⟨hyear.length,hyear.digits,rfl⟩
    · exact ⟨hmonth.length,hmonth.digits,rfl⟩
    · exact ⟨hday.length,hday.digits,rfl⟩
    · exact ⟨hhour.length,hhour.digits,rfl⟩
    · exact ⟨hminute.length,hminute.digits,rfl⟩
    · exact ⟨hsecond.length,hsecond.digits,rfl⟩
  · rintro ⟨w,hcalendar,⟨hdigits,year,month,day,separator,hour,minute,second,zone,rfl,hyear,hmonth,
      hday,hseparator,hhour,hminute,hsecond,hzone⟩,rfl,rfl⟩
    have hfixed : (fieldText year month day separator hour minute second []).length = 19 :=
      fieldText_length hyear.length hmonth.length hday.length hhour.length hminute.length
        hsecond.length
    have hdrop : (fieldText year month day separator hour minute second
        (WrittenTime.fractionPart w.fraction ++ [zone])).drop 19 =
        WrittenTime.fractionPart w.fraction ++ [zone] := by
      rw [fieldText_append, ← hfixed, List.drop_left]
    refine ⟨?_,?_,(WrittenTime.inRange_civil w).mpr hcalendar,[zone],?_,?_,le_refl _⟩
    · rw [fieldText_append, List.length_append, hfixed, List.length_append, List.length_singleton]
      omega
    · exact @parseCivil_fieldText w.civil _ _ _ _ _ _ _ hyear hmonth hday hseparator hhour hminute
        hsecond _
    · rw [hdrop, parseFraction_complete hdigits hzone]
      rfl
    · exact List.contains_iff_mem.mpr hzone

namespace TimePoint

theorem denotes_iff {text : ByteString} {instant : ℤ} : Denotes text instant ↔
    ∃ civil fraction, Accepts text civil fraction ∧
      civil.seconds * 1000000000 + fraction = instant := by
  constructor
  · rintro ⟨w,hcalendar,hspells,rfl⟩
    refine ⟨w.civil,w.fractionNanos,accepts_iff.mpr ⟨w,hcalendar,hspells,rfl,rfl⟩,?_⟩
    rw [WrittenTime.seconds_civil hcalendar, WrittenTime.instant]
  · rintro ⟨civil,fraction,haccepts,rfl⟩
    obtain ⟨w,hcalendar,hspells,rfl,rfl⟩ := accepts_iff.mp haccepts
    refine ⟨w,hcalendar,hspells,?_⟩
    rw [WrittenTime.seconds_civil hcalendar, WrittenTime.instant]

/-- A text denotes one instant. -/
theorem denotes_unique {text : ByteString} {a b : ℤ} (ha : Denotes text a) (hb : Denotes text b) :
    a = b := by
  obtain ⟨civil,fraction,haccepts,rfl⟩ := denotes_iff.mp ha
  obtain ⟨other,rest,hother,rfl⟩ := denotes_iff.mp hb
  obtain ⟨rfl,rfl⟩ := haccepts.unique hother
  rfl

/-- What is parsed is the denoted instant, reduced to the word of the machine. -/
theorem parseRfc3339_eq_ok_iff {text : ByteString} {point : TimePoint} :
    parseRfc3339 text = .ok point ↔
      ∃ instant, Denotes text instant ∧ point = ⟨Int64.ofInt instant⟩ := by
  rw [parseRfc3339_eq_ok]
  constructor
  · rintro ⟨civil,fraction,haccepts,rfl⟩
    exact ⟨_,denotes_iff.mpr ⟨civil,fraction,haccepts,rfl⟩,by rw [machineNanos_eq]⟩
  · rintro ⟨instant,hdenotes,rfl⟩
    obtain ⟨civil,fraction,haccepts,rfl⟩ := denotes_iff.mp hdenotes
    exact ⟨civil,fraction,haccepts,by rw [machineNanos_eq]⟩

/-- The text is read as the instant it denotes, or refused. -/
structure ReadsInstant (text : ByteString) : Prop where
  exact : ∀ point, parseRfc3339 text = .ok point → Denotes text point.unixNanos.toInt
  refused : ∀ instant, Denotes text instant → ¬ (-2 ^ 63 ≤ instant ∧ instant < 2 ^ 63) →
    ∃ error, parseRfc3339 text = .error error
  set : ∀ point, parseRfc3339 text = .ok point → point.isSet = true

/-- A word that stands for an integer strictly above the least word is set. -/
theorem isSet_of_ofInt {instant : ℤ} (hlow : -2 ^ 63 < instant) (hhigh : instant < 2 ^ 63) :
    (Int64.ofInt instant).toInt = instant ∧
      (⟨Int64.ofInt instant⟩ : TimePoint).isSet = true := by
  have hread : (Int64.ofInt instant).toInt = instant :=
    Int64.toInt_ofInt_of_le hlow.le hhigh
  refine ⟨hread,?_⟩
  rw [isSet, bne_iff_ne]
  intro hunset
  have hunset : Int64.ofInt instant = kUnsetTimeNanos := hunset
  rw [hunset, kUnsetTimeNanos, Int64.toInt_minValue] at hread
  omega

/-- A text is read as the instant it denotes exactly when that instant fits the
machine, and is not the one that marks an unset time. -/
theorem readsInstant_iff (text : ByteString) :
    ReadsInstant text ↔ ∀ instant, Denotes text instant → -2 ^ 63 < instant ∧ instant < 2 ^ 63 := by
  constructor
  · intro h instant hdenotes
    have hparse : parseRfc3339 text = .ok ⟨Int64.ofInt instant⟩ :=
      parseRfc3339_eq_ok_iff.mpr ⟨instant,hdenotes,rfl⟩
    have hread := denotes_unique (h.exact _ hparse) hdenotes
    have hlow := (Int64.ofInt instant).le_toInt
    have hhigh := (Int64.ofInt instant).toInt_lt
    dsimp only at hread
    rw [hread] at hlow hhigh
    refine ⟨lt_of_le_of_ne hlow fun hleast => ?_,hhigh⟩
    have hset := h.set _ hparse
    rw [← hleast] at hset
    revert hset
    decide
  · intro hfits
    refine ⟨fun point hparse => ?_,fun instant hdenotes hunfit => ?_,fun point hparse => ?_⟩
    · obtain ⟨instant,hdenotes,rfl⟩ := parseRfc3339_eq_ok_iff.mp hparse
      obtain ⟨hlow,hhigh⟩ := hfits instant hdenotes
      rw [(isSet_of_ofInt hlow hhigh).1]
      exact hdenotes
    · obtain ⟨hlow,hhigh⟩ := hfits instant hdenotes
      exact absurd ⟨hlow.le,hhigh⟩ hunfit
    · obtain ⟨instant,hdenotes,rfl⟩ := parseRfc3339_eq_ok_iff.mp hparse
      obtain ⟨hlow,hhigh⟩ := hfits instant hdenotes
      exact (isSet_of_ofInt hlow hhigh).2

/-- The year 2300 does not fit, and its first day is read as one of 1715. -/
theorem year_2300_is_not_refused : ¬ ∀ text, ReadsInstant text := by
  intro h
  have hdenotes : Denotes (bytesOf "2300-01-01T00:00:00Z") 10413792000000000000 := by
    refine ⟨{ year := 2300, month := 1, day := 1, hour := 0, minute := 0, second := 0,
              fraction := [] },⟨by decide,by decide,by decide,by decide,by decide⟩,
      ⟨nofun,bytesOf "2300",bytesOf "01",bytesOf "01",0x54,bytesOf "00",bytesOf "00",bytesOf "00",
        0x5A,by decide +kernel,?_,?_,?_,by decide,?_,?_,?_,by decide⟩,by decide +kernel⟩
    all_goals exact ⟨by decide +kernel,by decide +kernel,by decide +kernel⟩
  obtain ⟨error,herror⟩ := (h _).refused _ hdenotes (by decide)
  have hparse : parseRfc3339 (bytesOf "2300-01-01T00:00:00Z") = .ok ⟨-8032952073709551616⟩ := by
    decide +kernel
  rw [hparse] at herror
  cases herror

end TimePoint

end PathObservatory
