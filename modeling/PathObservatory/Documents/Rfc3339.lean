import Mathlib.Data.List.DropRight
import PathObservatory.Foundation.Time
import PathObservatory.Json.Decimal
import PathObservatory.Library.Gregorian

/-! # Timestamps as text

The accepted shape is `YYYY-MM-DDTHH:MM:SS[.fraction]Z`, in UTC only. An instant
that was never set has a text of its own, which is not of this shape.
-/
namespace PathObservatory

namespace Rfc3339

def isLeapYear (year : ℤ) : Bool :=
  (year.tmod 4 = 0 && year.tmod 100 ≠ 0) || year.tmod 400 = 0

def kDays : List ℤ := [31,28,31,30,31,30,31,31,30,31,30,31]

def daysInMonth (year month : ℤ) : ℤ :=
  if month = 2 ∧ isLeapYear year then 29 else kDays.getD (month - 1).toNat 0

/-- A date with the time of day. -/
structure CivilTime where
  year : ℤ
  month : ℤ
  day : ℤ
  hour : ℤ
  minute : ℤ
  second : ℤ
deriving DecidableEq, Repr

/-- Days since 1970-01-01 for a proleptic Gregorian date. -/
def daysFromCivil (year month day : ℤ) : ℤ :=
  let year := year - if month ≤ 2 then 1 else 0
  let era := (if 0 ≤ year then year else year - 399).tdiv 400
  let yearOfEra := year - era * 400
  let dayOfYear := (153 * (month + if 2 < month then -3 else 9) + 2).tdiv 5 + day - 1
  let dayOfEra := yearOfEra * 365 + yearOfEra.tdiv 4 - yearOfEra.tdiv 100 + dayOfYear
  era * 146097 + dayOfEra - 719468

/-- Year, month and day. -/
def civilFromDays (days : ℤ) : ℤ × ℤ × ℤ :=
  let z := days + 719468
  let era := (if 0 ≤ z then z else z - 146096).tdiv 146097
  let dayOfEra := z - era * 146097
  let yearOfEra := (dayOfEra - dayOfEra.tdiv 1460 + dayOfEra.tdiv 36524 -
    dayOfEra.tdiv 146096).tdiv 365
  let y := yearOfEra + era * 400
  let dayOfYear := dayOfEra - (365 * yearOfEra + yearOfEra.tdiv 4 - yearOfEra.tdiv 100)
  let mp := (5 * dayOfYear + 2).tdiv 153
  let d := dayOfYear - (153 * mp + 2).tdiv 5 + 1
  let m := mp + if mp < 10 then 3 else -9
  (y + (if m ≤ 2 then 1 else 0),m,d)

/-- The integer that the given digits of the text make. -/
def parseFixedInt (text : ByteString) (offset count : ℕ) : Option ℤ :=
  if text.length < offset + count then none
  else
    let digits := (text.drop offset).take count
    if digits.all Json.isDigit then some (Json.valueOfDigits digits) else none

def hasByte (text : ByteString) (offset : ℕ) (bytes : ByteString) : Bool :=
  bytes.contains (text.getD offset 0)

/-- The fields of the fixed part of the text. -/
def parseCivil (text : ByteString) : Option CivilTime := do
  let year ← parseFixedInt text 0 4
  guard (hasByte text 4 [0x2D])
  let month ← parseFixedInt text 5 2
  guard (hasByte text 7 [0x2D])
  let day ← parseFixedInt text 8 2
  guard (hasByte text 10 [0x54,0x74])
  let hour ← parseFixedInt text 11 2
  guard (hasByte text 13 [0x3A])
  let minute ← parseFixedInt text 14 2
  guard (hasByte text 16 [0x3A])
  let second ← parseFixedInt text 17 2
  return { year, month, day, hour, minute, second }

def CivilTime.inRange (civil : CivilTime) : Bool :=
  !(civil.month < 1 || 12 < civil.month || civil.day < 1 ||
    daysInMonth civil.year civil.month < civil.day || 23 < civil.hour || 59 < civil.minute ||
    60 < civil.second)

/-- The nanoseconds of a fraction, of which nine digits count, and what follows. -/
def parseFraction : ByteString → Result (ℤ × ByteString)
  | 0x2E :: rest => do
    let digits := (rest.takeWhile Json.isDigit).take 9
    require (!digits.isEmpty)
      { code := .invalidFormat, message := "timestamp has an empty fraction" }
    return (Json.valueOfDigits digits * 10 ^ (9 - digits.length),rest.dropWhile Json.isDigit)
  | rest => return (0,rest)

/-- `%0*d`: at least the given width, filled with zeros. -/
def padded (width : ℕ) (value : ℤ) : ByteString :=
  let digits := Json.decimal value.natAbs
  if value < 0 then 0x2D :: List.replicate (width - 1 - digits.length) 0x30 ++ digits
  else List.replicate (width - digits.length) 0x30 ++ digits

/-- Quotient and remainder by a positive number, with the remainder made
nonnegative. -/
def floorSplit (value divisor : ℤ) : ℤ × ℤ :=
  let quotient := value.tdiv divisor
  let remainder := value.tmod divisor
  if remainder < 0 then (quotient - 1,remainder + divisor) else (quotient,remainder)

/-- The digits without trailing zeros; the first stays. -/
def trimZeros : ByteString → ByteString
  | [] => []
  | digit :: digits => digit :: digits.rdropWhile (· = 0x30)

def fractionText (fraction : ℤ) : ByteString :=
  if fraction = 0 then [] else 0x2E :: trimZeros (padded 9 fraction)

/-- The text of a date and time of day, up to the fraction. -/
def civilText (civil : CivilTime) : ByteString :=
  padded 4 civil.year ++ [0x2D] ++ padded 2 civil.month ++ [0x2D] ++ padded 2 civil.day ++
    [0x54] ++ padded 2 civil.hour ++ [0x3A] ++ padded 2 civil.minute ++ [0x3A] ++
    padded 2 civil.second

/-- The fields of an instant given in seconds. -/
def civilOfSeconds (seconds : ℤ) : CivilTime :=
  let (days,remainder) := floorSplit seconds 86400
  let (year,month,day) := civilFromDays days
  { year, month, day, hour := remainder.tdiv 3600, minute := (remainder.tmod 3600).tdiv 60,
    second := remainder.tmod 60 }

def CivilTime.seconds (civil : CivilTime) : ℤ :=
  daysFromCivil civil.year civil.month civil.day * 86400 + civil.hour * 3600 +
    civil.minute * 60 + civil.second

end Rfc3339

namespace TimePoint

/-- The nanosecond count is reduced to 64 bits. -/
def parseRfc3339 (text : ByteString) : Result TimePoint := do
  require (20 ≤ text.length)
    { code := .invalidFormat, message := "timestamp is too short for RFC 3339" }
  match Rfc3339.parseCivil text with
  | none =>
    throw { code := .invalidFormat, message := "timestamp is not an RFC 3339 instant" }
  | some civil =>
    require civil.inRange
      { code := .invalidFormat, message := "timestamp has an out-of-range field" }
    let (fraction,rest) ← Rfc3339.parseFraction (text.drop 19)
    require (Rfc3339.hasByte rest 0 [0x5A,0x7A])
      { code := .invalidFormat,
        message := "timestamp must be UTC (trailing Z); offsets are not accepted" }
    require (rest.length ≤ 1)
      { code := .invalidFormat, message := "timestamp has trailing characters" }
    return ⟨Int64.ofInt (civil.seconds * 1000000000 + fraction)⟩

def toRfc3339 (point : TimePoint) : ByteString :=
  if point.isSet then
    let (seconds,fraction) := Rfc3339.floorSplit point.unixNanos.toInt 1000000000
    Rfc3339.civilText (Rfc3339.civilOfSeconds seconds) ++ Rfc3339.fractionText fraction ++ [0x5A]
  else bytesOf "unset"

end TimePoint

end PathObservatory
