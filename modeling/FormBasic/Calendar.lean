import FormBasic.Decimal.Notation

/-!
# The calendar

Days are counted from day zero, 30 December 1899, in the Gregorian calendar extended both ways. A
`Moment` is a day and a time of day. A date value of the language is a number of days as a
floating-point number, the time of day being its fraction; `Moment.ofDayNumber` and
`Moment.dayNumber` go between the two.

The seconds of a moment are held in a register of 64 bits, so the moments come around: the first one
is the start of 1 March of the year −292277022400.
-/

namespace FormBasic.Calendar

/-- A day by year, month and day of the month. -/
structure CivilDate where
  year : Int
  month : Nat
  day : Nat
deriving Repr, DecidableEq

/-- The number of 1 March of year zero, counted from day zero. -/
def marchOrigin : Int := -693899

/-- The day number of a date. Month and day may lie outside their usual ranges: months carry into
years, and days simply count on. -/
def dayNumberOf (year month day : Int) : Int :=
  -- months counted from March, so that the leap day ends the year
  let months := year * 12 + (month - 1) - 2
  let y := months.fdiv 12
  let m := months.fmod 12
  365 * y + y.fdiv 4 - y.fdiv 100 + y.fdiv 400 + (153 * m + 2).fdiv 5 + (day - 1) + marchOrigin

/-- The first year of the register that holds the seconds of a moment. -/
def registerYear : Int := -292277022400

/-- The day number of the first day of the register. -/
def registerOrigin : Int := dayNumberOf registerYear 3 1

/-- The day number of a date whose years are counted from the start of the register, in a word of 64
bits: it is `dayNumberOf` for every year from there on. -/
def registerDay (year month day : Int) : Int :=
  let months := year * 12 + (month - 1) - 2
  let y := ((months.fdiv 12 - registerYear) % (twoTo 64 : Int)).toNat
  let m := months.fmod 12
  let centuryDays := 146097 * (y / 100) % twoTo 64 / 4
  registerOrigin + centuryDays + (1461 * (y % 100) / 4 : Nat) + (153 * m + 2).fdiv 5 + (day - 1)

/-- The date of a day number. -/
def civilOf (days : Int) : CivilDate :=
  let z := days - marchOrigin
  let era := z.fdiv 146097
  let doe := z.fmod 146097
  let yoe := (doe - doe.fdiv 1460 + doe.fdiv 36524 - doe.fdiv 146096).fdiv 365
  let doy := doe - (365 * yoe + yoe.fdiv 4 - yoe.fdiv 100)
  let mp := (5 * doy + 2).fdiv 153
  let month := if mp < 10 then mp + 3 else mp - 9
  ⟨yoe + era * 400 + (if month ≤ 2 then 1 else 0), month.toNat,
    (doy - (153 * mp + 2).fdiv 5 + 1).toNat⟩

/-- Leap years have a 29 February. -/
def isLeap (year : Int) : Bool :=
  year % 4 == 0 && (year % 100 != 0 || year % 400 == 0)

/-- Days of a month. -/
def daysIn (year : Int) (month : Nat) : Nat :=
  if month == 2 then (if isLeap year then 29 else 28)
  else if month == 4 || month == 6 || month == 9 || month == 11 then 30
  else 31

/-- A day and a time of day. -/
structure Moment where
  day : Int
  second : Nat
  nanosecond : Nat := 0
deriving Repr, DecidableEq

/-- Seconds in a day. -/
def daySeconds : Nat := 86400

namespace Moment

/-- Hour of the day. -/
def hour (t : Moment) : Nat := t.second / 3600

/-- Minute of the hour. -/
def minute (t : Moment) : Nat := t.second % 3600 / 60

/-- Second of the minute. -/
def secondOfMinute (t : Moment) : Nat := t.second % 60

/-- The date of the day. -/
def date (t : Moment) : CivilDate := civilOf t.day

/-- The day of the week, Sunday being `0`; day zero is a Saturday. -/
def weekday (t : Moment) : Nat := ((t.day + 6) % 7).toNat

/-- Seconds since the start of day zero. -/
def totalSeconds (t : Moment) : Int := t.day * daySeconds + t.second

/-- The moment so many seconds after the start of day zero, up to a round of the register. -/
def ofTotalSeconds (s : Int) : Moment :=
  let first := registerOrigin * daySeconds
  let s := (s - first) % (twoTo 64 : Int) + first
  ⟨s.fdiv daySeconds, (s.fmod daySeconds).toNat, 0⟩

/-- Move by years, months and days. A day of the month that the target month does not have counts
on into the next month. -/
def addDate (t : Moment) (years months days : Int) : Moment :=
  let d := t.date
  let day := registerDay (d.year + years) (d.month + months) (d.day + days)
  { ofTotalSeconds (day * daySeconds + t.second) with nanosecond := t.nanosecond }

/-- Move by seconds. The seconds since the start of the year one are a signed word, and a move that
would leave its range stops at the end. -/
def addSeconds (t : Moment) (s : Int) : Moment :=
  let first := dayNumberOf 1 1 1 * daySeconds
  let sum := Int.bmod (t.totalSeconds - first) (twoTo 64) + s
  let sum := if maxSigned 64 < sum then maxSigned 64
    else if sum < minSigned 64 then -maxSigned 64
    else sum
  { ofTotalSeconds (sum + first) with nanosecond := t.nanosecond }

/-- The day number with the time of day in its fraction. The day comes from its seconds since day
zero as a signed word. -/
def dayNumber (t : Moment) : Float :=
  let secs := Float.ofNat t.second + Float.ofNat t.nanosecond / 1e9
  Float.ofInt ((Int.bmod (t.day * daySeconds) (twoTo 64)).tdiv daySeconds) + secs / 86400

end Moment

/-- Truncate to a 64-bit word; what does not fit gives the least word. -/
def wordOfFloat (x : Float) : Int :=
  match Decimal.decodeDouble x with
  | .finite negative m e =>
    if 64 < e then minSigned 64
    else
      let n : Int := if 0 ≤ e then m * twoTo e.toNat else m / twoTo (-e).toNat
      let i := if negative then -n else n
      if minSigned 64 ≤ i && i ≤ maxSigned 64 then i else minSigned 64
  | _ => minSigned 64

/-- The moment of a day number. The day is the floor and the fraction is rounded to seconds, a half
going up. A day number far out of range comes around to some other day. -/
def Moment.ofDayNumber (x : Float) : Moment :=
  let whole := wordOfFloat x
  let whole := if Float.ofInt whole > x then whole - 1 else whole
  let whole := if whole < minSigned 64 then maxSigned 64 else whole
  let frac := x - Float.ofInt whole
  let secs := wordOfFloat (frac * 86400 + 0.5)
  let secs := if secs == minSigned 64 then 0 else secs
  (Moment.ofTotalSeconds (whole * daySeconds)).addSeconds secs

/-- Two digits. -/
def twoDigits (n : Nat) : List Char := Decimal.padZeros 2 (Decimal.digitChars n)

/-- A year with at least four digits. -/
def yearText (y : Int) : List Char :=
  let ds := Decimal.padZeros 4 (Decimal.digitChars y.natAbs)
  if y < 0 then '-' :: ds else ds

/-- Date and time as `03/15/2024 14:30:05`. -/
def Moment.text (t : Moment) : String :=
  let d := t.date
  String.ofList <| twoDigits d.month ++ '/' :: twoDigits d.day ++ '/' :: yearText d.year ++
    ' ' :: twoDigits t.hour ++ ':' :: twoDigits t.minute ++ ':' :: twoDigits t.secondOfMinute

end FormBasic.Calendar
