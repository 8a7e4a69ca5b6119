import FormBasic.Calendar

/-!
# Date layouts

A moment is written along a sample text: a reference moment, Monday 2 January 2006 at 15:04:05, is
spelled out the way the result shall look, and each piece of it that is recognised is replaced by
the same piece of the moment at hand. Everything else stands for itself.

`formatDate` gives the named formats and translates format letters (`yyyy`, `MM`, `dd`, …) to the
pieces of such a sample.
-/

namespace FormBasic.Calendar

/-- The pieces of a sample that are replaced. -/
inductive Piece where
  | monthName
  | monthShort
  | month
  | month2
  | weekdayName
  | weekdayShort
  | day
  | dayBlank
  | day2
  | yearDayBlank
  | yearDay3
  | hour24
  | hour12
  | hour12Two
  | minute
  | minute2
  | second
  | second2
  | year
  | year2
  | meridiem
  | meridiemLower
  | zoneName
  /-- A zone offset, with seconds or not, with colons or not, hours only or not; `z` writes the
  zero offset as a letter. -/
  | offset (text : String) (z : Bool)
  /-- So many digits of the fraction of a second; trailing zeros dropped or not. -/
  | fraction (mark : Char) (digits : Nat) (keepZeros : Bool)

/-- Whether a text starts with a lower case letter. -/
def startsLower : List Char → Bool
  | c :: _ => 'a' ≤ c && c ≤ 'z'
  | [] => false

/-- The literal pieces with their spelling, in the order in which they are tried at a place. -/
def literalPieces : List (String × Piece) :=
  [("January", .monthName), ("Monday", .weekdayName), ("MST", .zoneName),
   ("01", .month2), ("02", .day2), ("03", .hour12Two), ("04", .minute2), ("05", .second2),
   ("06", .year2), ("002", .yearDay3), ("15", .hour24), ("1", .month), ("2006", .year), ("2", .day),
   ("__2", .yearDayBlank), ("3", .hour12), ("4", .minute), ("5", .second), ("PM", .meridiem),
   ("pm", .meridiemLower), ("-070000", .offset "+000000" false),
   ("-07:00:00", .offset "+00:00:00" false), ("-0700", .offset "+0000" false),
   ("-07:00", .offset "+00:00" false), ("-07", .offset "+00" false), ("Z070000", .offset "" true),
   ("Z07:00:00", .offset "" true), ("Z0700", .offset "" true), ("Z07:00", .offset "" true),
   ("Z07", .offset "" true)]

/-- Whether a list starts with a text. -/
def leads (s : String) (cs : List Char) : Bool := s.toList.isPrefixOf cs

/-- A fraction of a second at the start of a sample: a mark and a run of one digit, `0` or `9`, that
no other digit follows. -/
def fractionPiece? : List Char → Option (Piece × Nat)
  | mark :: d :: cs =>
    if (mark == '.' || mark == ',') && (d == '0' || d == '9') then
      let run := (d :: cs).takeWhile (· == d)
      let rest := (d :: cs).drop run.length
      if rest.head?.any Char.isDigit then none
      else some (.fraction mark run.length (d == '0'), run.length + 1)
    else none
  | _ => none

/-- The piece at the start of a sample, and its length. -/
def piece? (cs : List Char) : Option (Piece × Nat) :=
  match literalPieces.find? fun p => leads p.1 cs with
  | some (s, p) => some (p, s.length)
  | none =>
    if leads "Jan" cs && !startsLower (cs.drop 3) then some (.monthShort, 3)
    else if leads "Mon" cs && !startsLower (cs.drop 3) then some (.weekdayShort, 3)
    else if leads "_2" cs && !leads "_2006" cs then some (.dayBlank, 2)
    else fractionPiece? cs

/-- Names of the months. -/
def monthNames : List String :=
  ["January", "February", "March", "April", "May", "June", "July", "August", "September",
   "October", "November", "December"]

/-- Names of the days of the week, Sunday first. -/
def weekdayNames : List String :=
  ["Sunday", "Monday", "Tuesday", "Wednesday", "Thursday", "Friday", "Saturday"]

/-- Pad with blanks on the left up to a width. -/
def padBlanks (width : Nat) (cs : List Char) : List Char :=
  List.replicate (width - cs.length) ' ' ++ cs

/-- The hour on a twelve-hour clock. -/
def clockHour (hour : Nat) : Nat := if hour % 12 == 0 then 12 else hour % 12

/-- Drop the zeros at the end. -/
def dropZeros (cs : List Char) : List Char := (cs.reverse.dropWhile (· == '0')).reverse

/-- A piece of a moment. -/
def Piece.write (t : Moment) : Piece → List Char
  | .monthName => (monthNames.getD (t.date.month - 1) "").toList
  | .monthShort => (monthNames.getD (t.date.month - 1) "").toList.take 3
  | .month => Decimal.digitChars t.date.month
  | .month2 => twoDigits t.date.month
  | .weekdayName => (weekdayNames.getD t.weekday "").toList
  | .weekdayShort => (weekdayNames.getD t.weekday "").toList.take 3
  | .day => Decimal.digitChars t.date.day
  | .dayBlank => padBlanks 2 (Decimal.digitChars t.date.day)
  | .day2 => twoDigits t.date.day
  | .yearDayBlank => padBlanks 3 (Decimal.digitChars (yearDay t))
  | .yearDay3 => Decimal.padZeros 3 (Decimal.digitChars (yearDay t))
  | .hour24 => twoDigits t.hour
  | .hour12 => Decimal.digitChars (clockHour t.hour)
  | .hour12Two => twoDigits (clockHour t.hour)
  | .minute => Decimal.digitChars t.minute
  | .minute2 => twoDigits t.minute
  | .second => Decimal.digitChars t.secondOfMinute
  | .second2 => twoDigits t.secondOfMinute
  | .year => yearText t.date.year
  | .year2 => twoDigits (t.date.year.toNat % 100)
  | .meridiem => if t.hour ≥ 12 then ['P', 'M'] else ['A', 'M']
  | .meridiemLower => if t.hour ≥ 12 then ['p', 'm'] else ['a', 'm']
  | .zoneName => ['U', 'T', 'C']
  | .offset text z => if z then ['Z'] else text.toList
  | .fraction mark digits keepZeros =>
    let ds := (Decimal.padZeros 9 (Decimal.digitChars t.nanosecond)).take digits
    if keepZeros then mark :: ds else match dropZeros ds with
      | [] => []
      | ds => mark :: ds
where
  /-- The day of the year, 1 January being the first. -/
  yearDay (t : Moment) : Nat := (t.day - dayNumberOf t.date.year 1 1 + 1).toNat

/-- Write a moment along a sample, the first `skip` characters of it left out. -/
def formatFrom (t : Moment) : (skip : Nat) → List Char → List Char
  | _, [] => []
  | k + 1, _ :: cs => formatFrom t k cs
  | 0, c :: cs =>
    match piece? (c :: cs) with
    | some (p, n) => p.write t ++ formatFrom t (n - 1) cs
    | none => c :: formatFrom t 0 cs

/-- Write a moment along a sample. -/
def Moment.format (t : Moment) (sample : String) : String :=
  String.ofList (formatFrom t 0 sample.toList)

/-- The format letters and the pieces of a sample that they stand for. -/
def formatLetters : List (String × String) :=
  [("yyyy", "2006"), ("yy", "06"), ("MMMM", "January"), ("MMM", "Jan"), ("MM", "01"),
   ("dddd", "Monday"), ("ddd", "Mon"), ("dd", "02"), ("HH", "15"), ("hh", "03"), ("mm", "04"),
   ("ss", "05"), ("tt", "PM")]

/-- Replace format letters by pieces of a sample. -/
def sampleFrom : (skip : Nat) → List Char → List Char
  | _, [] => []
  | k + 1, _ :: cs => sampleFrom k cs
  | 0, c :: cs =>
    match formatLetters.find? fun p => leads p.1 (c :: cs) with
    | some (letters, sample) => sample.toList ++ sampleFrom (letters.length - 1) cs
    | none => c :: sampleFrom 0 cs

end FormBasic.Calendar
