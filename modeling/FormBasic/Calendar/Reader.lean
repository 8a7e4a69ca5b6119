import FormBasic.Calendar
import FormBasic.Decimal.Reader
import FormBasic.Text.Blank

/-!
# Reading dates

A date text is tried against a list of layouts, and the first that fits gives the date. A layout is
a list of fields and separators; a blank in it stands for any run of blanks.
-/

namespace FormBasic.Calendar

open Decimal (isDigit)

/-- One part of a layout. A padded field has exactly two digits, an unpadded one one or two. -/
inductive Field where
  | month (padded : Bool)
  | day (padded : Bool)
  | year
  | hour
  | hour12
  | minute (padded : Bool)
  | second (padded : Bool)
  | meridiem
  | blank
  | mark (c : Char)

/-- What has been read of a date text. -/
structure Reading where
  year : Nat := 0
  month : Nat := 1
  day : Nat := 1
  hour : Nat := 0
  minute : Nat := 0
  second : Nat := 0
  nanosecond : Nat := 0
  pm : Bool := false
  am : Bool := false

/-- The value of a digit. -/
def digit (c : Char) : Nat := c.toNat - 48

/-- One or two digits; exactly two if `padded`. -/
def readPair (padded : Bool) : List Char → Option (Nat × List Char)
  | c :: d :: cs =>
    if !isDigit c then none
    else if isDigit d then some (digit c * 10 + digit d, cs)
    else if padded then none
    else some (digit c, d :: cs)
  | [c] => if isDigit c && !padded then some (digit c, []) else none
  | [] => none

/-- Four digits. -/
def readYear : List Char → Option (Nat × List Char)
  | a :: b :: c :: d :: cs =>
    if isDigit a && isDigit b && isDigit c && isDigit d then
      some (digit a * 1000 + digit b * 100 + digit c * 10 + digit d, cs)
    else none
  | _ => none

/-- Up to nine digits of a fraction of a second, as nanoseconds. -/
def nanoseconds (digits : List Char) : Nat :=
  let ds := digits.take 9
  ds.foldl (fun n c => n * 10 + digit c) 0 * tenTo (9 - ds.length)

/-- A fraction after the seconds: a point or a comma and digits. Other text is left alone. -/
def readFraction : List Char → Nat × List Char
  | c :: d :: cs =>
    if (c == '.' || c == ',') && isDigit d then
      (nanoseconds ((d :: cs).takeWhile isDigit), (d :: cs).dropWhile isDigit)
    else (0, c :: d :: cs)
  | cs => (0, cs)

/-- Read one part of a layout. -/
def Field.read (r : Reading) (cs : List Char) : Field → Option (Reading × List Char)
  | .month padded => do
    let (n, cs) ← readPair padded cs
    if 1 ≤ n && n ≤ 12 then some ({ r with month := n }, cs) else none
  | .day padded => do
    let (n, cs) ← readPair padded cs
    some ({ r with day := n }, cs)
  | .year => do
    let (n, cs) ← readYear cs
    some ({ r with year := n }, cs)
  | .hour => do
    let (n, cs) ← readPair false cs
    if n < 24 then some ({ r with hour := n }, cs) else none
  | .hour12 => do
    let (n, cs) ← readPair false cs
    if n ≤ 12 then some ({ r with hour := n }, cs) else none
  | .minute padded => do
    let (n, cs) ← readPair padded cs
    if n < 60 then some ({ r with minute := n }, cs) else none
  | .second padded => do
    let (n, cs) ← readPair padded cs
    let (nanos, cs) := readFraction cs
    if n < 60 then some ({ r with second := n, nanosecond := nanos }, cs) else none
  | .meridiem =>
    match cs with
    | 'P' :: 'M' :: cs => some ({ r with pm := true }, cs)
    | 'A' :: 'M' :: cs => some ({ r with am := true }, cs)
    | _ => none
  | .blank =>
    match cs with
    | [] => some (r, [])
    | c :: cs => if c == ' ' then some (r, cs.dropWhile (· == ' ')) else none
  | .mark m =>
    match cs with
    | c :: cs => if c == m then some (r, cs) else none
    | [] => none

/-- Read all parts of a layout. -/
def readFields : List Field → Reading → List Char → Option (Reading × List Char)
  | [], r, cs => some (r, cs)
  | f :: fs, r, cs => do
    let (r, cs) ← f.read r cs
    readFields fs r cs

/-- Read all parts of a layout, to the end of the text. -/
def readLayout (fs : List Field) (cs : List Char) : Option Reading := do
  let (r, rest) ← readFields fs {} cs
  if rest.isEmpty then some r else none

/-- Whether the day exists in its month. -/
def Reading.isDate (r : Reading) : Bool := 1 ≤ r.day && r.day ≤ daysIn r.year r.month

/-- The moment of a reading. The day must exist in its month. A reading in year zero is a time of
day on day zero, to the second. -/
def Reading.moment? (r : Reading) : Option Moment :=
  if !r.isDate then none
  else
    let hour :=
      if r.pm && r.hour < 12 then r.hour + 12
      else if r.am && r.hour == 12 then 0
      else r.hour
    let second := hour * 3600 + r.minute * 60 + r.second
    if r.year == 0 then some ⟨0, second, 0⟩
    else some ⟨dayNumberOf r.year r.month r.day, second, r.nanosecond⟩

/-- `M/D/YYYY`. -/
def slashed : List Field := [.month false, .mark '/', .day false, .mark '/', .year]

/-- `YYYY-MM-DD`. -/
def dashed : List Field := [.year, .mark '-', .month true, .mark '-', .day true]

/-- `H:MM`. -/
def clock : List Field := [.hour, .mark ':', .minute true]

/-- `H:MM:SS`. -/
def clockSeconds : List Field := clock ++ [.mark ':', .second true]

/-- `H:MM AM`. -/
def clock12 : List Field := [.hour12, .mark ':', .minute true, .blank, .meridiem]

/-- `H:MM:SS AM`. -/
def clock12Seconds : List Field :=
  [.hour12, .mark ':', .minute true, .mark ':', .second true, .blank, .meridiem]

/-- The layouts in the order in which they are tried. -/
def layouts : List (List Field) :=
  [slashed ++ .blank :: clockSeconds, dashed ++ .blank :: clockSeconds,
   slashed ++ .blank :: clock, dashed ++ .blank :: clock,
   slashed ++ .blank :: clock12Seconds, slashed ++ .blank :: clock12,
   slashed, dashed, clockSeconds, clock, clock12Seconds, clock12]

/-- Read a date text that has been trimmed. -/
def read? (cs : List Char) : Option Moment :=
  layouts.findSome? fun layout => (readLayout layout cs).bind Reading.moment?

end FormBasic.Calendar
