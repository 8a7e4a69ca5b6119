import FormBasic.Calendar.Reader
import FormBasic.Tree

/-!
# Plain scalars of YAML

A plain scalar is resolved to null, a boolean, a number or a moment where its spelling is that of
one, and is a text otherwise.
-/

namespace FormBasic.Tree.Yaml

/-! ### Numbers -/

/-- Remove the underscores that may group the digits of a number. -/
def ungroup (cs : List Char) : List Char := cs.filter (· != '_')

/-- A whole number with an optional sign and radix mark; a leading zero marks octal. -/
def wholeNumber? (cs : List Char) : Option Int := do
  let (negative, body) := Decimal.readSign cs
  let n ← match body with
    | '0' :: c :: rest =>
      if c == 'x' || c == 'X' then Decimal.readNat? 16 rest
      else if c == 'b' || c == 'B' then Decimal.readNat? 2 rest
      else if c == 'o' || c == 'O' then Decimal.readNat? 8 rest
      else Decimal.readNat? 8 (c :: rest)
    | _ => Decimal.readNat? 10 body
  let i : Int := if negative then -n else n
  let limit := twoTo (if cs.head? == some '-' || cs.head? == some '+' then 63 else 64)
  if minSigned 64 ≤ i ∧ i < limit then some i else none

/-- A whole number whose sign stands after its radix mark. -/
def markedNumber? (cs : List Char) : Option Int := do
  let (radix, body) ← match cs with
    | '0' :: 'b' :: rest => some (2, rest)
    | '0' :: 'o' :: rest => some (8, rest)
    | _ => none
  let (negative, digits) := Decimal.readSign body
  let n ← Decimal.readNat? radix digits
  let i : Int := if negative then -n else n
  if minSigned 64 ≤ i ∧ i ≤ maxSigned 64 then some i else none

/-- The letters a floating-point number may be written with. -/
def isFloatSpelling (cs : List Char) : Bool :=
  cs.all fun c => Decimal.isDigit c || c == '.' || c == 'e' || c == 'E' || c == '+' || c == '-'

/-- A number that starts with a digit or a sign. -/
def number? (cs : List Char) : Option Tree :=
  let cs := ungroup cs
  match wholeNumber? cs with
  | some n => some (.integer n)
  | none =>
    let float := if isFloatSpelling cs then Decimal.readDouble? (String.ofList cs) else none
    match float with
    | some x => some (.real x)
    | none => (markedNumber? cs).map .integer

/-! ### Moments -/

/-- `YYYY-M-D`. -/
def dateFields : List Calendar.Field :=
  [.year, .mark '-', .month false, .mark '-', .day false]

/-- `H:M:S` with an optional fraction of the second. -/
def clockFields : List Calendar.Field :=
  [.hour, .mark ':', .minute false, .mark ':', .second false]

/-- The seconds by which a zone is ahead. -/
def zone? : List Char → Option Int
  | ['Z'] => some 0
  | [sign, h, h', ':', m, m'] => do
    let (hours, _) ← Calendar.readPair true [h, h']
    let (minutes, _) ← Calendar.readPair true [m, m']
    let seconds : Int := (hours * 60 + minutes) * 60
    if 24 < hours || 60 < minutes then none
    else if sign == '+' then some seconds
    else if sign == '-' then some (-seconds)
    else none
  | _ => none

/-- A zone by its distance, and its name: a zone without a name shows its distance again. -/
def zoneText (seconds : Int) : List Char :=
  let minutes := seconds.natAbs / 60
  let distance := (if seconds < 0 then '-' else '+') ::
    Calendar.twoDigits (minutes / 60) ++ Calendar.twoDigits (minutes % 60)
  distance ++ ' ' :: if seconds == 0 then "UTC".toList else distance

/-- A fraction of a second without the zeros at its end. -/
def fractionText (nanosecond : Nat) : List Char :=
  if nanosecond == 0 then []
  else '.' :: ((Decimal.padZeros 9 (Decimal.digitChars nanosecond)).reverse.dropWhile
    (· == '0')).reverse

/-- A reading in full, with its zone. -/
def momentText (r : Calendar.Reading) (zone : Int) : String :=
  String.ofList <|
    Calendar.yearText r.year ++ '-' :: Calendar.twoDigits r.month ++ '-' ::
      Calendar.twoDigits r.day ++ ' ' :: Calendar.twoDigits r.hour ++ ':' ::
      Calendar.twoDigits r.minute ++ ':' :: Calendar.twoDigits r.second ++
      fractionText r.nanosecond ++ ' ' :: zoneText zone

/-- A date and a time with a zone, divided by a letter. -/
def zonedMoment? (letter : Char) (cs : List Char) : Option (Calendar.Reading × Int) := do
  let (r, rest) ← Calendar.readFields (dateFields ++ .mark letter :: clockFields) {} cs
  return (r, ← zone? rest)

/-- A date, or a date and a time divided by blanks or, with a zone, by a `T`. -/
def moment? (cs : List Char) : Option Tree :=
  let isDate (m : Calendar.Reading × Int) : Bool := m.1.isDate
  let readings := [
    (zonedMoment? 'T' cs).filter isDate,
    (zonedMoment? 't' cs).filter isDate,
    ((Calendar.readLayout (dateFields ++ .blank :: clockFields) cs).map (·, 0)).filter isDate,
    ((Calendar.readLayout dateFields cs).map (·, 0)).filter isDate]
  (readings.findSome? id).map fun (r, zone) => .moment (momentText r zone)

/-! ### Resolution -/

/-- A plain scalar by its spelling. -/
def resolve (s : String) : Tree :=
  if ["", "~", "null", "Null", "NULL"].contains s then .null
  else if ["true", "True", "TRUE"].contains s then .bool true
  else if ["false", "False", "FALSE"].contains s then .bool false
  else if [".nan", ".NaN", ".NAN"].contains s then .real Decimal.nan
  else if [".inf", ".Inf", ".INF", "+.inf", "+.Inf", "+.INF"].contains s then .real Decimal.infinity
  else if ["-.inf", "-.Inf", "-.INF"].contains s then .real (-Decimal.infinity)
  else match s.toList with
    | '.' :: _ => (Decimal.readDouble? s).elim (.text s) .real
    | c :: cs =>
      if !(Decimal.isDigit c || c == '+' || c == '-') then .text s
      else ((moment? (c :: cs)).orElse fun _ => number? (c :: cs)).getD (.text s)
    | [] => .null

end FormBasic.Tree.Yaml
