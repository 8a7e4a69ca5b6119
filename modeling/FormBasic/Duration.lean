import FormBasic.Decimal.Notation
import FormBasic.Decimal.Reader

/-!
# Durations

Spans of time to the nanosecond. A duration is read from a sum of amounts with units, such as
`1m30s` or `1.5h`, and written in the same notation. The reader keeps to what fits in 64 bits.
-/

namespace FormBasic

/-- A span of time. -/
structure Duration where
  nanoseconds : Int
deriving Repr, Inhabited, DecidableEq

namespace Duration

/-- The nanoseconds of a unit. -/
def unit? (name : String) : Option Nat :=
  match name with
  | "ns" => some 1
  | "us" | "\u00b5s" | "\u03bcs" => some 1000
  | "ms" => some 1000000
  | "s" => some 1000000000
  | "m" => some 60000000000
  | "h" => some 3600000000000
  | _ => none

/-- The magnitude that no duration exceeds. -/
def limit : Nat := twoTo 63

/-- The digits of a fraction read as one number, with the power of ten to divide it by. Digits that
would carry the number over the limit are left out, and so are all after them. -/
def readFraction : (value : Nat) → (scale : Float) → List Char → Nat × Float
  | value, scale, [] => (value, scale)
  | value, scale, c :: cs =>
    let next := value * 10 + (c.toNat - 48)
    if limit < next then (value, scale) else readFraction next (scale * 10) cs

/-- The nanoseconds of a fraction of a unit, rounded down. The product is one of floating-point
numbers. -/
def fractionOf (unit : Nat) (digits : List Char) : Nat :=
  let (value, scale) := readFraction 0 1 digits
  (Float.ofNat value * (Float.ofNat unit / scale)).toUInt64.toNat

/-- An amount of a unit. -/
structure Amount where
  whole : List Char
  fraction : List Char
  unit : String

/-- Whether a character can belong to an amount's number. -/
def isNumeric (c : Char) : Bool := Decimal.isDigit c || c == '.'

/-- The first amount of a text, and what follows it. -/
def readAmount (cs : List Char) : Amount × List Char :=
  let whole := cs.takeWhile Decimal.isDigit
  let rest := cs.dropWhile Decimal.isDigit
  let (fraction, rest) := match rest with
    | '.' :: rest => (rest.takeWhile Decimal.isDigit, rest.dropWhile Decimal.isDigit)
    | rest => ([], rest)
  let unit := rest.takeWhile (!isNumeric ·)
  (⟨whole, fraction, String.ofList unit⟩, rest.dropWhile (!isNumeric ·))

/-- The nanoseconds of an amount. It has a digit before or after its point, and a unit. -/
def Amount.nanoseconds? (a : Amount) : Option Nat := do
  if a.whole.isEmpty && a.fraction.isEmpty then none
  let whole ← Decimal.readDigits 10 0 a.whole
  let unit ← unit? a.unit
  if limit < whole || limit / unit < whole then none
  let n := whole * unit + fractionOf unit a.fraction
  if limit < n then none else some n

/-- The sum of amounts, the number of amounts being bounded. -/
def readSum : (bound : Nat) → (sum : Nat) → List Char → Option Nat
  | _, sum, [] => some sum
  | 0, _, _ :: _ => none
  | bound + 1, sum, cs => do
    let (amount, rest) := readAmount cs
    let sum := sum + (← amount.nanoseconds?)
    if limit < sum then none else readSum bound sum rest

/-- Read a duration: an optional sign, and one or more amounts. A zero needs no unit. -/
def parse? (s : String) : Option Duration := do
  let (negative, cs) := Decimal.readSign s.toList
  if cs.isEmpty then none
  else if cs == ['0'] then some ⟨0⟩
  else
    let n ← readSum cs.length 0 cs
    if negative then some ⟨-n⟩
    else if n < limit then some ⟨n⟩
    else none

/-- A number of parts of a unit of `10 ^ places` as a number of the unit, without zeros at its
end. -/
def decimal (places n : Nat) : String :=
  let part := Decimal.padZeros places (Decimal.digitChars (n % tenTo places))
  let part := (part.reverse.dropWhile (· == '0')).reverse
  let whole := Decimal.digitChars (n / tenTo places)
  String.ofList (if part.isEmpty then whole else whole ++ '.' :: part)

/-- The text of a magnitude: below a second in the largest unit that it fills, else in hours,
minutes and seconds from the first of them that is needed. -/
def magnitudeText (n : Nat) : String :=
  let count (k : Nat) : String := String.ofList (Decimal.digitChars k)
  if n == 0 then "0s"
  else if n < 1000 then count n ++ "ns"
  else if n < 1000000 then decimal 3 n ++ "\u00b5s"
  else if n < 1000000000 then decimal 6 n ++ "ms"
  else
    let minutes := n / 60000000000
    let seconds := decimal 9 (n % 60000000000) ++ "s"
    if minutes == 0 then seconds
    else if minutes < 60 then count minutes ++ "m" ++ seconds
    else count (minutes / 60) ++ "h" ++ count (minutes % 60) ++ "m" ++ seconds

/-- The text of a duration. -/
def text (d : Duration) : String :=
  (if d.nanoseconds < 0 then "-" else "") ++ magnitudeText d.nanoseconds.natAbs

end Duration

end FormBasic
