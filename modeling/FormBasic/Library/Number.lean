import FormBasic.Decimal.Notation
import FormBasic.Decimal.Reader
import FormBasic.Text.Case
import FormBasic.Text.Search

/-!
# Numbers as text

Number masks, digit grouping, and the number at the start of a text.
-/

namespace FormBasic.Library

/-- Put a comma before every third digit from the right. -/
def groupDigits : List Char → List Char
  | [] => []
  | c :: cs =>
    if !cs.isEmpty && cs.length % 3 == 0 then c :: ',' :: groupDigits cs else c :: groupDigits cs

/-- Group the digits before the point. -/
def groupUnsigned (cs : List Char) : List Char :=
  match Text.cut '.' cs with
  | (whole, none) => groupDigits whole
  | (whole, some fraction) => groupDigits whole ++ '.' :: fraction

/-- Group the digits of a number text before its point, a minus sign apart. -/
def groupThousands : List Char → List Char
  | '-' :: cs => '-' :: groupUnsigned cs
  | cs => groupUnsigned cs

/-- Two places and grouped digits. -/
def standard (x : Float) : String :=
  String.ofList (groupThousands (Decimal.fixed 2 x).toList)

/-- An amount of money; a negative one stands in parentheses. -/
def currency (x : Float) : String :=
  if x < 0 then "($" ++ standard x.abs ++ ")" else "$" ++ standard x.abs

/-- The number of bytes after the first point of a mask. -/
def maskPlaces (mask : List Char) : Nat :=
  match Text.cut '.' mask with
  | (_, none) => 0
  | (_, some rest) => (String.ofList rest).utf8ByteSize

/-- Write a number by a mask: the places after its point count, a comma asks for grouping, and a
percent sign at the end for hundredths. -/
def maskNumber (x : Float) (mask : List Char) : String :=
  let percent := mask.getLast? == some '%'
  let mask := if percent then mask.dropLast else mask
  let x := if percent then x * 100 else x
  let digits := (Decimal.fixed (maskPlaces mask) x).toList
  let digits := if mask.contains ',' then groupThousands digits else digits
  String.ofList (if percent then digits ++ ['%'] else digits)

/-- Write a number in a named format or by a mask. -/
def formatNumber (x : Float) (format : String) : String :=
  match Text.lower format with
  | "general number" => Decimal.positional x
  | "g" => Decimal.positional x
  | "currency" => currency x
  | "c" => currency x
  | "fixed" => Decimal.fixed 2 x
  | "f" => Decimal.fixed 2 x
  | "standard" => standard x
  | "n" => standard x
  | "percent" => Decimal.fixed 2 (x * 100) ++ "%"
  | "p" => Decimal.fixed 2 (x * 100) ++ "%"
  | _ => maskNumber x format.toList

/-- The longest start of a text that is made of digits and at most one point and ends in a
digit. -/
def digitLead (pointSeen : Bool) : List Char → List Char
  | [] => []
  | c :: cs =>
    if Decimal.isDigit c then c :: digitLead pointSeen cs
    else if c == '.' && !pointSeen then
      match digitLead true cs with
      | [] => []
      | lead => '.' :: lead
    else []

/-- The longest start of a text that is a number: an optional sign, digits and at most one point,
ending in a digit. Empty if there is none. -/
def numberLead : List Char → List Char
  | c :: cs =>
    if c == '-' || c == '+' then
      match digitLead false cs with
      | [] => []
      | lead => c :: lead
    else digitLead false (c :: cs)
  | [] => []

/-- The number at the start of a text, blanks left out; zero if there is none or it is too
large. -/
def leadingNumber (s : String) : Float :=
  let lead := numberLead (s.toList.filter (· != ' '))
  if lead.isEmpty then 0 else (Decimal.readDouble? (String.ofList lead)).getD 0

end FormBasic.Library
