import FormBasic.Decimal.Shortest

/-!
# Number notation

Three ways to write a floating-point number: `positional` never uses an exponent, `general` switches
to one below `10 ^ -4` and from `10 ^ 6` on, and `fixed` has a given number of places. The first two
write the fewest digits that read back.
-/

namespace FormBasic.Decimal

/-- Pad with zeros on the left up to a width. -/
def padZeros (width : Nat) (cs : List Char) : List Char :=
  List.replicate (width - cs.length) '0' ++ cs

/-- A whole number in decimal. -/
def intText (n : Int) : String :=
  if n < 0 then String.ofList ('-' :: digitChars n.natAbs) else String.ofList (digitChars n.toNat)

/-- The digits of a decimal with the point put in its place and no exponent. -/
def Digits.positional (d : Digits) : List Char :=
  let ds := padZeros d.count (digitChars d.digits)
  if d.point ≤ 0 then '0' :: '.' :: (List.replicate (-d.point).toNat '0' ++ ds)
  else if d.count ≤ d.point.toNat then ds ++ List.replicate (d.point.toNat - d.count) '0'
  else ds.take d.point.toNat ++ '.' :: ds.drop d.point.toNat

/-- The digits of a decimal with the point after the first and an exponent of two digits or
more. -/
def Digits.scientific (d : Digits) : List Char :=
  let e := d.point - 1
  let mark := if e < 0 then ['e', '-'] else ['e', '+']
  let exponent := mark ++ padZeros 2 (digitChars e.natAbs)
  match padZeros d.count (digitChars d.digits) with
  | [] => exponent
  | [c] => c :: exponent
  | c :: cs => c :: '.' :: cs ++ exponent

/-- Positional from `10 ^ -4` up to but not including `10 ^ 6`, with an exponent outside. -/
def Digits.general (d : Digits) : List Char :=
  let e := d.point - 1
  if e < -4 || 6 ≤ e then d.scientific else d.positional

/-- Write a decoded number, given how to write a positive finite one. -/
def Binary.write (zero : List Char) (finite : Nat → Int → List Char) : Binary → String
  | .nan => "NaN"
  | .infinity false => "+Inf"
  | .infinity true => "-Inf"
  | .finite negative m e =>
    let body := if m == 0 then zero else finite m e
    String.ofList (if negative then '-' :: body else body)

/-- A double without exponent: `0.1`, `100000000000000000000`, `-0`, `NaN`, `+Inf`. -/
def positional (x : Float) : String :=
  (decodeDouble x).write ['0'] fun m e => (shortest .double m e).positional

/-- A single without exponent. -/
def positionalSingle (x : Float32) : String :=
  (decodeSingle x).write ['0'] fun m e => (shortest .single m e).positional

/-- A double in general notation: `0.1`, `1e+20`, `5e-324`. -/
def general (x : Float) : String :=
  (decodeDouble x).write ['0'] fun m e => (shortest .double m e).general

/-- Whole units of `10 ^ -places` with the point put in. -/
def unitsText (places units : Nat) : List Char :=
  let ds := padZeros (places + 1) (digitChars units)
  if places == 0 then ds
  else ds.take (ds.length - places) ++ '.' :: ds.drop (ds.length - places)

/-- A double with a fixed number of places, a tie going to the even digit. -/
def fixed (places : Nat) (x : Float) : String :=
  (decodeDouble x).write (unitsText places 0) fun m e => unitsText places (fixedUnits places m e)

end FormBasic.Decimal
