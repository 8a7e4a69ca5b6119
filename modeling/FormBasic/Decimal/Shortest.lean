import FormBasic.Decimal.Binary

/-!
# The fewest digits that read back

`shortest` gives the decimal with the fewest significant digits among those that round to a given
number, and the nearest of them. `fixed` gives the nearest decimal with a fixed number of places,
computed from the exact value.

Both are found on decimal grids: for one digit, two digits, … the two neighbours of the value on
the grid of that many digits are tested against the interval of reals that round to the value.
-/

namespace FormBasic.Decimal

/-- The decimal `0.d₁d₂… · 10 ^ point`, the digits being those of `digits` read as a number;
`count` says how many there are. -/
structure Digits where
  digits : Nat
  count : Nat
  point : Int
deriving Repr, DecidableEq

/-- Decimal digits of a number, most significant first; zero has one. -/
def digitChars (n : Nat) : List Char := Nat.toDigits 10 n

/-- Remove trailing zeros, at most `fuel` of them. -/
def Digits.stripZeros : (fuel : Nat) → Digits → Digits
  | 0, d => d
  | fuel + 1, d =>
    if 1 < d.count && d.digits % 10 == 0 then
      Digits.stripZeros fuel ⟨d.digits / 10, d.count - 1, d.point⟩
    else d

/-- A positive number as a quotient of naturals: `significand · 2 ^ exponent`. -/
def quotient (significand : Nat) (exponent : Int) : Nat × Nat :=
  if 0 ≤ exponent then (significand * twoTo exponent.toNat, 1)
  else (significand, twoTo (-exponent).toNat)

/-- The exponent of the leading decimal digit of `num / den`: the number of times `10` goes into
it. The binary logarithm gives it up to one. -/
def decimalExponent (num den : Nat) : Int :=
  let guess : Int := (((Nat.log2 num : Int) - Nat.log2 den) * 30103).fdiv 100000 - 1
  let atLeast (k : Int) : Bool :=
    if 0 ≤ k then den * tenTo k.toNat ≤ num else den ≤ num * tenTo (-k).toNat
  if atLeast (guess + 2) then guess + 2
  else if atLeast (guess + 1) then guess + 1
  else guess

/-- Search the grids with `n`, `n + 1`, … digits for the first that has a point in the interval.
The value is `4 · significand` quarter units; `low` and `high` are the ends of the interval in
quarter units, which belong to it when `closed`. -/
def searchGrids (value low high unitNum unitDen : Nat) (closed : Bool) (lead : Int) :
    (fuel : Nat) → (n : Nat) → Digits
  | 0, n => ⟨value, n, lead + 1⟩
  | fuel + 1, n =>
    let scale := lead - n + 1
    -- the value on this grid is `value · up / down`
    let up := if 0 ≤ scale then unitNum else unitNum * tenTo (-scale).toNat
    let down := if 0 ≤ scale then unitDen * tenTo scale.toNat else unitDen
    let below := value * up / down
    let inside (c : Nat) : Bool :=
      if closed then low * up ≤ c * down && c * down ≤ high * up
      else low * up < c * down && c * down < high * up
    let above := below + 1
    let hit (c : Nat) : Digits :=
      if c == tenTo n then ⟨1, 1, lead + 2⟩ else Digits.stripZeros n ⟨c, n, lead + 1⟩
    if inside below && inside above then
      let left := value * up - below * down
      let right := above * down - value * up
      if left < right || (left == right && below % 2 == 0) then hit below else hit above
    else if inside below then hit below
    else if inside above then hit above
    else searchGrids value low high unitNum unitDen closed lead fuel (n + 1)

/-- The shortest decimal that rounds to `significand · 2 ^ exponent`, a positive number of format
`f`. -/
def shortest (f : BinaryFormat) (significand : Nat) (exponent : Int) : Digits :=
  let (num, den) := quotient significand exponent
  let (unitNum, unitDen) := quotient 1 (exponent - 2)
  -- below a power of two the numbers lie twice as close
  let narrow := significand == twoTo f.fractionBits && f.minExponent < exponent
  let low := 4 * significand - (if narrow then 1 else 2)
  searchGrids (4 * significand) low (4 * significand + 2) unitNum unitDen
    (significand % 2 == 0) (decimalExponent num den) 17 1

/-- The whole number of units `10 ^ -places` nearest to the value, a tie to the even one. -/
def fixedUnits (places : Nat) (significand : Nat) (exponent : Int) : Nat :=
  let (num, den) := quotient significand exponent
  BinaryFormat.divEven (num * tenTo places) den

end FormBasic.Decimal
