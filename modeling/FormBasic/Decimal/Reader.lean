import FormBasic.Decimal.Binary

/-!
# Reading numbers

Whole numbers in a radix, with their range checked by the caller's bounds, and floating-point
numbers in decimal or hexadecimal notation. A floating-point text is first read into an exact
quotient and then rounded once, to the format asked for.
-/

namespace FormBasic.Decimal

/-- The value of a digit of any radix up to sixteen, in either case. -/
def digitValue? (c : Char) : Option Nat :=
  let n := c.toNat
  if 48 ≤ n && n ≤ 57 then some (n - 48)
  else if 97 ≤ n && n ≤ 102 then some (n - 87)
  else if 65 ≤ n && n ≤ 70 then some (n - 55)
  else none

/-- The value of a digit of a radix. -/
def digitOf? (radix : Nat) (c : Char) : Option Nat :=
  (digitValue? c).filter (· < radix)

/-- Whether a character is a decimal digit. -/
def isDigit (c : Char) : Bool := 48 ≤ c.toNat && c.toNat ≤ 57

/-- Digits of a radix read onto an accumulator. -/
def readDigits (radix : Nat) : (acc : Nat) → List Char → Option Nat
  | acc, [] => some acc
  | acc, c :: cs => do readDigits radix (acc * radix + (← digitOf? radix c)) cs

/-- One or more digits of a radix, and nothing else. -/
def readNat? (radix : Nat) : List Char → Option Nat
  | [] => none
  | c :: cs => readDigits radix 0 (c :: cs)

/-- Split off an optional sign; `true` means minus. -/
def readSign : List Char → Bool × List Char
  | '-' :: cs => (true, cs)
  | '+' :: cs => (false, cs)
  | cs => (false, cs)

/-- A decimal whole number with an optional sign, inside the inclusive bounds. -/
def readInt? (low high : Int) (cs : List Char) : Option Int := do
  let (negative, rest) := readSign cs
  let n ← readNat? 10 rest
  let i : Int := if negative then -n else n
  if low ≤ i ∧ i ≤ high then some i else none

/-- An unsigned whole number of a radix that fits in a number of bits. -/
def readWord? (radix bits : Nat) (cs : List Char) : Option Nat :=
  (readNat? radix cs).filter (· < twoTo bits)

/-! ### Floating-point notation -/

/-- The parts of a mantissa: its digits read as one number, how many of them follow the point,
and whether there was any digit. -/
structure Mantissa where
  value : Nat := 0
  places : Nat := 0
  anyDigit : Bool := false
  pointSeen : Bool := false

/-- Digits with at most one point; digit separators are passed over here and judged by
`separatorsOk`. -/
def readMantissa (radix : Nat) : Mantissa → List Char → Mantissa × List Char
  | m, [] => (m, [])
  | m, c :: cs =>
    if c == '_' then readMantissa radix m cs
    else if c == '.' then
      if m.pointSeen then (m, c :: cs) else readMantissa radix { m with pointSeen := true } cs
    else match digitOf? radix c with
      | some d => readMantissa radix
          { m with value := m.value * radix + d, anyDigit := true,
                   places := if m.pointSeen then m.places + 1 else m.places } cs
      | none => (m, c :: cs)

/-- Decimal digits and separators of an exponent. -/
def readExponentDigits : (acc : Nat) → List Char → Nat × List Char
  | acc, [] => (acc, [])
  | acc, c :: cs =>
    if c == '_' then readExponentDigits acc cs
    else if isDigit c then readExponentDigits (acc * 10 + (c.toNat - 48)) cs
    else (acc, c :: cs)

/-- An exponent after its mark: an optional sign and at least one digit, the first right after
the sign. -/
def readExponent? (cs : List Char) : Option (Int × List Char) :=
  let (negative, rest) := readSign cs
  match rest with
  | c :: _ =>
    if isDigit c then
      let (n, rest) := readExponentDigits 0 rest
      some (if negative then -(n : Int) else n, rest)
    else none
  | [] => none

/-- What stood before a character, for the separator rule. -/
inductive Before where
  | digit
  | separator
  | other
deriving DecidableEq

/-- A separator stands between two digits; a radix mark counts as a digit. -/
def separatorsOkFrom (hex : Bool) : Before → List Char → Bool
  | b, [] => b != .separator
  | b, c :: cs =>
    if isDigit c || (hex && (digitOf? 16 c).isSome) then separatorsOkFrom hex .digit cs
    else if c == '_' then b == .digit && separatorsOkFrom hex .separator cs
    else b != .separator && separatorsOkFrom hex .other cs

/-- The separator rule for a text whose sign has been taken off. -/
def separatorsOk : List Char → Bool
  | '0' :: c :: cs =>
    if c == 'x' || c == 'X' then separatorsOkFrom true .digit cs
    else separatorsOkFrom false .other ('0' :: c :: cs)
  | cs => separatorsOkFrom false .other cs

/-- A magnitude read from text. -/
inductive Magnitude where
  | nan
  | infinity
  /-- `mantissa · base ^ exponent`. -/
  | number (mantissa base : Nat) (exponent : Int)

/-- Lower case of an ASCII word, for comparing spellings. -/
def spelled (word : String) (cs : List Char) : Bool :=
  cs.map Char.toLower == word.toList

/-- A magnitude in decimal or, after `0x`, in hexadecimal with a mandatory binary exponent. -/
def readMagnitude? (cs : List Char) : Option Magnitude :=
  let hexBody : Option (List Char) := match cs with
    | '0' :: c :: d :: rest => if c == 'x' || c == 'X' then some (d :: rest) else none
    | _ => none
  let separated := cs.contains '_'
  match hexBody with
  | some body =>
    let (m, rest) := readMantissa 16 {} body
    match rest with
    | c :: rest =>
      if !m.anyDigit || !(c == 'p' || c == 'P') then none
      else match readExponent? rest with
        | some (e, []) =>
          if separated && !separatorsOk cs then none
          else some (.number m.value 2 (e - 4 * m.places))
        | _ => none
    | [] => none
  | none =>
    let (m, rest) := readMantissa 10 {} cs
    if !m.anyDigit || (separated && !separatorsOk cs) then none
    else match rest with
      | [] => some (.number m.value 10 (-(m.places : Int)))
      | c :: rest =>
        if c == 'e' || c == 'E' then
          match readExponent? rest with
          | some (e, []) => some (.number m.value 10 (e - m.places))
          | _ => none
        else none

/-- A signed floating-point text: `nan` takes no sign, `inf` and `infinity` may. -/
def readSigned? (cs : List Char) : Option (Bool × Magnitude) :=
  if spelled "nan" cs then some (false, .nan)
  else
    let (negative, rest) := readSign cs
    if spelled "inf" rest || spelled "infinity" rest then some (negative, .infinity)
    else (readMagnitude? rest).map (negative, ·)

/-- The exponent beyond which every non-zero number is out of the range of every format, with
`extra` places of the mantissa to make up for. -/
def exponentLimit (mantissa : Nat) : Nat := 5000 + Nat.log2 mantissa

/-- The bit pattern nearest to a magnitude, or `none` beyond the largest finite number. An
exponent far outside the format is settled without building the power. -/
def Magnitude.bits? (f : BinaryFormat) : Magnitude → Option Nat
  | .nan => some (f.infinityBits + twoTo (f.fractionBits - 1) + 1)
  | .infinity => some f.infinityBits
  | .number m base e =>
    if m == 0 then some 0
    else if (exponentLimit m : Int) < e then none
    else if e < -(exponentLimit m : Int) then some 0
    else if 0 ≤ e then f.nearest (m * base.pow e.toNat) 1
    else f.nearest m (base.pow (-e).toNat)

/-- The bit pattern of a floating-point text in a format; `none` if the text is malformed or out
of range. -/
def readBits? (f : BinaryFormat) (s : String) : Option Nat := do
  let (negative, m) ← readSigned? s.toList
  return f.withSign negative (← m.bits? f)

/-- Read a double. -/
def readDouble? (s : String) : Option Float := (readBits? .double s).map doubleOfBits

/-- Read a single, rounding once. -/
def readSingle? (s : String) : Option Float32 := (readBits? .single s).map singleOfBits

end FormBasic.Decimal
