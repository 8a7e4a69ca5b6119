import FormBasic.Calendar.Reader
import FormBasic.Decimal.Reader
import FormBasic.Error
import FormBasic.Text.Quoted

/-!
# Conversions between values

Numbers from values and from texts. Whole-number conversions of floating-point numbers cut the
fraction off and stay within the range of the target; a `Long` becomes an `Integer` by its low
half. Texts are read in decimal, or in the radix of a `&H` or `&O` mark.
-/

namespace FormBasic.Value

/-- Cut the fraction off and clamp to a range; the undefined number gives zero. -/
def clamp (low high : Int) (x : Float) : Int :=
  match Decimal.decodeDouble x with
  | .nan => 0
  | .infinity negative => if negative then low else high
  | .finite negative m e =>
    if 1100 < e then (if negative then low else high)
    else
      let n : Int := if 0 ≤ e then m * twoTo e.toNat else m / twoTo (-e).toNat
      max low (min high (if negative then -n else n))

/-- The least `Integer`. -/
def minInteger : Int := minSigned 32

/-- The greatest `Integer`. -/
def maxInteger : Int := maxSigned 32

/-- The least `Long`. -/
def minLong : Int := minSigned 64

/-- The greatest `Long`. -/
def maxLong : Int := maxSigned 64

/-- Read a whole number of so many bits: decimal with an optional sign, or the bits of the word
after a radix mark. -/
def readWhole? (bits : Nat) (s : String) : Option Int :=
  let cs := Text.trimChars Text.isBlank s.toList
  let word (radix : Nat) (rest : List Char) : Option Int :=
    (Decimal.readWord? radix bits rest).map fun n => Int.bmod n (twoTo bits)
  match cs with
  | '&' :: c :: rest =>
    if c == 'H' || c == 'h' then word 16 rest
    else if c == 'O' || c == 'o' then word 8 rest
    else none
  | cs => Decimal.readInt? (minSigned bits) (maxSigned bits) cs

/-- Read a number, blanks around it aside. -/
def readNumber? (s : String) : Option Float := Decimal.readDouble? (Text.trim s)

/-- As an `Integer`. -/
def asInteger : Value → Fallible Int32
  | .integer n => .ok n
  | .long n => .ok n.toInt32
  | .single x => .ok (Int32.ofInt (clamp minInteger maxInteger (Decimal.widen x)))
  | .double x => .ok (Int32.ofInt (clamp minInteger maxInteger x))
  | .date x => .ok (Int32.ofInt (clamp minInteger maxInteger x))
  | .text s =>
    match readWhole? 32 s with
    | some n => .ok (Int32.ofInt n)
    | none => .error (.typeMismatch "Integer" (Text.quote s))
  | .boolean b => .ok (if b then -1 else 0)
  | .nothing => .ok 0
  | v => .error (.typeMismatch "Integer" v.typeName)

/-- As a `Long`. -/
def asLong : Value → Fallible Int64
  | .integer n => .ok n.toInt64
  | .long n => .ok n
  | .single x => .ok (Int64.ofInt (clamp minLong maxLong (Decimal.widen x)))
  | .double x => .ok (Int64.ofInt (clamp minLong maxLong x))
  | .date x => .ok (Int64.ofInt (clamp minLong maxLong x))
  | .text s =>
    match readWhole? 64 s with
    | some n => .ok (Int64.ofInt n)
    | none => .error (.typeMismatch "Long" (Text.quote s))
  | .boolean b => .ok (if b then -1 else 0)
  | .nothing => .ok 0
  | v => .error (.typeMismatch "Long" v.typeName)

/-- As a double, for arithmetic. Booleans are no numbers here. -/
def asDouble : Value → Fallible Float
  | .integer n => .ok (Float.ofInt n.toInt)
  | .long n => .ok (Float.ofInt n.toInt)
  | .single x => .ok (Decimal.widen x)
  | .double x => .ok x
  | .date x => .ok x
  | .text s =>
    match readNumber? s with
    | some x => .ok x
    | none => .error (.typeMismatch "Double" (Text.quote s))
  | .nothing => .ok 0
  | v => .error (.typeMismatch "Double" v.typeName)

/-- As a boolean. A text that is neither a truth value nor a number is true unless empty. -/
def asBool : Value → Fallible Bool
  | .boolean b => .ok b
  | .integer n => .ok (n != 0)
  | .long n => .ok (n != 0)
  | .single x => .ok (x != 0)
  | .double x => .ok (x != 0)
  | .date x => .ok (x != 0)
  | .text s =>
    let word := Text.lower s
    if word == "true" then .ok true
    else if word == "false" then .ok false
    else match readNumber? s with
      | some x => .ok (x != 0)
      | none => .ok (s != "")
  | .object _ => .ok true
  | .nothing => .ok false
  | v => .error (.typeMismatch "Boolean" v.typeName)

/-- Read a date text, blanks around it aside. -/
def parseDate (s : String) : Fallible Float :=
  let cs := Text.trimChars Text.isBlank s.toList
  match Calendar.read? cs with
  | some t => .ok t.dayNumber
  | none => .error (.custom ("Cannot parse date/time: " ++ String.ofList cs))

end FormBasic.Value
