import FormBasic.Elementary
import FormBasic.Pattern
import FormBasic.Value.Compare

/-!
# Operators on values

What each operator does to evaluated operands. Whole-number arithmetic stays in its variant and
fails rather than wrap around: on the wider words the result is put to a test afterwards. Other
arithmetic is on doubles, except that a date and a number add up to a date.
-/

namespace FormBasic

open Value

namespace Operation

/-- A whole number as an `Integer`, if it fits. -/
def fitInteger (n : Int) : Fallible Value :=
  if minInteger ≤ n ∧ n ≤ maxInteger then .ok (.integer (Int32.ofInt n)) else .error .overflow

/-- Arithmetic on `Integer`s, in words twice as wide. -/
def onIntegers (f : Int64 → Int64 → Int64) (a b : Int32) : Fallible Value :=
  fitInteger (f a.toInt64 b.toInt64).toInt

/-- The sum of two `Long`s. It has wrapped around if it does not lie on that side of the first one
to which the sign of the second one points. -/
def addLongs (a b : Int64) : Fallible Value :=
  let sum := a + b
  if decide (a < sum) != decide (0 < b) then .error .overflow else .ok (.long sum)

/-- The difference of two `Long`s. It wraps around as a sum does. -/
def subtractLongs (a b : Int64) : Fallible Value :=
  let difference := a - b
  if decide (difference < a) != decide (0 < b) then .error .overflow else .ok (.long difference)

/-- The product of two `Long`s. It has wrapped around if division by the first one does not give the
second one back. The least number times `-1` stands apart, since there the division wraps around as
well. -/
def multiplyLongs (a b : Int64) : Fallible Value :=
  if a = 0 then .ok (.long 0)
  else
    let product := a * b
    if product / a ≠ b ∨ (a = -1 ∧ b = Int64.minValue) then .error .overflow
    else .ok (.long product)

/-- Arithmetic on doubles. -/
def onDoubles (f : Float → Float → Float) (l r : Value) : Fallible Value := do
  let a ← l.asDouble
  let b ← r.asDouble
  return .double (f a b)

/-- The number of a numeric value that is no date. -/
def plainNumber? : Value → Option Float
  | .integer n => some (Float.ofInt n.toInt)
  | .long n => some (Float.ofInt n.toInt)
  | .single x => some (Decimal.widen x)
  | .double x => some x
  | _ => none

/-- Addition. Two texts are joined. -/
def add (l r : Value) : Fallible Value :=
  match l, r with
  | .integer a, .integer b => onIntegers (· + ·) a b
  | .long a, .long b => addLongs a b
  | .text a, .text b => .ok (.text (a ++ b))
  | .date d, r =>
    match plainNumber? r with
    | some n => .ok (.date (d + n))
    | none => onDoubles (· + ·) (.date d) r
  | l, .date d =>
    match plainNumber? l with
    | some n => .ok (.date (d + n))
    | none => onDoubles (· + ·) l (.date d)
  | l, r => onDoubles (· + ·) l r

/-- Subtraction. Two dates give the number of days between them. -/
def subtract (l r : Value) : Fallible Value :=
  match l, r with
  | .integer a, .integer b => onIntegers (· - ·) a b
  | .long a, .long b => subtractLongs a b
  | .date a, .date b => .ok (.double (a - b))
  | .date d, r =>
    match plainNumber? r with
    | some n => .ok (.date (d - n))
    | none => onDoubles (· - ·) (.date d) r
  | l, r => onDoubles (· - ·) l r

/-- Multiplication. -/
def multiply (l r : Value) : Fallible Value :=
  match l, r with
  | .integer a, .integer b => onIntegers (· * ·) a b
  | .long a, .long b => multiplyLongs a b
  | l, r => onDoubles (· * ·) l r

/-- Division, always of doubles. -/
def divide (l r : Value) : Fallible Value := do
  let a ← l.asDouble
  let b ← r.asDouble
  if b == 0 then throw .divisionByZero else return .double (a / b)

/-- Whether a value is a `Long`. -/
def isLong : Value → Bool
  | .long _ => true
  | _ => false

section
variable {Word : Type} [DecidableEq Word] [OfNat Word 0] [OfNat Word 1] [Neg Word]

/-- The quotient of two words of one width, cut towards zero. Only that of the least word by `-1`
does not fit. -/
def quotient [Div Word] (variant : Word → Value) (least a b : Word) : Fallible Value :=
  if b = 0 then .error .divisionByZero
  else if b = -1 ∧ a = least then .error .overflow
  else .ok (variant (a / b))

/-- The remainder of two words of one width. Nothing is left over by `-1`. -/
def remainder [Mod Word] (variant : Word → Value) (a b : Word) : Fallible Value :=
  if b = 0 then .error .divisionByZero
  else if b = -1 then .ok (variant 0)
  else .ok (variant (a % b))

end

/-- Division of whole numbers, in the wider variant of the operands. -/
def wholeDivision (onLongs : Int64 → Int64 → Fallible Value)
    (onIntegers : Int32 → Int32 → Fallible Value) (l r : Value) : Fallible Value :=
  if isLong l || isLong r then do
    let a ← l.asLong
    let b ← r.asLong
    onLongs a b
  else do
    let a ← l.asInteger
    let b ← r.asInteger
    onIntegers a b

/-- A logical operator: on two booleans by truth, else on the bits of two `Long`s. -/
def logical (onBools : Bool → Bool → Bool) (onBits : Int64 → Int64 → Int64) (l r : Value) :
    Fallible Value :=
  match l, r with
  | .boolean a, .boolean b => .ok (.boolean (onBools a b))
  | l, r => do
    let a ← l.asLong
    let b ← r.asLong
    return .long (onBits a b)

/-- A logical operator on truth values. -/
def onTruth (f : Bool → Bool → Bool) (l r : Value) : Fallible Value := do
  let a ← l.asBool
  let b ← r.asBool
  return .boolean (f a b)

/-- A shift by the low six bits of the distance. -/
def shift (f : Int64 → Int64 → Int64) (l r : Value) : Fallible Value := do
  let a ← l.asLong
  let distance ← r.asInteger
  return .long (f a (Int64.ofInt (distance.toInt % 64)))

/-- Whether two values are the same instance, or both `Nothing`. -/
def sameInstance : Value → Value → Bool
  | .nothing, .nothing => true
  | .object a, .object b => a.same b
  | _, _ => false

end Operation

open Operation

/-- Apply a binary operator to two proper operands. -/
def Operator.applyProper (op : Operator) (l r : Value) : Fallible Value :=
  match op with
  | .add => Operation.add l r
  | .subtract => Operation.subtract l r
  | .multiply => Operation.multiply l r
  | .divide => Operation.divide l r
  | .integerDivide =>
    wholeDivision (quotient .long Int64.minValue) (quotient .integer Int32.minValue) l r
  | .modulo => wholeDivision (remainder .long) (remainder .integer) l r
  | .power => onDoubles Elementary.pow l r
  | .concatenate => .ok (.text (l.toText ++ r.toText))
  | .equal | .notEqual | .less | .lessOrEqual | .greater | .greaterOrEqual =>
    Value.boolean <$> compareBy l op r
  | .and => logical (· && ·) (· &&& ·) l r
  | .or => logical (· || ·) (· ||| ·) l r
  | .xor => logical (· != ·) (· ^^^ ·) l r
  | .andAlso => onTruth (· && ·) l r
  | .orElse => onTruth (· || ·) l r
  | .shiftLeft => shift (· <<< ·) l r
  | .shiftRight => shift (· >>> ·) l r
  | .is => .ok (.boolean (sameInstance l r))
  | .isNot => .ok (.boolean (!sameInstance l r))
  | .like => .ok (.boolean (Pattern.matchesText l.toText r.toText))
  | .negate | .not => .error (.custom ("Unsupported binary operator: " ++ op.symbol))

/-- Apply a binary operator; an omitted operand counts as `Nothing`. -/
def Operator.apply (op : Operator) (l r : Value) : Fallible Value :=
  op.applyProper l.orNothing r.orNothing

/-- Negation. An `Integer` stays one; everything else becomes a double. -/
def Operation.negate : Value → Fallible Value
  | .integer n => fitInteger (-n.toInt)
  | v => do return .double (-(← v.asDouble))

/-- Complement: of a truth value, or of the bits of a `Long`. -/
def Operation.complement : Value → Fallible Value
  | .boolean b => .ok (.boolean (!b))
  | v => do return .long (~~~(← v.asLong))

/-- Apply a unary operator; an omitted operand counts as `Nothing`. -/
def Operator.applyUnary (op : Operator) (v : Value) : Fallible Value :=
  match op with
  | .negate => Operation.negate v.orNothing
  | .not => Operation.complement v.orNothing
  | op => .error (.custom ("Unsupported unary operator: " ++ op.symbol))

/-- Apply a binary operator given by its exact spelling. -/
def Operation.applyNamed (symbol : String) (l r : Value) : Fallible Value :=
  match Operator.ofSymbol? symbol with
  | some op => op.apply l r
  | none => .error (.custom ("Unsupported binary operator: " ++ symbol))

/-- Apply a unary operator given by its exact spelling. -/
def Operation.applyUnaryNamed (symbol : String) (v : Value) : Fallible Value :=
  match Operator.ofSymbol? symbol with
  | some op => op.applyUnary v
  | none => .error (.custom ("Unsupported unary operator: " ++ symbol))

end FormBasic
