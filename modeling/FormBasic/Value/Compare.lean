import FormBasic.Syntax.Operator
import FormBasic.Value.Convert

/-!
# Equality and order of values

One equality serves `=`, `<>` and `Select Case`. Values of one variant compare as that variant
does, texts up to case. A text and another value compare by the string form of the other, a boolean
and a whole number by truth, and everything else by its number, if it has one.
-/

namespace FormBasic.Value

/-- The value of a whole-number variant. -/
def whole? : Value → Option Int
  | .integer n => some n.toInt
  | .long n => some n.toInt
  | _ => none

/-- A text and a value that is no text. -/
def textEquals (s : String) : Value → Bool
  | .nothing => s == ""
  | v => Text.equalFold s v.toText

/-- Two values by their numbers. -/
def numbersEqual (l r : Value) : Bool :=
  match asDouble l, asDouble r with
  | .ok a, .ok b => a == b
  | _, _ => false

/-- Equality of two values, neither of them absent. -/
def equalProper : Value → Value → Bool
  | .boolean a, .boolean b => a == b
  | .integer a, .integer b => a == b
  | .long a, .long b => a == b
  | .single a, .single b => a == b
  | .double a, .double b => a == b
  | .date a, .date b => a == b
  | .text a, .text b => Text.equalFold a b
  | .nothing, .nothing => true
  | .object a, .object b => a.same b
  | .array a _, .array b _ => a == b
  | .text s, r => textEquals s r
  | l, .text s => textEquals s l
  | .boolean b, r =>
    match whole? r with
    | some n => (n != 0) == b
    | none => numbersEqual (.boolean b) r
  | l, .boolean b =>
    match whole? l with
    | some n => (n != 0) == b
    | none => numbersEqual l (.boolean b)
  | l, r => numbersEqual l r

/-- Equality; an omitted argument counts as `Nothing`. -/
def equal (l r : Value) : Bool := equalProper l.orNothing r.orNothing

/-- The order of two values: whole numbers of one variant and texts directly, all else by number.
Texts are ordered by their characters, case counting. The undefined number is equal to all. -/
def compare (l r : Value) : Fallible Ordering :=
  match l, r with
  | .integer a, .integer b => .ok (Ord.compare a.toInt b.toInt)
  | .long a, .long b => .ok (Ord.compare a.toInt b.toInt)
  | .text a, .text b => .ok (Ord.compare a b)
  | l, r => do
    let a ← asDouble l
    let b ← asDouble r
    return if a < b then .lt else if a > b then .gt else .eq

/-- Apply a comparison operator. -/
def compareBy (l : Value) (op : Operator) (r : Value) : Fallible Bool :=
  match op with
  | .equal => .ok (equal l r)
  | .notEqual => .ok (!equal l r)
  | op => do
    let c ← compare l r
    match op with
    | .less => return c.isLT
    | .lessOrEqual => return c.isLE
    | .greater => return c.isGT
    | .greaterOrEqual => return c.isGE
    | op => throw (.custom ("Unsupported comparison operator: " ++ op.symbol))

/-- Whether a value lies between two bounds: integers and texts directly, all else by number. What
has no number lies in no range. -/
def inRange (v low high : Value) : Bool :=
  match v, low, high with
  | .integer v, .integer low, .integer high => low ≤ v && v ≤ high
  | .text v, .text low, .text high => !(v < low) && !(high < v)
  | v, low, high =>
    match asDouble v, asDouble low, asDouble high with
    | .ok v, .ok low, .ok high => low ≤ v && v ≤ high
    | _, _, _ => false

end FormBasic.Value
