import FormBasic.Calendar
import FormBasic.Table
import FormBasic.Text.Case

/-!
# Values

The values a program computes with. Objects are references: the reference knows the class it was
made with, and the heap knows the fields. Arrays are immutable, but each array that is built has a
tag of its own, by which two arrays with equal elements are told apart.

`absent` stands for an argument that was left out. It is no value a program can write down, and
most operations refuse it or take it for `Nothing`.
-/

namespace FormBasic

/-- A reference to an instance. The class name never changes after construction. -/
structure ObjectRef where
  index : Nat
  className : String
deriving Repr, DecidableEq, Inhabited

/-- Two references are to the same instance. -/
def ObjectRef.same (a b : ObjectRef) : Bool := a.index == b.index

/-- A value. -/
inductive Value where
  | integer (value : Int32)
  | long (value : Int64)
  | single (value : Float32)
  | double (value : Float)
  /-- Days since day zero, the time of day in the fraction. -/
  | date (value : Float)
  | text (value : String)
  | boolean (value : Bool)
  | nothing
  | object (ref : ObjectRef)
  | array (tag : Nat) (elements : List Value)
  /-- An argument that was left out. -/
  | absent
deriving Inhabited

namespace Value

/-- The name of the variant. -/
def typeName : Value → String
  | .integer _ => "Integer"
  | .long _ => "Long"
  | .single _ => "Single"
  | .double _ => "Double"
  | .date _ => "Date"
  | .text _ => "String"
  | .boolean _ => "Boolean"
  | .nothing => "Nothing"
  | .object _ => "Object"
  | .array _ _ => "Array"
  | .absent => "Nothing"

/-- The text of a boolean. -/
def boolText (b : Bool) : String := if b then "True" else "False"

/-- The string form of a value. -/
def toText : Value → String
  | .integer n => Decimal.intText n.toInt
  | .long n => Decimal.intText n.toInt
  | .single x => Decimal.positionalSingle x
  | .double x => Decimal.positional x
  | .date x => (Calendar.Moment.ofDayNumber x).text
  | .text s => s
  | .boolean b => boolText b
  | .nothing => "Nothing"
  | .object r => "[Object " ++ r.className ++ "]"
  | .array _ _ => "[Array]"
  | .absent => "Nothing"

/-- The elements of an array between braces. -/
def describe (elements : List Value) : String :=
  "\x7b" ++ String.intercalate ", " (elements.map toText) ++ "\x7d"

/-- `Nothing`, written or by omission. -/
def isNothing : Value → Bool
  | .nothing | .absent => true
  | _ => false

/-- The numeric variants, dates among them. -/
def isNumeric : Value → Bool
  | .integer _ | .long _ | .single _ | .double _ | .date _ => true
  | _ => false

/-- A value that a program can hold, which an omitted argument is not. -/
def isProper : Value → Bool
  | .absent => false
  | _ => true

/-- An omitted argument taken for `Nothing`. -/
def orNothing : Value → Value
  | .absent => .nothing
  | v => v

/-- Whether a value counts as true where no conversion is asked for. -/
def truthy : Value → Bool
  | .boolean b => b
  | .integer n => n != 0
  | .long n => n != 0
  | .single x => x != 0
  | .double x => x != 0
  | .date x => x != 0
  | .text s => s != ""
  | .object _ | .array _ _ => true
  | .nothing | .absent => false

end Value

end FormBasic
