import FormBasic.Elementary
import FormBasic.Value.Convert

/-!
# Declared types

The conversion that a declaration, a parameter or a function result applies to a value, and the
value a variable of a type starts with. Types that are not known, such as class names, leave values
alone.
-/

namespace FormBasic

/-- The types that convert values. -/
inductive TypeKind where
  | integer
  | long
  | single
  | double
  | text
  | boolean
  | date
  /-- Any other type name. -/
  | other
deriving Repr, DecidableEq

/-- The type of a name, in any letter case. -/
def TypeKind.ofName (name : String) : TypeKind :=
  match Text.lower name with
  | "integer" => .integer
  | "short" => .integer
  | "byte" => .integer
  | "long" => .long
  | "single" => .single
  | "double" => .double
  | "decimal" => .double
  | "currency" => .double
  | "string" => .text
  | "boolean" => .boolean
  | "date" => .date
  | _ => .other

/-- The value a variable of a type starts with. -/
def TypeKind.default : TypeKind → Value
  | .integer => .integer 0
  | .long => .long 0
  | .single => .single 0
  | .double => .double 0
  | .text => .text ""
  | .boolean => .boolean false
  | .date => .date 0
  | .other => .nothing

namespace Value

/-- As a number rounded to the nearest whole one, a tie to the even one. Whole numbers and texts
that spell one are taken as they are. -/
def rounded (v : Value) : Fallible Float :=
  match v with
  | .integer n => .ok (Float.ofInt n.toInt)
  | .long n => .ok (Float.ofInt n.toInt)
  | .boolean b => .ok (if b then -1 else 0)
  | .text s =>
    match readWhole? 64 s with
    | some n => .ok (Float.ofInt n)
    | none => Elementary.roundEven <$> v.asDouble
  | v => Elementary.roundEven <$> v.asDouble

/-- As a date: a text is read as one, a number counts days. -/
def asDate (v : Value) : Fallible Float :=
  match v with
  | .text s => parseDate s
  | v => v.asDouble

/-- A whole double in 32 bits; the undefined number gives the least word. -/
def wordOfRounded (bits : Nat) (x : Float) : Int :=
  if x.isNaN then minSigned bits else Calendar.wordOfFloat x

/-- Convert a value that is not `Nothing` to a type. -/
def coerceProper (kind : TypeKind) (v : Value) : Fallible Value :=
  match kind with
  | .integer =>
    match v with
    | .integer _ => .ok v
    | v => do
      let d ← v.rounded
      if d < -2147483648 || d > 2147483647 then throw .overflow
      else return .integer (Int32.ofInt (wordOfRounded 32 d))
  | .long =>
    match v with
    | .long _ => .ok v
    | v => do
      let d ← v.rounded
      if d < -9223372036854775808 || d ≥ 9223372036854775808 then throw .overflow
      else return .long (Int64.ofInt (wordOfRounded 64 d))
  | .double => Value.double <$> v.asDouble
  | .single => (fun d => Value.single (Decimal.narrow d)) <$> v.asDouble
  | .text => .ok (.text v.toText)
  | .boolean => Value.boolean <$> v.asBool
  | .date => Value.date <$> v.asDate
  | .other => .ok v

/-- Convert a value to a type; `Nothing` becomes the value the type starts with. -/
def coerce (kind : TypeKind) (v : Value) : Fallible Value :=
  if v.isNothing then .ok kind.default else coerceProper kind v

/-- Convert a value to a type given by name. -/
def coerceTo (typeName : String) (v : Value) : Fallible Value := coerce (.ofName typeName) v

end Value

/-- The value a variable of a named type starts with. -/
def defaultOf (typeName : String) : Value := (TypeKind.ofName typeName).default

end FormBasic
