import FormBasic.Library.Dates
import FormBasic.Library.Number
import FormBasic.Library.Text
import FormBasic.Value.Arrays
import FormBasic.Value.Coerce

/-!
# Built-in functions

The functions that compute a value from their arguments alone. `function?` finds them by name in
lower case. Functions that show something, read something or build an array belong to the running
program and stand elsewhere.
-/

namespace FormBasic.Library

/-- A function of its arguments. -/
abbrev Function := List Value → Fallible Value

/-! ### Arguments -/

/-- Check the number of arguments. -/
def arity (name : String) (args : List Value) (least most : Nat) : Fallible Unit :=
  if least ≤ args.length && args.length ≤ most then .ok ()
  else
    let got := "wrong number of arguments to " ++ name ++ ". got=" ++ Decimal.intText args.length
    .error (.custom (if least == most then got ++ ", want=" ++ Decimal.intText least else got))

/-- The argument at a position, absent if there is none. -/
def argAt (args : List Value) (i : Nat) : Value := args.getD i .absent

/-- A whole-number argument with a value for when it is left out. -/
def intArg (args : List Value) (i : Nat) (default : Int) : Fallible Int :=
  match argAt args i with
  | .absent => .ok default
  | v => Int32.toInt <$> v.asInteger

/-- A text argument, empty when it is left out. -/
def textArg (args : List Value) (i : Nat) : String :=
  match argAt args i with
  | .absent => ""
  | v => v.toText

/-- The characters of an argument. -/
def charsArg (args : List Value) (i : Nat) : List Char := (argAt args i).toText.toList

/-- A text value of characters. -/
def ofChars (cs : List Char) : Value := .text (String.ofList cs)

/-- An integer value; it wraps around where it does not fit. -/
def ofInt (n : Int) : Value := .integer (Int32.ofInt n)

/-- A function of one text. -/
def onText (name : String) (f : List Char → List Char) : Function := fun args => do
  arity name args 1 1
  return ofChars (f (charsArg args 0))

/-- A function of one number. -/
def onDouble (name : String) (f : Float → Float) : Function := fun args => do
  arity name args 1 1
  return .double (f (← (argAt args 0).asDouble))

/-- A function that always gives one value. -/
def constant (v : Value) : Function := fun _ => .ok v

/-! ### Texts -/

/-- The length of a text or array; `Nothing` has none. -/
def len : Function := fun args => do
  arity "Len" args 1 1
  match argAt args 0 with
  | .array _ elements => return ofInt elements.length
  | v => return ofInt (if v.isNothing then 0 else v.toText.length)

/-- A part of a text that a length decides. -/
def partOfLength (name : String) (f : List Char → Nat → List Char) : Function := fun args => do
  arity name args 2 2
  let n ← intArg args 1 0
  if n < 0 then throw (.custom "Argument 'Length' must be greater or equal to zero")
  return ofChars (f (charsArg args 0) n.toNat)

/-- So many characters from a position on, all of them if no length is given. -/
def mid : Function := fun args => do
  arity "Mid" args 2 3
  let cs := charsArg args 0
  let start ← intArg args 1 1
  if start < 1 then throw (.custom "Argument 'Start' must be greater than zero")
  let length ← intArg args 2 cs.length
  return ofChars (midPart cs start length)

/-- The position of a text in another, from a position on. -/
def inStrFunction : Function := fun args => do
  arity "InStr" args 2 3
  match args with
  | [start, s, t] =>
    let n ← start.asInteger
    return ofInt (inStr n.toInt s.toText.toList t.toText.toList)
  | args => return ofInt (inStr 1 (charsArg args 0) (charsArg args 1))

/-- Replace all occurrences; the empty text occurs nowhere. -/
def replace : Function := fun args => do
  arity "Replace" args 3 3
  let cs := charsArg args 0
  let pat := charsArg args 1
  return ofChars (if pat.isEmpty then cs else Text.replaceAll pat (charsArg args 2) cs)

/-- The character of a code. -/
def chr : Function := fun args => do
  arity "Chr" args 1 1
  let n := (← (argAt args 0).asInteger).toInt
  if n < 0 || 0xffff < n then
    throw (.custom ("Argument 'CharCode' " ++ Decimal.intText n ++ " is out of range"))
  return ofChars [charOf n.toNat]

/-- The code of the first character. -/
def asc : Function := fun args => do
  arity "Asc" args 1 1
  match charsArg args 0 with
  | [] => throw (.custom "Argument 'String' cannot be empty")
  | c :: _ => return ofInt c.toNat

/-- A value as text, with a blank in the place of the sign of a number that is not negative. -/
def strFunction : Function := fun args => do
  arity "Str" args 1 1
  let v := argAt args 0
  match v.asDouble with
  | .ok x => return .text (if x ≥ 0 then " " ++ v.toText else v.toText)
  | .error _ => return .text v.toText

/-- The number at the start of a text. -/
def val : Function := fun args => do
  arity "Val" args 1 1
  return .double (leadingNumber (argAt args 0).toText)

/-- So many blanks. -/
def space : Function := fun args => do
  arity "Space" args 1 1
  return ofChars (List.replicate (← intArg args 0 0).toNat ' ')

/-- A date or a number in a format; other values as they are. -/
def format : Function := fun args => do
  arity "Format" args 1 2
  let v := argAt args 0
  let mask := textArg args 1
  match v with
  | .date x => return .text (formatDate (Calendar.Moment.ofDayNumber x) mask)
  | v =>
    if mask == "" then return .text v.toText
    else match v.asDouble with
      | .ok x => return .text (formatNumber x mask)
      | .error _ => return .text v.toText

/-- Whether an argument is `Nothing` or shows as the empty text. -/
def isNullOrEmpty : Function := fun args => do
  arity "String.IsNullOrEmpty" args 1 1
  let v := argAt args 0
  return .boolean (v.isNothing || v.toText == "")

/-! ### Conversion and inspection -/

/-- Convert to a type. A blank text is no number. -/
def convert (typeName : String) : Function := fun args => do
  arity ("C" ++ typeName) args 1 1
  let kind := TypeKind.ofName typeName
  match argAt args 0 with
  | .text s =>
    if kind != .text && kind != .date && kind != .boolean && Text.trim s == "" then
      throw (.typeMismatch typeName "String")
    else Value.coerce kind (.text s)
  | v => v.coerce kind

/-- Whether a value is a number or a text that reads as one. -/
def isNumericFunction : Function := fun args => do
  arity "IsNumeric" args 1 1
  match argAt args 0 with
  | .text s => return .boolean (Value.readNumber? s).isSome
  | .date _ => return .boolean false
  | v => return .boolean v.isNumeric

/-- Whether a value is `Nothing`. -/
def isNothingFunction : Function := fun args => do
  arity "IsNothing" args 1 1
  return .boolean (argAt args 0).isNothing

/-- The class of an instance, or the name of the variant. -/
def typeNameFunction : Function := fun args => do
  arity "TypeName" args 1 1
  match argAt args 0 with
  | .object r => return .text r.className
  | v => return .text v.typeName

/-- One of two values, both already evaluated. -/
def iif : Function := fun args => do
  arity "IIf" args 3 3
  return argAt args (if ← (argAt args 0).asBool then 1 else 2)

/-! ### Numbers -/

/-- The magnitude; a whole number keeps its variant. -/
def abs : Function := fun args => do
  arity "Abs" args 1 1
  match argAt args 0 with
  | .integer n =>
    if n.toInt == Value.minInteger then throw .overflow
    return .integer (if n < 0 then -n else n)
  | .long n =>
    if n.toInt == Value.minLong then throw .overflow
    return .long (if n < 0 then -n else n)
  | v => return .double (← v.asDouble).abs

/-- Round to a whole number; whole numbers stay as they are. -/
def integral (name : String) (f : Float → Float) : Function := fun args => do
  arity name args 1 1
  match argAt args 0 with
  | .integer n => return .integer n
  | .long n => return .long n
  | v => return .double (f (← v.asDouble))

/-- Round to so many decimal places, a tie to the even neighbour. -/
def round : Function := fun args => do
  arity "Round" args 1 2
  let x ← (argAt args 0).asDouble
  let digits ← intArg args 1 0
  let scale := Elementary.pow 10 (Float.ofInt digits)
  return .double (Elementary.roundEven (x * scale) / scale)

/-- A power. -/
def power : Function := fun args => do
  arity "Math.Pow" args 2 2
  let x ← (argAt args 0).asDouble
  let y ← (argAt args 1).asDouble
  return .double (Elementary.pow x y)

/-- The first of two values if its order to the second is accepted, else the second. -/
def choose (accepts : Ordering → Bool) : Function := fun args => do
  arity "Math.Max" args 2 2
  let l := argAt args 0
  let r := argAt args 1
  return if accepts (← l.compare r) then l else r

/-- The sign of a number. -/
def sign : Function := fun args => do
  arity "Math.Sign" args 1 1
  let x ← (argAt args 0).asDouble
  return ofInt (if x > 0 then 1 else if x < 0 then -1 else 0)

/-! ### Dates -/

/-- A part of a date. -/
def datePart (name : String) (part : Calendar.Moment → Int) : Function := fun args => do
  arity name args 1 1
  return ofInt (part (Calendar.Moment.ofDayNumber (← (argAt args 0).asDate)))

/-- Move a date by so many intervals. -/
def dateAdd : Function := fun args => do
  arity "DateAdd" args 3 3
  let n ← (argAt args 1).asInteger
  let x ← (argAt args 2).asDate
  let interval := (argAt args 0).toText
  match addInterval? interval n.toInt (Calendar.Moment.ofDayNumber x) with
  | some t => return .date t.dayNumber
  | none => throw (.custom ("Unknown DateAdd interval '" ++ interval ++ "'"))

/-! ### Arrays -/

/-- The elements of an argument that has to be an array. -/
def arrayArg (name : String) (args : List Value) (i : Nat) : Fallible (List Value) :=
  match argAt args i with
  | .array _ elements => .ok elements
  | v => .error (.custom ("argument to " ++ name ++ " must be Array, got " ++ v.typeName))

/-- The greatest index of a dimension. -/
def uBound : Function := fun args => do
  arity "UBound" args 1 2
  let _ ← arrayArg "UBound" args 0
  let dimension ← intArg args 1 1
  return ofInt (← upperBound "UBound" (dimension - 1).toNat (argAt args 0))

/-- The least index, which is zero. -/
def lBound : Function := fun args => do
  arity "LBound" args 1 2
  let _ ← arrayArg "LBound" args 0
  return ofInt 0

/-- The texts of the elements with a separator between them, a blank unless given. -/
def join : Function := fun args => do
  arity "Join" args 1 2
  let elements ← arrayArg "Join" args 0
  let separator := if args.length == 2 then charsArg args 1 else [' ']
  return ofChars (joinTexts (elements.map fun v => v.toText.toList) separator)

/-- The pieces of a text between separators, a blank unless given. -/
def split (args : List Value) : Fallible (List String) := do
  arity "Split" args 1 2
  let separator := if args.length == 2 then charsArg args 1 else [' ']
  return (splitText (charsArg args 0) separator).map String.ofList

/-! ### The table -/

/-- The ratio of a circle's circumference to its diameter. -/
def pi : Float := 3.141592653589793

/-- The base of the natural logarithm. -/
def euler : Float := 2.718281828459045

/-- Text functions by name. -/
def textFunction? : String → Option Function
  | "len" => some len
  | "ucase" => some (onText "UCase" (·.map Text.upperChar))
  | "lcase" => some (onText "LCase" (·.map Text.lowerChar))
  | "trim" => some (onText "Trim" (Text.trimChars (· == ' ')))
  | "ltrim" => some (onText "LTrim" (·.dropWhile (· == ' ')))
  | "rtrim" => some (onText "RTrim" (Text.dropEndWhile (· == ' ')))
  | "left" => some (partOfLength "Left" leftPart)
  | "right" => some (partOfLength "Right" rightPart)
  | "mid" => some mid
  | "instr" => some inStrFunction
  | "replace" => some replace
  | "chr" => some chr
  | "asc" => some asc
  | "str" => some strFunction
  | "val" => some val
  | "space" => some space
  | "format" => some format
  | "string.isnullorempty" => some isNullOrEmpty
  | _ => none

/-- Conversions and inspections by name. -/
def valueFunction? : String → Option Function
  | "cstr" => some (convert "String")
  | "cint" => some (convert "Integer")
  | "clng" => some (convert "Long")
  | "cdbl" => some (convert "Double")
  | "csng" => some (convert "Single")
  | "cbool" => some (convert "Boolean")
  | "cdate" => some (convert "Date")
  | "isnumeric" => some isNumericFunction
  | "isnothing" => some isNothingFunction
  | "typename" => some typeNameFunction
  | "iif" => some iif
  | "ubound" => some uBound
  | "lbound" => some lBound
  | "join" => some join
  | _ => none

/-- Number functions by name. -/
def numberFunction? : String → Option Function
  | "abs" => some abs
  | "sqr" => some (onDouble "Sqr" Float.sqrt)
  | "int" => some (integral "Int" Float.floor)
  | "fix" => some (integral "Fix" Elementary.truncate)
  | "round" => some round
  | "math.abs" => some abs
  | "math.sqrt" => some (onDouble "Math.Sqrt" Float.sqrt)
  | "math.floor" => some (onDouble "Math.Floor" Float.floor)
  | "math.ceiling" => some (onDouble "Math.Ceiling" Float.ceil)
  | "math.truncate" => some (onDouble "Math.Truncate" Elementary.truncate)
  | "math.sin" => some (onDouble "Math.Sin" Elementary.sin)
  | "math.cos" => some (onDouble "Math.Cos" Elementary.cos)
  | "math.tan" => some (onDouble "Math.Tan" Elementary.tan)
  | "math.log" => some (onDouble "Math.Log" Elementary.log)
  | "math.exp" => some (onDouble "Math.Exp" Elementary.exp)
  | "math.round" => some round
  | "math.pow" => some power
  | "math.max" => some (choose (·.isGE))
  | "math.min" => some (choose (·.isLE))
  | "math.sign" => some sign
  | "math.pi" => some (constant (.double pi))
  | "math.e" => some (constant (.double euler))
  | _ => none

/-- Date functions by name. -/
def dateFunction? : String → Option Function
  | "year" => some (datePart "Year" (·.date.year))
  | "month" => some (datePart "Month" (·.date.month))
  | "day" => some (datePart "Day" (·.date.day))
  | "hour" => some (datePart "Hour" (·.hour))
  | "minute" => some (datePart "Minute" (·.minute))
  | "second" => some (datePart "Second" (·.secondOfMinute))
  | "dateadd" => some dateAdd
  | _ => none

/-- The function of a name in lower case. -/
def function? (key : String) : Option Function :=
  textFunction? key <|> valueFunction? key <|> numberFunction? key <|> dateFunction? key

end FormBasic.Library
