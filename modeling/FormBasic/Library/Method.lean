import FormBasic.Library.Function

/-!
# Methods of plain values

The methods that texts and arrays have, and `ToString` of every value that is no object.
-/

namespace FormBasic.Library

/-- A whole-number argument that a method needs. -/
def neededInt (method : String) (args : List Value) (i : Nat) : Fallible Int :=
  match args[i]? with
  | some v => Int32.toInt <$> v.asInteger
  | none =>
    .error (.custom (method ++ " expects at least " ++ Decimal.intText (i + 1) ++ " arguments"))

/-- The text of an argument, empty if there are too few. -/
def textOr (args : List Value) (i : Nat) : List Char :=
  match args[i]? with
  | some v => v.toText.toList
  | none => []

/-- The characters from a position on, counted from zero, up to a length if there is one. -/
def substring (method : String) (cs : List Char) (args : List Value) : Fallible Value := do
  let start ← neededInt method args 0
  let stop ← if 1 < args.length then (start + ·) <$> neededInt method args 1
    else pure (cs.length : Int)
  if start < 0 || (cs.length : Int) < start || stop < start || (cs.length : Int) < stop then
    throw (.custom "Substring index out of range")
  return ofChars ((cs.drop start.toNat).take (stop - start).toNat)

/-- The padding that makes a text so wide. -/
def padding (method : String) (cs : List Char) (args : List Value) : Fallible (List Char) := do
  let width ← neededInt method args 0
  let fill := (textOr args 1).headD ' '
  return List.replicate (width - cs.length).toNat fill

/-- The separator of a text's `Split`, a blank unless given. -/
def splitSeparator (args : List Value) : List Char :=
  match textOr args 0 with
  | [] => [' ']
  | sep => sep

/-- A method of a text other than `Split`. -/
def textMethod (method : String) (cs : List Char) (args : List Value) : Fallible Value :=
  match Text.lower method with
  | "toupper" => return ofChars (cs.map Text.upperChar)
  | "tolower" => return ofChars (cs.map Text.lowerChar)
  | "trim" => return ofChars (Text.trimChars Text.isBlank cs)
  | "trimstart" => return ofChars (cs.dropWhile isPlainBlank)
  | "trimend" => return ofChars (Text.dropEndWhile isPlainBlank cs)
  | "contains" => return .boolean (Text.occursIn (textOr args 0) cs)
  | "startswith" => return .boolean (Text.startsWith (textOr args 0) cs)
  | "endswith" => return .boolean (Text.endsWith (textOr args 0) cs)
  | "indexof" => return ofInt (indexIn cs (textOr args 0))
  | "replace" => return ofChars (Text.replaceAll (textOr args 0) (textOr args 1) cs)
  | "substring" => substring method cs args
  | "padleft" => return ofChars ((← padding method cs args) ++ cs)
  | "padright" => return ofChars (cs ++ (← padding method cs args))
  | _ => throw (.undefinedFunction ("String." ++ method))

/-- A method of an array. -/
def arrayMethod (method : String) (elements : List Value) (args : List Value) : Fallible Value :=
  match Text.lower method with
  | "getupperbound" => return ofInt (elements.length - 1)
  | "getlowerbound" => return ofInt 0
  | "contains" =>
    match args with
    | [] => return .boolean false
    | v :: _ => return .boolean (elements.any (·.equal v))
  | _ => throw (.undefinedFunction ("Array." ++ method))

/-- `ToString`, with a format if there is an argument. -/
def toStringMethod (v : Value) (args : List Value) : Fallible Value :=
  match args with
  | [] => .ok (.text v.toText)
  | mask :: _ => format [v, mask]

/-- A method of a value that is no object, other than a text's `Split`. -/
def valueMethod (v : Value) (method : String) (args : List Value) : Fallible Value :=
  if Text.lower method == "tostring" then toStringMethod v args
  else match v with
    | .array _ elements => arrayMethod method elements args
    | .text s => textMethod method s.toList args
    | v => .error (.undefinedFunction (v.typeName ++ "." ++ method))

end FormBasic.Library
