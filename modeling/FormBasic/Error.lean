import FormBasic.Value

/-!
# Errors

What can go wrong when a program runs, by cause. `Cause.message` is the only place where the
wording stands.
-/

namespace FormBasic

/-- The cause of a runtime error. -/
inductive Cause where
  | undefinedVariable (name : String)
  | undefinedFunction (name : String)
  | typeMismatch (expected got : String)
  | divisionByZero
  | custom (message : String)
deriving Repr, DecidableEq, Inhabited

/-- The text of a runtime error. -/
def Cause.message : Cause → String
  | .undefinedVariable name => "Undefined variable: " ++ name
  | .undefinedFunction name => "Undefined function: " ++ name
  | .typeMismatch expected got => "Type error: expected " ++ expected ++ ", got " ++ got
  | .divisionByZero => "Division by zero"
  | .custom message => message

/-- A result that does not fit its type. -/
def Cause.overflow : Cause := .custom "Arithmetic operation resulted in an overflow"

/-- Whether the error only says that a name could not be found. -/
def Cause.isMissing : Cause → Bool
  | .undefinedVariable _ | .undefinedFunction _ => true
  | _ => false

/-- A computation on values that may fail. -/
abbrev Fallible := Except Cause

end FormBasic
