import FormBasic.Syntax.Operator

/-!
# Expressions

Expression trees. A place that the source leaves empty (an omitted argument, a member without an
owner, an inline `If` without its third part) holds `Expr.omitted`.
-/

namespace FormBasic

/-- A parameter of a procedure, over a type of expressions. -/
structure ParameterOf (ε : Type) where
  name : String
  typeName : String := ""
  byRef : Bool := false
  optional : Bool := false
  default : Option ε := none
  paramArray : Bool := false

/-- An expression of the language. -/
inductive Expr where
  /-- A place left empty. -/
  | omitted
  | integer (value : Int32)
  | long (value : Int64)
  | double (value : Float)
  | text (value : String)
  | boolean (value : Bool)
  /-- A date by the text between its delimiters. -/
  | date (value : String)
  | nothing
  | array (elements : List Expr)
  | variable (name : String)
  | member (owner : Expr) (name : String)
  /-- An element of the array that a variable names. -/
  | element (name : String) (indices : List Expr)
  | binary (op : Operator) (left right : Expr)
  | unary (op : Operator) (operand : Expr)
  | typeOf (operand : Expr) (typeName : String)
  | call (name : String) (arguments : List Expr)
  | method (owner : Expr) (name : String) (arguments : List Expr)
  /-- A new instance, with fields to set after construction. -/
  | new (className : String) (arguments : List Expr) (fields : List (String × Expr))
  | me
  | myBase
  | withTarget
  /-- `If(condition, then, else)`, or `If(value, default)` when the third part is omitted. -/
  | conditional (condition whenTrue whenFalse : Expr)
  | addressOf (name : String)
  | lambda (parameters : List (ParameterOf Expr)) (body : Expr)
  | await (operand : Expr)
  | cast (kind : String) (operand : Expr) (targetType : String)
deriving Inhabited

/-- A parameter of a procedure. -/
abbrev Parameter := ParameterOf Expr

/-- Whether the place was left empty. -/
def Expr.isOmitted : Expr → Bool
  | .omitted => true
  | _ => false

end FormBasic
