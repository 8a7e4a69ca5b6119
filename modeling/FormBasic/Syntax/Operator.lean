import FormBasic.Text.Case

/-!
# Operators

The operators of the language with their spellings. A spelling is recognised in any letter case.
-/

namespace FormBasic

/-- A binary or unary operator. -/
inductive Operator where
  | add
  | subtract
  | multiply
  | divide
  | integerDivide
  | modulo
  | power
  | concatenate
  | equal
  | notEqual
  | less
  | lessOrEqual
  | greater
  | greaterOrEqual
  | and
  | andAlso
  | or
  | orElse
  | xor
  | shiftLeft
  | shiftRight
  | is
  | isNot
  | like
  | negate
  | not
deriving Repr, DecidableEq, Inhabited

namespace Operator

/-- The canonical spelling. -/
def symbol : Operator → String
  | .add => "+"
  | .subtract => "-"
  | .multiply => "*"
  | .divide => "/"
  | .integerDivide => "\\"
  | .modulo => "Mod"
  | .power => "^"
  | .concatenate => "&"
  | .equal => "="
  | .notEqual => "<>"
  | .less => "<"
  | .lessOrEqual => "<="
  | .greater => ">"
  | .greaterOrEqual => ">="
  | .and => "And"
  | .andAlso => "AndAlso"
  | .or => "Or"
  | .orElse => "OrElse"
  | .xor => "Xor"
  | .shiftLeft => "<<"
  | .shiftRight => ">>"
  | .is => "Is"
  | .isNot => "IsNot"
  | .like => "Like"
  | .negate => "Neg"
  | .not => "Not"

/-- All operators. -/
def all : List Operator :=
  [.add, .subtract, .multiply, .divide, .integerDivide, .modulo, .power, .concatenate, .equal,
   .notEqual, .less, .lessOrEqual, .greater, .greaterOrEqual, .and, .andAlso, .or, .orElse, .xor,
   .shiftLeft, .shiftRight, .is, .isNot, .like, .negate, .not]

/-- The operator with exactly this spelling. -/
def ofSymbol? (s : String) : Option Operator := all.find? (·.symbol == s)

/-- The operator with this spelling in any letter case. -/
def lookup? (s : String) : Option Operator :=
  let key := Text.lower s
  all.find? fun op => Text.lower op.symbol == key

end Operator

end FormBasic
