import FormBasic.Syntax.Expr

/-!
# Statements

Statement trees. A block that the source does not have at all (an `If` without `Else`) is told
apart from an empty one, because the printed form shows the difference.
-/

namespace FormBasic

/-- The construct that an `Exit` or `Continue` names. Spellings without meaning are kept. -/
inductive BlockKind where
  | forLoop
  | doLoop
  | whileLoop
  | select
  | sub
  | function
  | property
  | tryBlock
  | other (name : String)
deriving Repr, DecidableEq, Inhabited

/-- The spelling of a construct. -/
def BlockKind.name : BlockKind → String
  | .forLoop => "For"
  | .doLoop => "Do"
  | .whileLoop => "While"
  | .select => "Select"
  | .sub => "Sub"
  | .function => "Function"
  | .property => "Property"
  | .tryBlock => "Try"
  | .other s => s

/-- The construct of a spelling; letter case counts. -/
def BlockKind.ofName (s : String) : BlockKind :=
  match s with
  | "For" => .forLoop
  | "Do" => .doLoop
  | "While" => .whileLoop
  | "Select" => .select
  | "Sub" => .sub
  | "Function" => .function
  | "Property" => .property
  | "Try" => .tryBlock
  | s => .other s

/-- One entry of a `Case` line. -/
inductive CaseCondition where
  | value (value : Expr)
  | range (low high : Expr)
  | is (op : Operator) (value : Expr)
deriving Inhabited

/-- The condition before or after a `Do` loop. -/
structure LoopCondition where
  /-- Go on until the condition holds, instead of while it holds. -/
  isUntil : Bool
  condition : Expr

/-- A `Case` line with its block, over a type of statements. -/
structure CaseClauseOf (σ : Type) where
  conditions : List CaseCondition
  body : List σ

/-- A `Catch` line with its block, over a type of statements. -/
structure CatchClauseOf (σ : Type) where
  name : String
  typeName : String
  filter : Option Expr
  body : List σ

/-- An `ElseIf` line with its block, over a type of statements. -/
structure ElseIfOf (σ : Type) where
  condition : Expr
  body : List σ

/-- A statement of the language. -/
inductive Stmt where
  | dim (name typeName : String) (bounds : List Expr) (initializer : Option Expr)
  | const (name : String) (value : Expr)
  | assign (target : String) (value : Expr)
  /-- `Set x = e`, which does what `x = e` does. -/
  | setAssign (target : String) (value : Expr)
  | memberAssign (owner : Expr) (member : String) (value : Expr)
  | elementAssign (name : String) (indices : List Expr) (value : Expr)
  | reDim (name : String) (preserve : Bool) (bounds : List Expr)
  | compound (target : Expr) (op : Operator) (value : Expr)
  | ifThen (condition : Expr) (whenTrue : List Stmt) (elseIfs : List (ElseIfOf Stmt))
      (whenFalse : Option (List Stmt))
  | forTo (name : String) (start stop : Expr) (step : Option Expr) (body : List Stmt)
  | forEach (name : String) (collection : Expr) (body : List Stmt)
  | whileLoop (condition : Expr) (body : List Stmt)
  | doLoop (pre post : Option LoopCondition) (body : List Stmt)
  | select (test : Expr) (cases : List (CaseClauseOf Stmt)) (otherwise : Option (List Stmt))
  | withBlock (object : Expr) (body : List Stmt)
  | exitBlock (kind : BlockKind)
  | continueLoop (kind : BlockKind)
  | returnValue (value : Option Expr)
  | call (target : Expr)
  | expression (value : Option Expr)
  | tryCatch (body : List Stmt) (catches : List (CatchClauseOf Stmt))
      (cleanup : Option (List Stmt))
  | throwValue (value : Option Expr)
  | addHandler (remove : Bool) (event handler : Expr)
  | raiseEvent (name : String) (arguments : List Expr)
deriving Inhabited

/-- An `ElseIf` line with its block. -/
abbrev ElseIf := ElseIfOf Stmt

/-- A `Case` line with its block. -/
abbrev CaseClause := CaseClauseOf Stmt

/-- A `Catch` line with its block. -/
abbrev CatchClause := CatchClauseOf Stmt

end FormBasic
