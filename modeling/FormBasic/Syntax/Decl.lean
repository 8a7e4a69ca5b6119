import FormBasic.Syntax.Stmt

/-!
# Declarations and programs
-/

namespace FormBasic

/-- A variable of a module or a field of a class. -/
structure VariableDecl where
  name : String
  typeName : String
  bounds : List Expr
  initializer : Option Expr
deriving Inhabited

/-- A procedure, free-standing or a method of a class. `kind` is `Sub` or `Function`. -/
structure Procedure where
  kind : String
  name : String
  parameters : List Parameter
  returnType : String
  body : List Stmt
  /-- The dotted paths of the `Handles` clause, in order. -/
  handles : List String
  shared : Bool
deriving Inhabited

/-- Whether a procedure returns a value. -/
def Procedure.isFunction (p : Procedure) : Bool := p.kind == "Function"

/-- A property with its accessors. -/
structure PropertyDecl where
  name : String
  typeName : String
  parameters : List Parameter
  getter : Option (List Stmt)
  setterParam : Option Parameter
  setter : Option (List Stmt)
  readOnly : Bool
deriving Inhabited

/-- A class. -/
structure ClassDecl where
  name : String
  partialDecl : Bool
  inherits : String
  fields : List VariableDecl
  methods : List Procedure
  properties : List PropertyDecl
  events : List String
deriving Inhabited

/-- An enumeration member with its optional value. -/
structure EnumMember where
  name : String
  value : Option Expr
deriving Inhabited

/-- A declaration. -/
inductive Decl where
  | variable (decl : VariableDecl)
  | const (name : String) (value : Expr)
  | procedure (decl : Procedure)
  | property (decl : PropertyDecl)
  | classDecl (decl : ClassDecl)
  | enum (name : String) (members : List EnumMember)
  | moduleDecl (name : String) (declarations : List Decl)
deriving Inhabited

/-- One unit of a program. -/
structure Program where
  declarations : List Decl := []
  statements : List Stmt := []
deriving Inhabited

end FormBasic
