import FormBasic.Decimal.Notation
import FormBasic.Syntax.Decl

/-!
# The printed form of programs

Source text of expressions, statements and declarations. Blocks are indented by one level wherever
they stand, whatever the depth.
-/

namespace FormBasic

/-- Put a comma and a blank between the pieces. -/
def commaJoin (pieces : List String) : String := String.intercalate ", " pieces

/-- A text literal: quotes inside are doubled. -/
def textLiteral (s : String) : String :=
  String.ofList ('"' :: (s.toList.flatMap fun c => if c == '"' then ['"', '"'] else [c]) ++ ['"'])

mutual
/-- The source text of an expression. -/
def Expr.render : Expr → String
  | .omitted => ""
  | .integer n => Decimal.intText n.toInt
  | .long n => Decimal.intText n.toInt ++ "L"
  | .double x => Decimal.general x
  | .text s => textLiteral s
  | .boolean b => if b then "True" else "False"
  | .date s => "#" ++ s ++ "#"
  | .nothing => "Nothing"
  | .array es => "\x7b" ++ commaJoin (Expr.renderAll es) ++ "\x7d"
  | .variable name => name
  | .member owner name => owner.render ++ "." ++ name
  | .element name indices => name ++ "(" ++ commaJoin (Expr.renderAll indices) ++ ")"
  | .binary op l r => "(" ++ l.render ++ " " ++ op.symbol ++ " " ++ r.render ++ ")"
  | .unary .negate e => "(-" ++ e.render ++ ")"
  | .unary op e => "(" ++ op.symbol ++ " " ++ e.render ++ ")"
  | .typeOf e t => "TypeOf " ++ e.render ++ " Is " ++ t
  | .call name args => name ++ "(" ++ commaJoin (Expr.renderAll args) ++ ")"
  | .method owner name args =>
    owner.render ++ "." ++ name ++ "(" ++ commaJoin (Expr.renderAll args) ++ ")"
  | .new cls args fields =>
    "New " ++ cls ++ "(" ++ commaJoin (Expr.renderAll args) ++ ")" ++
      (if fields.isEmpty then ""
       else " With \x7b" ++ commaJoin (Expr.renderFields fields) ++ "\x7d")
  | .me => "Me"
  | .myBase => "MyBase"
  | .withTarget => ""
  | .conditional c t e =>
    "If(" ++ c.render ++ ", " ++ t.render ++
      (if e.isOmitted then "" else ", " ++ e.render) ++ ")"
  | .addressOf name => "AddressOf " ++ name
  | .lambda params body =>
    let ps := commaJoin (Expr.renderParameters params)
    if body.isOmitted then "Sub(" ++ ps ++ ") ..." else "Function(" ++ ps ++ ") " ++ body.render
  | .await e => "Await " ++ e.render
  | .cast kind e t => kind ++ "(" ++ e.render ++ ", " ++ t ++ ")"

/-- Each expression of a list. -/
def Expr.renderAll : List Expr → List String
  | [] => []
  | e :: es => e.render :: Expr.renderAll es

/-- Each field of a `New … With` initializer. -/
def Expr.renderFields : List (String × Expr) → List String
  | [] => []
  | (name, e) :: fs => ("." ++ name ++ " = " ++ e.render) :: Expr.renderFields fs

/-- The default of an optional parameter. -/
def Expr.renderDefault : Option Expr → String
  | none => ""
  | some e => " = " ++ e.render

/-- One parameter. -/
def Expr.renderParameter : ParameterOf Expr → String
  | ⟨name, typeName, byRef, optional, default, paramArray⟩ =>
    (if optional then "Optional " else "") ++ (if byRef then "ByRef " else "") ++
      (if paramArray then "ParamArray " else "") ++ name ++
      (if typeName == "" then "" else " As " ++ typeName) ++ Expr.renderDefault default

/-- Each parameter of a list. -/
def Expr.renderParameters : List (ParameterOf Expr) → List String
  | [] => []
  | p :: ps => Expr.renderParameter p :: Expr.renderParameters ps
end

/-- The parameters between the parentheses of a head line. -/
def renderParameters (ps : List Parameter) : String := commaJoin (Expr.renderParameters ps)

/-- One entry of a `Case` line. -/
def CaseCondition.render : CaseCondition → String
  | .value e => e.render
  | .range low high => low.render ++ " To " ++ high.render
  | .is op e => "Is " ++ op.symbol ++ " " ++ e.render

/-- The condition of a `Do` loop. -/
def LoopCondition.render (c : LoopCondition) : String :=
  (if c.isUntil then "Until " else "While ") ++ c.condition.render

/-- `As T`, when there is a type. -/
def asClause (typeName : String) : String := if typeName == "" then "" else " As " ++ typeName

/-- A `Dim` line. -/
def renderDim (name typeName : String) (bounds : List Expr) (initializer : Option Expr) : String :=
  "Dim " ++ name ++
    (if bounds.isEmpty then "" else "(" ++ commaJoin (Expr.renderAll bounds) ++ ")") ++
    asClause typeName ++ Expr.renderDefault initializer

mutual
/-- The source text of a statement. -/
def Stmt.render : Stmt → String
  | .dim name typeName bounds initializer => renderDim name typeName bounds initializer
  | .const name e => "Const " ++ name ++ " = " ++ e.render
  | .assign target e => target ++ " = " ++ e.render
  | .setAssign target e => "Set " ++ target ++ " = " ++ e.render
  | .memberAssign owner name e => owner.render ++ "." ++ name ++ " = " ++ e.render
  | .elementAssign name indices e =>
    name ++ "(" ++ commaJoin (Expr.renderAll indices) ++ ") = " ++ e.render
  | .reDim name preserve bounds =>
    (if preserve then "ReDim Preserve " else "ReDim ") ++ name ++ "(" ++
      commaJoin (Expr.renderAll bounds) ++ ")"
  | .compound target op e => target.render ++ " " ++ op.symbol ++ "= " ++ e.render
  | .ifThen c body elseIfs otherwise =>
    "If " ++ c.render ++ " Then\n" ++ Stmt.renderBlock body ++ Stmt.renderElseIfs elseIfs ++
      Stmt.renderOptional "Else\n" "" otherwise ++ "End If"
  | .forTo name start stop step body =>
    "For " ++ name ++ " = " ++ start.render ++ " To " ++ stop.render ++
      (match step with
        | none => ""
        | some e => " Step " ++ e.render) ++ "\n" ++ Stmt.renderBlock body ++ "Next"
  | .forEach name e body =>
    "For Each " ++ name ++ " In " ++ e.render ++ "\n" ++ Stmt.renderBlock body ++ "Next"
  | .whileLoop c body => "While " ++ c.render ++ "\n" ++ Stmt.renderBlock body ++ "End While"
  | .doLoop pre post body =>
    "Do" ++ (match pre with
        | none => ""
        | some c => " " ++ c.render) ++ "\n" ++ Stmt.renderBlock body ++ "Loop" ++
      (match post with
        | none => ""
        | some c => " " ++ c.render)
  | .select test cases otherwise =>
    "Select Case " ++ test.render ++ "\n" ++ Stmt.renderCases cases ++
      Stmt.renderOptional "Case Else\n" "" otherwise ++ "End Select"
  | .withBlock e body => "With " ++ e.render ++ "\n" ++ Stmt.renderBlock body ++ "End With"
  | .exitBlock kind => "Exit " ++ kind.name
  | .continueLoop kind => "Continue " ++ kind.name
  | .returnValue none => "Return"
  | .returnValue (some e) => "Return " ++ e.render
  | .call e => "Call " ++ e.render
  | .expression none => ""
  | .expression (some e) => e.render
  | .tryCatch body catches cleanup =>
    "Try\n" ++ Stmt.renderBlock body ++ Stmt.renderCatches catches ++
      Stmt.renderOptional "Finally\n" "" cleanup ++ "End Try"
  | .throwValue none => "Throw"
  | .throwValue (some e) => "Throw " ++ e.render
  | .addHandler remove event handler =>
    (if remove then "RemoveHandler " else "AddHandler ") ++ event.render ++ ", " ++ handler.render
  | .raiseEvent name args => "RaiseEvent " ++ name ++ "(" ++ commaJoin (Expr.renderAll args) ++ ")"

/-- The lines of a block, each indented. -/
def Stmt.renderBlock : List Stmt → String
  | [] => ""
  | s :: ss => "    " ++ s.render ++ "\n" ++ Stmt.renderBlock ss

/-- A block between two lines, when there is one. -/
def Stmt.renderOptional (head tail : String) : Option (List Stmt) → String
  | none => ""
  | some body => head ++ Stmt.renderBlock body ++ tail

/-- The `ElseIf` parts of an `If`. -/
def Stmt.renderElseIfs : List (ElseIfOf Stmt) → String
  | [] => ""
  | ⟨c, body⟩ :: es =>
    "ElseIf " ++ c.render ++ " Then\n" ++ Stmt.renderBlock body ++ Stmt.renderElseIfs es

/-- The `Case` parts of a `Select`. -/
def Stmt.renderCases : List (CaseClauseOf Stmt) → String
  | [] => ""
  | ⟨conditions, body⟩ :: cs =>
    "Case " ++ commaJoin (conditions.map CaseCondition.render) ++ "\n" ++ Stmt.renderBlock body ++
      Stmt.renderCases cs

/-- The `Catch` parts of a `Try`. -/
def Stmt.renderCatches : List (CatchClauseOf Stmt) → String
  | [] => ""
  | ⟨name, typeName, filter, body⟩ :: cs =>
    "Catch" ++ (if name == "" then "" else " " ++ name) ++ asClause typeName ++
      (match filter with
        | none => ""
        | some e => " When " ++ e.render) ++ "\n" ++ Stmt.renderBlock body ++ Stmt.renderCatches cs
end

/-- A field or module variable. -/
def VariableDecl.render (d : VariableDecl) : String :=
  renderDim d.name d.typeName d.bounds d.initializer

/-- A procedure with its body. -/
def Procedure.render (p : Procedure) : String :=
  p.kind ++ " " ++ p.name ++ "(" ++ renderParameters p.parameters ++ ")" ++
    asClause p.returnType ++
    (if p.handles.isEmpty then "" else " Handles " ++ commaJoin p.handles) ++ "\n" ++
    Stmt.renderBlock p.body ++ "End " ++ p.kind

/-- A property with its accessors. -/
def PropertyDecl.render (p : PropertyDecl) : String :=
  "Property " ++ p.name ++ asClause p.typeName ++ "\n" ++
    Stmt.renderOptional "Get\n" "End Get\n" p.getter ++
    Stmt.renderOptional "Set\n" "End Set\n" p.setter ++ "End Property"

/-- A class with its members. -/
def ClassDecl.render (c : ClassDecl) : String :=
  (if c.partialDecl then "Partial " else "") ++ "Class " ++ c.name ++ "\n" ++
    (if c.inherits == "" then "" else "    Inherits " ++ c.inherits ++ "\n") ++
    String.join (c.fields.map fun f => "    " ++ f.render ++ "\n") ++
    String.join (c.properties.map fun p => p.render ++ "\n") ++
    String.join (c.methods.map fun m => m.render ++ "\n") ++ "End Class"

/-- One line of an enumeration. -/
def EnumMember.render (m : EnumMember) : String :=
  "    " ++ m.name ++ Expr.renderDefault m.value ++ "\n"

mutual
/-- The source text of a declaration. -/
def Decl.render : Decl → String
  | .variable d => d.render
  | .const name e => "Const " ++ name ++ " = " ++ e.render
  | .procedure p => p.render
  | .property p => p.render
  | .classDecl c => c.render
  | .enum name members =>
    "Enum " ++ name ++ "\n" ++ String.join (members.map EnumMember.render) ++ "End Enum"
  | .moduleDecl name ds => "Module " ++ name ++ "\n" ++ Decl.renderAll ds ++ "End Module"

/-- Declarations, one after the other. -/
def Decl.renderAll : List Decl → String
  | [] => ""
  | d :: ds => d.render ++ "\n" ++ Decl.renderAll ds
end

/-- The source text of a program. -/
def Program.render (p : Program) : String :=
  Decl.renderAll p.declarations ++ String.join (p.statements.map fun s => s.render ++ "\n")

end FormBasic
