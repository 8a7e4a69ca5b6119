import FormBasic.Decimal.Reader
import FormBasic.Source
import FormBasic.Syntax.Decl
import FormBasic.Text.Quoted
import FormBasic.Tree.Json
import FormBasic.Tree.Yaml

/-!
# Decoding programs

A program tree is a tree of mappings, each with a `type` field that names the node and further
fields for its parts. `Program.decode?` turns such a tree into a program, and `Program.read` does so
for a text in one of the tree formats.

Parts are decoded from left to right in the order in which the node lists them, so that of two
faults the first one is reported. The fuel of the decoder is the height of the tree: every part of
a node is lower than the node.
-/

namespace FormBasic

/-- Why a tree is not a program. -/
inductive DecodeError where
  | notNode (got : String)
  | missingType
  | notList (field got : String)
  | notTexts (field got : String)
  | invalidNumber (literal : String)
  | notNumber (got : String)
  | notInteger (value : Float)
  | unknownOperator (spelling : String)
  | unknownExpression (type : String)
  | unknownStatement (type : String)
  | unknownDeclaration (type : String)
  | unknownCase (kind : String)
  | badRoot (got : String)
  /-- The fuel of the decoder ran out. -/
  | tooDeep

/-- The text of a decoding error. -/
def DecodeError.message : DecodeError → String
  | .notNode got => "expected a node mapping, got " ++ got
  | .missingType => "node is missing its \"type\" field"
  | .notList field got => "field " ++ Text.quote field ++ " must be a list, got " ++ got
  | .notTexts field got => "field " ++ Text.quote field ++ " must hold strings, got " ++ got
  | .invalidNumber literal => "invalid number " ++ Text.quote literal
  | .notNumber got => "expected a number, got " ++ got
  | .notInteger value => "expected an integer, got " ++ Decimal.general value
  | .unknownOperator s => "unknown operator " ++ Text.quote s
  | .unknownExpression t => "unknown expression type " ++ Text.quote t
  | .unknownStatement t => "unknown statement type " ++ Text.quote t
  | .unknownDeclaration t => "unknown declaration type " ++ Text.quote t
  | .unknownCase k => "unknown case condition kind " ++ Text.quote k
  | .badRoot got => "program root must be a mapping or a list, got " ++ got
  | .tooDeep => "program tree is nested too deep"

/-- A decoding step. -/
abbrev Decode := Except DecodeError

namespace Decode

/-! ### Fields of a node -/

/-- A node is a mapping. -/
def node (t : Tree) : Decode Tree :=
  match t with
  | .mapping _ => .ok t
  | t => .error (.notNode t.typeName)

/-- The field under a key, null if there is none. -/
def fieldOf (m : Tree) (key : String) : Tree := (m.field? key).getD .null

/-- The type of a node. -/
def typeOf (m : Tree) : Decode String :=
  match fieldOf m "type" with
  | .text t => if t == "" then .error .missingType else .ok t
  | _ => .error .missingType

/-- A text field. A field of another kind gives its shown form. -/
def text (m : Tree) (key : String) : String :=
  match fieldOf m key with
  | .null => ""
  | t => t.shown

/-- A flag, which holds only if the field is true itself. -/
def flag (m : Tree) (key : String) : Bool :=
  match fieldOf m key with
  | .bool b => b
  | _ => false

/-- A list field; `none` when it is missing or null. -/
def items? (m : Tree) (key : String) : Decode (Option (List Tree)) :=
  match fieldOf m key with
  | .null => .ok none
  | .list ts => .ok (some ts)
  | t => .error (.notList key t.typeName)

/-- A list field, empty when it is missing or null. -/
def items (m : Tree) (key : String) : Decode (List Tree) := return (← items? m key).getD []

/-- A field that holds a list of texts. -/
def texts (m : Tree) (key : String) : Decode (List String) := do
  (← items m key).mapM fun t => match t with
    | .text s => .ok s
    | t => .error (.notTexts key t.typeName)

/-- A whole number as a double. -/
def floatOfInt (n : Int) : Float :=
  let x := Decimal.doubleOfBits ((Decimal.BinaryFormat.double.nearest n.natAbs 1).getD 0)
  if n < 0 then -x else x

/-- A number. -/
def number : Tree → Decode Float
  | .numeral s =>
    match Decimal.readDouble? s with
    | some x => .ok x
    | none => .error (.invalidNumber s)
  | .integer n => .ok (floatOfInt n)
  | .real x => .ok x
  | t => .error (.notNumber t.typeName)

/-- Whether a double has no fraction. Infinities have none, and the undefined number is none. -/
def isWhole (x : Float) : Bool :=
  match Decimal.decodeDouble x with
  | .nan => false
  | .infinity _ => true
  | .finite _ m e => 0 ≤ e || m % twoTo (-e).toNat == 0

/-- A whole number in a 64-bit word. A numeral that spells one out is taken as it stands; any
other number goes through a double, and one that does not fit gives the least word. -/
def integer (t : Tree) : Decode Int64 := do
  let direct : Option Int := match t with
    | .numeral s => Decimal.readInt? (minSigned 64) (maxSigned 64) s.toList
    | _ => none
  match direct with
  | some n => return Int64.ofInt n
  | none =>
    let x ← number t
    if isWhole x then return Int64.ofInt (Calendar.wordOfFloat x) else throw (.notInteger x)

/-- An operator by its spelling. -/
def operator (m : Tree) (key : String) : Decode Operator :=
  let s := text m key
  match Operator.lookup? s with
  | some op => .ok op
  | none => .error (.unknownOperator s)

/-- An optional part of a node; null counts as missing. -/
def optional (decode : Tree → Decode α) (m : Tree) (key : String) : Decode (Option α) :=
  match fieldOf m key with
  | .null => .ok none
  | t => some <$> decode t

/-- A part of a node that may be left empty. -/
def place (decode : Tree → Decode Expr) (t : Tree) : Decode Expr :=
  match t with
  | .null => .ok .omitted
  | t => decode t

/-- A list of expressions, of which any may be left empty. -/
def places (decode : Tree → Decode Expr) (m : Tree) (key : String) : Decode (List Expr) := do
  (← items m key).mapM (place decode)

/-- A block of statements: missing, or present even if null. -/
def block (decode : Tree → Decode Stmt) (m : Tree) (key : String) :
    Decode (Option (List Stmt)) := do
  match m.field? key with
  | none => return none
  | some _ => return some (← (← items m key).mapM decode)

/-- A block of statements where a missing one is empty. -/
def body (decode : Tree → Decode Stmt) (m : Tree) (key : String) : Decode (List Stmt) :=
  return (← block decode m key).getD []

/-! ### Nodes -/

/-- The node types of expressions. -/
def expressionTypes : List String :=
  ["IntegerLiteral", "LongLiteral", "DoubleLiteral", "StringLiteral", "BooleanLiteral",
   "DateLiteral", "NothingLiteral", "ArrayLiteral", "Variable", "MemberAccess", "ArrayAccess",
   "BinaryExpression", "UnaryExpression", "TypeOfExpression", "CallExpression", "MethodCall",
   "NewExpression", "MeExpression", "MyBaseExpression", "WithTarget", "IfExpression", "AddressOf",
   "LambdaExpression", "AwaitExpression", "CastExpression"]

/-- The node types of declarations. -/
def declarationTypes : List String :=
  ["VariableDecl", "ConstDecl", "Procedure", "Sub", "Function", "ClassDecl", "EnumDecl",
   "ModuleDecl", "PropertyDecl"]

/-- A parameter. -/
def parameter (expr : Tree → Decode Expr) (t : Tree) : Decode Parameter := do
  let m ← node t
  let default ← optional expr m "default"
  return { name := text m "name", typeName := text m "typeName", byRef := flag m "byRef",
           optional := flag m "optional", default, paramArray := flag m "paramArray" }

/-- A literal in a word: an integer if it fits in 32 bits. -/
def integerLiteral (n : Int64) : Expr :=
  if minSigned 32 ≤ n.toInt ∧ n.toInt ≤ maxSigned 32 then .integer (Int32.ofInt n.toInt)
  else .long n

/-- An expression, given how to decode its parts. -/
def exprNode (expr : Tree → Decode Expr) (stmt : Tree → Decode Stmt) (m : Tree) : Decode Expr := do
  match ← typeOf m with
  | "IntegerLiteral" => return integerLiteral (← integer (fieldOf m "value"))
  | "LongLiteral" => return .long (← integer (fieldOf m "value"))
  | "DoubleLiteral" => return .double (← number (fieldOf m "value"))
  | "StringLiteral" => return .text (text m "value")
  | "BooleanLiteral" => return .boolean (flag m "value")
  | "DateLiteral" => return .date (text m "value")
  | "NothingLiteral" => return .nothing
  | "ArrayLiteral" => return .array (← places expr m "elements")
  | "Variable" => return .variable (text m "name")
  | "MemberAccess" =>
    let owner ← place expr (fieldOf m "object")
    return .member owner (text m "member")
  | "ArrayAccess" => return .element (text m "name") (← places expr m "indices")
  | "BinaryExpression" =>
    let op ← operator m "operator"
    let left ← expr (fieldOf m "left")
    let right ← expr (fieldOf m "right")
    return .binary op left right
  | "UnaryExpression" =>
    let op ← operator m "operator"
    let op := if op = .subtract then .negate else op
    return .unary op (← expr (fieldOf m "operand"))
  | "TypeOfExpression" => return .typeOf (← expr (fieldOf m "operand")) (text m "typeName")
  | "CallExpression" => return .call (text m "name") (← places expr m "arguments")
  | "MethodCall" =>
    let owner ← place expr (fieldOf m "object")
    return .method owner (text m "method") (← places expr m "arguments")
  | "NewExpression" =>
    let arguments ← places expr m "arguments"
    let fields ← (← items m "initializers").mapM fun t => do
      let f ← node t
      return (text f "name", ← expr (fieldOf f "value"))
    return .new (text m "className") arguments fields
  | "MeExpression" => return .me
  | "MyBaseExpression" => return .myBase
  | "WithTarget" => return .withTarget
  | "IfExpression" =>
    let condition ← expr (fieldOf m "condition")
    let whenTrue ← expr (fieldOf m "then")
    let whenFalse ← place expr (fieldOf m "else")
    return .conditional condition whenTrue whenFalse
  | "AddressOf" => return .addressOf (text m "name")
  | "LambdaExpression" =>
    let parameters ← (← items m "parameters").mapM (parameter expr)
    let result ← place expr (fieldOf m "body")
    let _ ← (← items m "statements").mapM stmt
    return .lambda parameters result
  | "AwaitExpression" => return .await (← expr (fieldOf m "operand"))
  | "CastExpression" =>
    let operand ← expr (fieldOf m "operand")
    return .cast (text m "kind") operand (text m "targetType")
  | t => throw (.unknownExpression t)

/-- The condition of a `Do` loop. -/
def loopCondition (expr : Tree → Decode Expr) (t : Tree) : Decode LoopCondition := do
  let m ← node t
  return ⟨flag m "until", ← expr (fieldOf m "condition")⟩

/-- One entry of a `Case` line. -/
def caseCondition (expr : Tree → Decode Expr) (t : Tree) : Decode CaseCondition := do
  let m ← node t
  let value ← expr (fieldOf m "value")
  match text m "kind" with
  | "range" => return .range value (← expr (fieldOf m "to"))
  | "is" => return .is (← operator m "operator") value
  | "value" => return .value value
  | "" => return .value value
  | kind => throw (.unknownCase kind)

/-- A `Case` line with its block. -/
def caseClause (expr : Tree → Decode Expr) (stmt : Tree → Decode Stmt) (t : Tree) :
    Decode CaseClause := do
  let m ← node t
  let inside ← body stmt m "body"
  return ⟨← (← items m "conditions").mapM (caseCondition expr), inside⟩

/-- A `Catch` line with its block. -/
def catchClause (expr : Tree → Decode Expr) (stmt : Tree → Decode Stmt) (t : Tree) :
    Decode CatchClause := do
  let m ← node t
  let filter ← optional expr m "when"
  return ⟨text m "variable", text m "typeName", filter, ← body stmt m "body"⟩

/-- An `ElseIf` line with its block. -/
def elseIf (expr : Tree → Decode Expr) (stmt : Tree → Decode Stmt) (t : Tree) : Decode ElseIf := do
  let m ← node t
  let condition ← expr (fieldOf m "condition")
  return ⟨condition, ← body stmt m "body"⟩

/-- A statement, given how to decode its parts. -/
def stmtNode (expr : Tree → Decode Expr) (stmt : Tree → Decode Stmt) (m : Tree) : Decode Stmt := do
  let t ← typeOf m
  match t with
  | "DimStatement" =>
    let bounds ← places expr m "bounds"
    return .dim (text m "name") (text m "typeName") bounds (← optional expr m "initializer")
  | "ConstStatement" => return .const (text m "name") (← expr (fieldOf m "value"))
  | "Assignment" => return .assign (text m "target") (← expr (fieldOf m "value"))
  | "SetAssignment" => return .setAssign (text m "target") (← expr (fieldOf m "value"))
  | "MemberAssignment" =>
    let owner ← place expr (fieldOf m "object")
    return .memberAssign owner (text m "member") (← expr (fieldOf m "value"))
  | "ArrayAssignment" =>
    let indices ← places expr m "indices"
    return .elementAssign (text m "name") indices (← expr (fieldOf m "value"))
  | "ReDimStatement" =>
    return .reDim (text m "name") (flag m "preserve") (← places expr m "bounds")
  | "CompoundAssignment" =>
    let target ← expr (fieldOf m "target")
    let op ← operator m "operator"
    return .compound target op (← expr (fieldOf m "value"))
  | "IfStatement" =>
    let condition ← expr (fieldOf m "condition")
    let whenTrue ← body stmt m "then"
    let whenFalse ← block stmt m "else"
    let elseIfs ← (← items m "elseIfs").mapM (elseIf expr stmt)
    return .ifThen condition whenTrue elseIfs whenFalse
  | "ForStatement" =>
    let start ← expr (fieldOf m "start")
    let stop ← expr (fieldOf m "end")
    let step ← optional expr m "step"
    return .forTo (text m "variable") start stop step (← body stmt m "body")
  | "ForEachStatement" =>
    let collection ← expr (fieldOf m "collection")
    return .forEach (text m "variable") collection (← body stmt m "body")
  | "WhileStatement" =>
    let condition ← expr (fieldOf m "condition")
    return .whileLoop condition (← body stmt m "body")
  | "DoLoopStatement" =>
    let pre ← optional (loopCondition expr) m "pre"
    let post ← optional (loopCondition expr) m "post"
    return .doLoop pre post (← body stmt m "body")
  | "SelectStatement" =>
    let test ← expr (fieldOf m "test")
    let otherwise ← block stmt m "else"
    let cases ← (← items m "cases").mapM (caseClause expr stmt)
    return .select test cases otherwise
  | "WithStatement" =>
    let object ← expr (fieldOf m "object")
    return .withBlock object (← body stmt m "body")
  | "ExitStatement" => return .exitBlock (.ofName (text m "kind"))
  | "ContinueStatement" => return .continueLoop (.ofName (text m "kind"))
  | "ReturnStatement" => return .returnValue (← optional expr m "value")
  | "CallStatement" => return .call (← expr (fieldOf m "call"))
  | "ExpressionStatement" => return .expression (← optional expr m "expression")
  | "TryStatement" =>
    let inside ← body stmt m "body"
    let cleanup ← block stmt m "finally"
    let catches ← (← items m "catches").mapM (catchClause expr stmt)
    return .tryCatch inside catches cleanup
  | "ThrowStatement" => return .throwValue (← optional expr m "value")
  | "AddHandlerStatement" =>
    let event ← expr (fieldOf m "event")
    return .addHandler (flag m "remove") event (← expr (fieldOf m "handler"))
  | "RemoveHandlerStatement" =>
    let event ← expr (fieldOf m "event")
    return .addHandler true event (← expr (fieldOf m "handler"))
  | "RaiseEventStatement" => return .raiseEvent (text m "name") (← places expr m "arguments")
  | t =>
    if expressionTypes.contains t then return .expression (some (← exprNode expr stmt m))
    else throw (.unknownStatement t)

mutual
/-- An expression of a tree no higher than the fuel. -/
def expr : (fuel : Nat) → Tree → Decode Expr
  | 0, _ => .error .tooDeep
  | fuel + 1, t => do exprNode (expr fuel) (stmt fuel) (← node t)

/-- A statement of a tree no higher than the fuel. -/
def stmt : (fuel : Nat) → Tree → Decode Stmt
  | 0, _ => .error .tooDeep
  | fuel + 1, t => do stmtNode (expr fuel) (stmt fuel) (← node t)
end

/-! ### Declarations -/

/-- A variable or a field. -/
def variableDecl (expr : Tree → Decode Expr) (m : Tree) : Decode VariableDecl := do
  let bounds ← places expr m "bounds"
  return ⟨text m "name", text m "typeName", bounds, ← optional expr m "initializer"⟩

/-- The kind of a procedure: by its node type, or else by its `kind` field, a `Sub` if empty. -/
def procedureKind (type kind : String) : String :=
  if type == "Sub" || type == "Function" then type else if kind == "" then "Sub" else kind

/-- A procedure. -/
def procedure (expr : Tree → Decode Expr) (stmt : Tree → Decode Stmt) (m : Tree) :
    Decode Procedure := do
  let kind := procedureKind (← typeOf m) (text m "kind")
  let parameters ← (← items m "parameters").mapM (parameter expr)
  let inside ← body stmt m "body"
  let handles ← texts m "handles"
  return { kind, name := text m "name", parameters, returnType := text m "returnType",
           body := inside, handles, shared := flag m "shared" }

/-- A property. -/
def property (expr : Tree → Decode Expr) (stmt : Tree → Decode Stmt) (m : Tree) :
    Decode PropertyDecl := do
  let parameters ← (← items m "parameters").mapM (parameter expr)
  let getter ← block stmt m "getter"
  let setter ← block stmt m "setter"
  let setterParam ← optional (parameter expr) m "setterParam"
  return { name := text m "name", typeName := text m "typeName", parameters, getter, setterParam,
           setter, readOnly := flag m "readOnly" }

/-- A class. -/
def classDecl (expr : Tree → Decode Expr) (stmt : Tree → Decode Stmt) (m : Tree) :
    Decode ClassDecl := do
  let events ← texts m "events"
  let fields ← (← items m "fields").mapM fun t => do variableDecl expr (← node t)
  let methods ← (← items m "methods").mapM fun t => do procedure expr stmt (← node t)
  let properties ← (← items m "properties").mapM fun t => do property expr stmt (← node t)
  return { name := text m "name", partialDecl := flag m "partial", inherits := text m "inherits",
           fields, methods, properties, events }

/-- An enumeration member. -/
def enumMember (expr : Tree → Decode Expr) (t : Tree) : Decode EnumMember := do
  let m ← node t
  return ⟨text m "name", ← optional expr m "value"⟩

/-- A declaration, given how to decode the declarations inside it. -/
def declNode (expr : Tree → Decode Expr) (stmt : Tree → Decode Stmt) (decl : Tree → Decode Decl)
    (m : Tree) : Decode Decl := do
  match ← typeOf m with
  | "VariableDecl" => return .variable (← variableDecl expr m)
  | "ConstDecl" => return .const (text m "name") (← expr (fieldOf m "value"))
  | "Procedure" => return .procedure (← procedure expr stmt m)
  | "Sub" => return .procedure (← procedure expr stmt m)
  | "Function" => return .procedure (← procedure expr stmt m)
  | "PropertyDecl" => return .property (← property expr stmt m)
  | "ClassDecl" => return .classDecl (← classDecl expr stmt m)
  | "EnumDecl" => return .enum (text m "name") (← (← items m "members").mapM (enumMember expr))
  | "ModuleDecl" => return .moduleDecl (text m "name") (← (← items m "declarations").mapM decl)
  | t => throw (.unknownDeclaration t)

/-- A declaration of a tree no higher than the fuel. -/
def decl : (fuel : Nat) → Tree → Decode Decl
  | 0, _ => .error .tooDeep
  | fuel + 1, t => do declNode (expr fuel) (stmt fuel) (decl fuel) (← node t)

/-- A declaration or a statement, told apart by the type of the node. An expression is a statement
too. -/
def declOrStmt (t : Tree) : Decode (Decl ⊕ Stmt) := do
  let m ← node t
  let type ← typeOf m
  if declarationTypes.contains type then return .inl (← decl t.height t)
  else if expressionTypes.contains type then
    return .inr (.expression (some (← expr t.height t)))
  else return .inr (← stmt t.height t)

/-- Declarations and statements in their order. -/
def ofNodes (nodes : List (Decl ⊕ Stmt)) : Program where
  declarations := nodes.filterMap fun n => match n with
    | .inl d => some d
    | .inr _ => none
  statements := nodes.filterMap fun n => match n with
    | .inl _ => none
    | .inr s => some s

end Decode

open Decode in
/-- A program from its tree: a mapping with lists of declarations and statements, a bare list of
both, or a single node. -/
def Program.decode? (root : Tree) : Decode Program := do
  match root with
  | .null => return {}
  | .list ts => return ofNodes (← ts.mapM declOrStmt)
  | .mapping _ =>
    match fieldOf root "type" with
    | .text t =>
      if t == "" || t == "Program" then decodeLists else return ofNodes [← declOrStmt root]
    | _ => decodeLists
  | t => throw (.badRoot t.typeName)
where
  decodeLists : Decode Program := do
    let declarations ← (← items root "declarations").mapM fun t => decl t.height t
    let statements ← (← items root "statements").mapM fun t => stmt t.height t
    return { declarations, statements }

/-! ### Texts -/

/-- Why a text is not a program. -/
inductive ReadError where
  | unsupportedFormat (format : String)
  /-- A fault in the JSON text at a place, with the excerpt that shows it. -/
  | malformedJson (place : Source.Place) (excerpt : String)
  | unfinishedJson
  | emptyJson
  | malformedYaml
  | decode (error : DecodeError)

/-- The words that stand for the JSON reader's account of a fault. -/
def ReadError.jsonFault : String := "<json>"

/-- The text of a reading error. -/
def ReadError.message : ReadError → String
  | .unsupportedFormat f => "unsupported program format " ++ Text.quote f
  | .malformedJson place excerpt =>
    "decoding json program: " ++ jsonFault ++ " at line " ++ Decimal.intText place.line ++
      ", column " ++ Decimal.intText place.column ++ "\n" ++ excerpt
  | .unfinishedJson => "decoding json program: unexpected EOF"
  | .emptyJson => "decoding json program: EOF"
  | .malformedYaml => "decoding yaml program: malformed document"
  | .decode e => e.message

/-- The tree of a text in a format: `json`, `yaml` or `yml`. -/
def Tree.read (format text : String) : Except ReadError Tree :=
  if format == "json" then
    match Tree.Json.read text with
    | .ok t => .ok t
    | .error (.malformed offset) =>
      let place := Source.placeAt text offset
      .error (.malformedJson place (Source.excerpt text place.line place.column))
    | .error .unexpectedEnd => .error .unfinishedJson
    | .error .noContent => .error .emptyJson
  else if format == "yaml" || format == "yml" then
    match Tree.Yaml.read? text with
    | some t => .ok t
    | none => .error .malformedYaml
  else .error (.unsupportedFormat format)

/-- The program of a text in a format. -/
def Program.read (format text : String) : Except ReadError Program := do
  (Program.decode? (← Tree.read format text)).mapError .decode

end FormBasic
