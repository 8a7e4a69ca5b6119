import FormBasic.Operation
import FormBasic.Scope
import FormBasic.Syntax.Expr

/-!
# Pure evaluation

Expressions that read names and fields and apply operators, without a running program: no calls, no
construction, no current object. Evaluation only reads the scopes and the heap; the one thing it
uses up is tags for the arrays it builds, which are threaded through as a counter.
-/

namespace FormBasic

/-- What pure evaluation reads. -/
structure Surroundings where
  scopes : Scopes
  heap : Heap

/-- Pure evaluation: a counter of array tags, and a result or an error. -/
abbrev PureEval := StateT Nat Fallible

/-- The field of an evaluated owner. -/
def memberOf (h : Heap) (owner : Value) (name : String) : Fallible Value :=
  match owner with
  | .object r =>
    match h.get? r name with
    | some v => .ok v
    | none => .error (.undefinedVariable name)
  | v => .error (.typeMismatch "Object" v.typeName)

/-- The element of an array, or the character of a text, at an index. -/
def indexOf (v : Value) (i : Int) : Fallible Value :=
  match v with
  | .array _ elements =>
    if i < 0 then .error (.custom ("Array index " ++ Decimal.intText i ++ " out of bounds"))
    else match elements[i.toNat]? with
      | some e => .ok e.orNothing
      | none => .error (.custom ("Array index " ++ Decimal.intText i ++ " out of bounds"))
  | .text s =>
    if i < 0 then .error (.custom ("String index " ++ Decimal.intText i ++ " out of bounds"))
    else match s.toList[i.toNat]? with
      | some c => .ok (.text (String.ofList [c]))
      | none => .error (.custom ("String index " ++ Decimal.intText i ++ " out of bounds"))
  | v => .error (.typeMismatch "Array" v.typeName)

/-- An access to an array needs exactly one index. -/
def indexCountError (name : String) (count : Nat) : Cause :=
  if count == 0 then .custom ("Array access to '" ++ name ++ "' requires an index")
  else .custom ("Array access to '" ++ name ++ "' takes one index, got " ++
    Decimal.intText count)

/-- The name of an expression that only a running program can evaluate. -/
def Expr.contextName : Expr → String
  | .call _ _ => "Call"
  | .method _ _ _ => "Method call"
  | .new _ _ _ => "New"
  | .me => "Me"
  | .myBase => "MyBase"
  | .withTarget => "With target"
  | .conditional _ _ _ => "If expression"
  | .addressOf _ => "AddressOf"
  | .lambda _ _ => "Lambda"
  | .await _ => "Await"
  | .typeOf _ _ => "TypeOf"
  | .cast _ _ _ => "Cast"
  | _ => "Expression"

/-- An expression that only a running program can evaluate. -/
def Expr.needsContext (e : Expr) : Cause :=
  .custom (e.contextName ++ " must be evaluated in interpreter context")

/-- The flattened key of a member whose owner is a plain name. -/
def flattenedKey? (owner : Expr) (name : String) : Option String :=
  match owner with
  | .variable o => some (memberKey o name)
  | _ => none

/-- The value of a literal, or `Nothing` for a place left empty; other expressions have none. -/
def Expr.literal? : Expr → Option (Fallible Value)
  | .omitted => some (.ok .nothing)
  | .integer n => some (.ok (.integer n))
  | .long n => some (.ok (.long n))
  | .double x => some (.ok (.double x))
  | .text s => some (.ok (.text s))
  | .boolean b => some (.ok (.boolean b))
  | .date s => some (Value.date <$> Value.parseDate s)
  | .nothing => some (.ok .nothing)
  | _ => none

namespace Surroundings

mutual
/-- Evaluate an expression. `AndAlso` and `OrElse` leave the right operand alone when the left one
decides. -/
def eval (env : Surroundings) : Expr → PureEval Value
  | .array es => do
    let vs ← evalAll env es
    let tag ← get
    set (tag + 1)
    return .array tag vs
  | .variable name => env.scopes.get name
  | .member owner name =>
    match (flattenedKey? owner name).bind env.scopes.lookup? with
    | some v => return v
    | none => do memberOf env.heap (← eval env owner) name
  | .element name indices => do
    let v ← env.scopes.get name
    match indices with
    | [e] => do
      let i ← (← eval env e).asInteger
      indexOf v i.toInt
    | es => throw (indexCountError name es.length)
  | .binary op l r => do
    let a ← eval env l
    match op with
    | .andAlso =>
      if ← a.asBool then return .boolean (← (← eval env r).asBool) else return .boolean false
    | .orElse =>
      if ← a.asBool then return .boolean true else return .boolean (← (← eval env r).asBool)
    | op => op.apply a (← eval env r)
  | .unary op e => do op.applyUnary (← eval env e)
  | e =>
    match e.literal? with
    | some v => v
    | none => throw e.needsContext

/-- Evaluate a list of expressions from left to right. -/
def evalAll (env : Surroundings) : List Expr → PureEval (List Value)
  | [] => return []
  | e :: es => do
    let v ← eval env e
    return v :: (← evalAll env es)
end

/-- Evaluate an expression, the tags of new arrays starting at those of the heap. -/
def evaluate (env : Surroundings) (e : Expr) : Fallible Value :=
  (fun r => r.1) <$> (env.eval e).run env.heap.tags

end Surroundings

end FormBasic
