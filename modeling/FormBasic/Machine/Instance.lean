import FormBasic.Machine.Binding
import FormBasic.Machine.Call
import FormBasic.Value.Arrays

/-!
# Instances

Building the values of declarations and the instances of classes. The fields of the most basic class
are set first; then `Sub New` runs, and then the fields that the construction names are assigned.
Some classes need no declaration: exceptions, data tables, binding sources and plain controls.

A class also has a default instance, which is bound globally under the name of the class and is
built when it is first needed.
-/

namespace FormBasic

/-- Build an array; the tags it uses up are taken from the heap. -/
def Interp.build (x : Tagged Value) : Interp Value :=
  modifyGet fun s =>
    let (v, tags) := x.run s.heap.tags
    (v, { s with heap := { s.heap with tags } })

/-- A new instance of a class that is not declared. -/
def Interp.undeclaredInstance (className : String) (args : List Value) : Interp ObjectRef := do
  let key := Text.lower className
  if Text.endsWith "exception".toList key.toList then
    let r ← newObject className
    let message := match args with
      | [] => "Exception of type '" ++ className ++ "' was thrown."
      | v :: _ => v.toText
    setField r "message" (.text message)
    return r
  else if key == "bindingsource" then
    let r ← newObject className
    setField r "datasource" .nothing
    setField r "position" (.integer (-1))
    setField r "count" (.integer 0)
    return r
  else if key == "datatable" then
    let r ← newTable className ⟨[], []⟩
    if let v :: _ := args then setField r "tablename" (.text v.toText)
    return r
  else newObject className

/-- Bind an instance globally under a name, which it takes as its own if it has none. -/
def Interp.publish (name : String) (r : ObjectRef) : Interp Unit := do
  if (← getField? r "name").isNone then setField r "name" (.text name)
  updateScopes (·.defineGlobal name (.object r))

namespace Runner

/-- Evaluate the bounds of an array. -/
def bounds (run : Runner) : List Expr → Interp (List Int)
  | [] => return []
  | e :: es => do
    let n ← (← run.eval e).asInteger
    return n.toInt :: (← bounds run es)

/-- The value of a declaration: an array if there are bounds, else the initial value converted to
the type, else what the type starts with. -/
def initialValue (run : Runner) (typeName : String) (boundExprs : List Expr)
    (initializer : Option Expr) : Interp Value := do
  if boundExprs.isEmpty then
    match initializer with
    | some e => (← run.eval e).coerceTo typeName
    | none => return defaultOf typeName
  else
    let bs ← run.bounds boundExprs
    Interp.build (newArray (defaultOf typeName) bs)

/-- Assign to a member of an instance: a property, a member that data binding governs, or a field.
The host is told when the instance has a name. -/
def assignField (run : Runner) (r : ObjectRef) (member : String) (v : Value) : Interp Unit := do
  match (← get).propertyOf? r member with
  | some (p, owner) => run.writeProperty p owner r v
  | none =>
    if ← Interp.assignBindingMember r member v then return
    Interp.setField r member v
    if let some name := (← get).heap.nameOf? r then
      Interp.emit (.propertyChange name member v)

/-- Assign the fields that a construction names. -/
def assignFields (run : Runner) (r : ObjectRef) : List (String × Expr) → Interp Unit
  | [] => return
  | (name, e) :: fields => do
    run.assignField r name (← run.eval e)
    assignFields run r fields

/-- Set the fields that a class declares. -/
def setFields (run : Runner) (r : ObjectRef) : List VariableDecl → Interp Unit
  | [] => return
  | f :: fs => do
    Interp.setField r f.name (← run.initialValue f.typeName f.bounds f.initializer)
    setFields run r fs

/-- Set the fields of a list of classes, each in the context of the instance and the class. -/
def setAllFields (run : Runner) (r : ObjectRef) : List ClassInfo → Interp Unit
  | [] => return
  | c :: cs => do
    Interp.inContext (.setting r c.name) (run.setFields r c.fields)
    setAllFields run r cs

/-- A new instance of a declared class. -/
def declaredInstance (run : Runner) (c : ClassInfo) (args : List Value) : Interp ObjectRef := do
  let r ← Interp.newObject c.name
  run.setAllFields r ((← get).classTable.chain c.name).reverse
  if let some (m, owner) := (← get).methodOf? r "New" then
    let _ ← run.invokeMethod m owner (some r) args
  return r

/-- A new instance of a class. -/
def instantiate (run : Runner) (className : String) (args : List Value)
    (fields : List (String × Expr)) : Interp ObjectRef := do
  let r ← match (← get).class? className with
    | some c => run.declaredInstance c args
    | none => Interp.undeclaredInstance className args
  run.assignFields r fields
  return r

/-- The default instance of a class, built if there is none. -/
def defaultInstance (run : Runner) (className : String) : Interp ObjectRef := do
  match (← get).scopes.getGlobal className with
  | .ok (.object r) => return r
  | _ =>
    let r ← run.instantiate className [] []
    Interp.publish className r
    return r

end Runner

end FormBasic
