import FormBasic.Machine.Builtin
import FormBasic.Machine.Instance

/-!
# Expressions of a running program

One step of evaluation: what an expression does, given a runner for its parts. A name without
arguments is data if it is bound, else a property, else a call; a name with arguments is an element
of an array, else a method of the current object, a procedure, a character of a text or a built-in
procedure, in this order.
-/

namespace FormBasic

namespace Runner

/-! ### Names -/

/-- The object of the innermost `With` block. -/
def withTarget : Interp Value := do
  match (← get).context.withStack with
  | v :: _ => return v
  | [] => Interp.failWith "Member access with no With block"

/-- The element at a list of indices, one array after the other. -/
def index (run : Runner) (v : Value) : List Expr → Interp Value
  | [] => return v
  | e :: es => do
    let i ← (← run.eval e).asInteger
    index run (← indexOf v i.toInt) es

/-- Call a method of the current object by name, or read a property of it that has parameters. -/
def callOwn? (run : Runner) (s : State) (name : String) (es : List Expr) :
    Option (Interp Value) := do
  let self ← s.context.self
  match s.methodOf? self name with
  | some (m, owner) => some (run.callMethodOf m owner self es)
  | none =>
    let (p, owner) ← s.propertyOf? self name
    if p.parameters.isEmpty then none else some (run.callGetterOf p owner self es)

/-- Call a built-in procedure. -/
def callBuiltin (run : Runner) (b : Builtin) (es : List Expr) : Interp Value := do
  b (← run.arguments es)

/-- A name with an argument list. -/
def callNamed (run : Runner) (name : String) (es : List Expr) : Interp Value := do
  let s ← get
  match s.data? name with
  | some (.array tag elements) => run.index (.array tag elements) es
  | data =>
    (run.callOwn? s name es).getD <|
      match s.procedure? name with
      | some p => run.callEntry p es
      | none =>
        match data with
        | some (.text t) => run.index (.text t) es
        | _ =>
          match builtin? (Text.lower name) with
          | some b => run.callBuiltin b es
          | none => Interp.fail (.undefinedFunction name)

/-- A name on its own. -/
def readName (run : Runner) (name : String) : Interp Value := do
  let s ← get
  if s.scopes.hasLocal name then s.scopes.get name
  else match s.ownProperty? name with
    | some (self, p, owner) => run.readProperty p owner self
    | none =>
      match s.data? name with
      | some v => return v
      | none =>
        match s.moduleProperty? name with
        | some (p, moduleName) => run.readModuleProperty p moduleName
        | none => Interp.foundOr (run.callNamed name []) (.undefinedVariable name)

/-! ### Members -/

/-- The owner of a member: the object of the `With` block if none is written, data, or the default
instance of a class that a name stands for. -/
def owner (run : Runner) (e : Expr) : Interp Value := do
  match e with
  | .omitted => withTarget
  | .variable name =>
    let s ← get
    match s.data? name with
    | some v => return v
    | none =>
      if (s.class? name).isSome then return .object (← run.defaultInstance name)
      else run.eval e
  | e => run.eval e

/-- A member of an instance. -/
def readObjectMember (run : Runner) (r : ObjectRef) (member : String) : Interp Value := do
  let s ← get
  match s.propertyOf? r member with
  | some (p, c) => run.readProperty p c r
  | none =>
    match s.heap.get? r member with
    | some v => return v
    | none =>
      match s.methodOf? r member with
      | some (m, c) => run.callMethodOf m c r []
      | none =>
        match bindingMember? s.heap r member with
        | some v => return v
        | none =>
          if Text.equalFold member "name" then return .text r.className
          else Interp.fail (.undefinedVariable member)

/-- A member of a value. -/
def readMemberOf (run : Runner) (v : Value) (member : String) : Interp Value := do
  match v with
  | .object r => run.readObjectMember r member
  | .text s =>
    if Text.lower member == "length" then return Library.ofInt s.length
    else Interp.valueMethod v member []
  | .array _ elements =>
    let key := Text.lower member
    if key == "length" || key == "count" then return Library.ofInt elements.length
    else memberOf (← get).heap v member
  | v => memberOf (← get).heap v member

/-- What `name.member` means before `name` is taken for an object: a binding under the flattened
key; or, if the name is not bound, a member of a built-in facility or a procedure of a module. -/
def qualifiedMember? (run : Runner) (s : State) (name member : String) : Option (Interp Value) :=
  match s.scopes.lookup? (memberKey name member) with
  | some v => some (return v)
  | none =>
    if (s.data? name).isSome then none
    else if isIntrinsicOwner name then some (Interp.intrinsicMember name member)
    else (s.procedureAt? (qualify name member)).map (run.callEntry · [])

/-- What a member access means before its owner is evaluated. -/
def specialMember? (run : Runner) (s : State) (e : Expr) (member : String) :
    Option (Interp Value) :=
  match e with
  | .variable name => run.qualifiedMember? s name member
  | _ => none

/-- A member access. -/
def readMember (run : Runner) (e : Expr) (member : String) : Interp Value := do
  (run.specialMember? (← get) e member).getD do run.readMemberOf (← run.owner e) member

/-! ### Methods -/

/-- A method that every instance has. -/
def commonMethod (r : ObjectRef) (method : String) (args : List Value) : Interp Value := do
  let s ← get
  match Text.lower method with
  | "close" =>
    Interp.emit (.formClose (s.hostName r))
    return .nothing
  | "show" =>
    Interp.emit (.formShowDialog (s.hostName r))
    return Builtin.okButton
  | "showdialog" =>
    Interp.emit (.formShowDialog (s.hostName r))
    return Builtin.okButton
  | "tostring" => return .text (Value.object r).toText
  | "gettype" => return .text r.className
  | key =>
    match key, args with
    | "equals", [v] => return .boolean ((Value.object r).equal v)
    | _, _ => Interp.fail (.undefinedFunction (r.className ++ "." ++ method))

/-- Call a method of an instance: a declared one, a property, a move of a binding source, or one
that every instance has. -/
def callObjectMethod (run : Runner) (r : ObjectRef) (method : String) (es : List Expr) :
    Interp Value := do
  let s ← get
  match s.methodOf? r method with
  | some (m, c) => run.callMethodOf m c r es
  | none =>
    match s.propertyOf? r method with
    | some (p, c) => run.callGetterOf p c r es
    | none =>
      let args ← run.arguments es
      match bindingMethod? (← get).heap r method with
      | some move =>
        move
        return .nothing
      | none => commonMethod r method args

/-- Call a method of a value. -/
def callMethodOn (run : Runner) (v : Value) (method : String) (es : List Expr) : Interp Value := do
  match v with
  | .object r => run.callObjectMethod r method es
  | v => Interp.valueMethod v method (← run.arguments es)

/-- What a call of the base class does when the base class has no such method: nothing for `New`,
and an error otherwise. -/
def missingBase (className method : String) : Interp Value :=
  if Text.equalFold method "new" then return .nothing
  else Interp.fail (.undefinedFunction (className ++ "." ++ method))

/-- Call a method of the base class of the class whose method is running. -/
def callBase (run : Runner) (method : String) (es : List Expr) : Interp Value := do
  let s ← get
  match s.context.self with
  | none => Interp.failWith "'MyBase' is only valid within an instance method"
  | some self =>
    let baseName := ((s.class? s.context.classContext).map (·.inherits)).getD ""
    if baseName == "" then missingBase "MyBase" method
    else match s.class? baseName with
      | none => missingBase baseName method
      | some base =>
        match s.classTable.method? baseName method with
        | none => missingBase base.name method
        | some (m, c) => run.callMethodOf m c self es

/-- An argument that has to be an instance. -/
def neededObject (v : Value) : Interp ObjectRef :=
  match v with
  | .object r => return r
  | v => Interp.fail (.typeMismatch "Object" v.typeName)

/-- Add a control to a form: the control becomes a field of the form, and the host is told. -/
def addControl (run : Runner) (formExpr : Expr) (es : List Expr) : Interp Value := do
  let form ← neededObject (← run.owner formExpr)
  match ← run.arguments es with
  | [v] =>
    let control ← neededObject v
    let name := (← get).hostName control
    Interp.setField form name v
    let s ← get
    let measure (key : String) := s.heap.intField control key
    Interp.emit <| .addControl
      { form := s.hostName form, name, control := control.className, left := measure "left",
        top := measure "top", width := measure "width", height := measure "height" }
    return .nothing
  | args =>
    Interp.failWith ("Controls.Add expects 1 argument, got " ++ Decimal.intText args.length)

/-- What `name.method(…)` means before `name` is taken for an object: a procedure of a module; or,
if the name is neither bound nor a class, a built-in procedure. -/
def qualifiedCall? (run : Runner) (s : State) (name method : String) (es : List Expr) :
    Option (Interp Value) :=
  match s.procedureAt? (qualify name method) with
  | some p => some (run.callEntry p es)
  | none =>
    if (s.data? name).isSome || (s.class? name).isSome then none
    else match builtin? (Text.lower (name ++ "." ++ method)) with
      | some b => some (run.callBuiltin b es)
      | none =>
        if isIntrinsicOwner name then
          some (Interp.fail (.undefinedFunction (name ++ "." ++ method)))
        else none

/-- What a method call means before its owner is evaluated: a call of the base class, a control
added to a form, or a call through the name of a module or facility. -/
def specialCall? (run : Runner) (s : State) (e : Expr) (method : String) (es : List Expr) :
    Option (Interp Value) :=
  match e with
  | .myBase => some (run.callBase method es)
  | .member form m =>
    if Text.equalFold m "controls" && Text.equalFold method "add" then some (run.addControl form es)
    else none
  | .variable name => run.qualifiedCall? s name method es
  | _ => none

/-- A method call. -/
def callMethod (run : Runner) (e : Expr) (method : String) (es : List Expr) : Interp Value := do
  (run.specialCall? (← get) e method es).getD do run.callMethodOn (← run.owner e) method es

/-! ### The other expressions -/

/-- Inline `If`: with two parts the first one unless it is `Nothing`, with three a choice. -/
def conditional (run : Runner) (condition whenTrue whenFalse : Expr) : Interp Value := do
  if whenFalse.isOmitted then
    let v ← run.eval condition
    if v.isNothing then run.eval whenTrue else return v
  else if ← run.condition condition then run.eval whenTrue
  else run.eval whenFalse

/-- Whether a cast fails with `Nothing` instead of an error. -/
def isTryCast (kind : String) : Bool := Text.equalFold kind "TryCast"

/-- Cast an instance: it stays as it is unless the target is a class that it does not belong to. -/
def castObject (kind targetType : String) (r : ObjectRef) : Interp Value := do
  let s ← get
  if s.classTable.isSubclass r.className targetType || Text.equalFold targetType "object" ||
      (s.class? targetType).isNone then return .object r
  else if isTryCast kind then return .nothing
  else Interp.fail (.typeMismatch targetType r.className)

/-- Cast a value to a type. -/
def cast (kind targetType : String) (v : Value) : Interp Value :=
  match v with
  | .object r => castObject kind targetType r
  | v =>
    match v.coerceTo targetType with
    | .ok v => return v
    | .error c => if isTryCast kind then return .nothing else Interp.fail c

/-- Evaluate a list of expressions from left to right. -/
def evalAll (run : Runner) : List Expr → Interp (List Value)
  | [] => return []
  | e :: es => do
    let v ← run.eval e
    return v :: (← evalAll run es)

/-- The operands of an operator. `AndAlso` and `OrElse` leave the right one alone when the left one
decides. -/
def binary (run : Runner) (op : Operator) (l r : Expr) : Interp Value := do
  let a ← run.eval l
  match op with
  | .andAlso =>
    if ← a.asBool then return .boolean (← run.condition r) else return .boolean false
  | .orElse =>
    if ← a.asBool then return .boolean true else return .boolean (← run.condition r)
  | op => do op.apply a (← run.eval r)

/-- The current object. -/
def currentObject : Interp Value := do
  match (← get).context.self with
  | some r => return .object r
  | none => Interp.failWith "'Me' is only valid within an instance method"

/-- One step of evaluation. -/
def evalStep (run : Runner) (e : Expr) : Interp Value := do
  match e with
  | .variable name => run.readName name
  | .member o name => run.readMember o name
  | .element name es => run.callNamed name es
  | .call name es => run.callNamed name es
  | .method o name es => run.callMethod o name es
  | .new className es fields =>
    return .object (← run.instantiate className (← run.arguments es) fields)
  | .me => currentObject
  | .myBase => currentObject
  | .withTarget => withTarget
  | .conditional c t f => run.conditional c t f
  | .typeOf e typeName =>
    match ← run.eval e with
    | .object r => return .boolean ((← get).classTable.isSubclass r.className typeName)
    | _ => return .boolean false
  | .cast kind e targetType => do cast kind targetType (← run.eval e)
  | .addressOf name => return .text name
  | .await e => run.eval e
  | .lambda _ _ => Interp.failWith "Lambda expressions are not supported"
  | .array es => do Interp.newArrayOf (← run.evalAll es)
  | .binary op l r => run.binary op l r
  | .unary op e => do op.applyUnary (← run.eval e)
  | e =>
    match e.literal? with
    | some v => v
    | none => Interp.fail e.needsContext

end Runner

end FormBasic
