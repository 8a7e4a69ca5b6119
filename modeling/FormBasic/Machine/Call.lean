import FormBasic.Machine.Names
import FormBasic.Value.Coerce

/-!
# Calls

How a procedure, a method or a property accessor runs: in a scope of its own, with its own object,
class, module and `With` blocks, which are given back when it ends. Arguments that are passed by
reference are written back to the variables they came from.

The functions here are given a `Runner`, which evaluates the expressions, executes the statements,
runs the callables and makes the assignments they meet. So none of them is recursive, and what holds
of a runner carries over to the next one.
-/

namespace FormBasic

/-- How a statement ends if it does not fail. -/
inductive Signal where
  | normal
  /-- Leave the innermost block of a kind. -/
  | exit (kind : BlockKind)
  /-- Go on with the next round of the innermost loop of a kind. -/
  | next (kind : BlockKind)
  /-- Leave the procedure, with a value unless it is absent. -/
  | returned (value : Value)
deriving Inhabited

/-- A parameter list with a body. -/
structure Callable where
  name : String
  parameters : List Parameter
  body : List Stmt
  isFunction : Bool
  returnType : String
  moduleName : String

/-- Evaluation, execution, calls and assignments with limited fuel. -/
structure Runner where
  /-- The fuel that is left, which bounds the rounds of a loop. -/
  fuel : Nat
  eval : Expr → Interp Value
  exec : Stmt → Interp Signal
  /-- Run a callable with an object, a class context and arguments; the result, and what its
  parameters are bound to at the end. -/
  invoke : Callable → Option ObjectRef → String → List Value → Interp (Value × List Value)
  /-- Assign to a name where it stands for something. -/
  assignBound : String → Value → Interp Unit

/-- What an assignment to a name changes. -/
inductive Target where
  | binding (key : String)
  | property (self : ObjectRef) (p : PropertyDecl) (owner : ClassInfo)
  | field (self : ObjectRef)
  | moduleProperty (p : PropertyDecl) (moduleName : String)
  | missing

/-- What an assignment to a name changes: a local binding, a property or field of the current
object, a global or module variable, or a module property. -/
def State.target (s : State) (name : String) : Target :=
  if s.scopes.hasLocal name then .binding name
  else match s.ownProperty? name with
    | some (self, p, owner) => .property self p owner
    | none =>
      match s.context.self.filter fun self => (s.heap.get? self name).isSome with
      | some self => .field self
      | none =>
        if (s.scopes.lookup? name).isSome then .binding name
        else match s.moduleVariable? name with
          | some (key, _) => .binding key
          | none =>
            match s.moduleProperty? name with
            | some (p, moduleName) => .moduleProperty p moduleName
            | none => .missing

namespace Callable

/-- A procedure or method. -/
def ofProcedure (p : Procedure) (moduleName : String) : Callable where
  name := p.name
  parameters := p.parameters
  body := p.body
  isFunction := p.isFunction
  returnType := p.returnType
  moduleName := moduleName

/-- A declared procedure. -/
def ofEntry (p : ProcedureEntry) : Callable := ofProcedure p.decl p.moduleName

/-- The reading accessor of a property. -/
def getter (p : PropertyDecl) (moduleName : String) : Callable where
  name := p.name
  parameters := p.parameters
  body := p.getter.getD []
  isFunction := true
  returnType := p.typeName
  moduleName := moduleName

/-- The writing accessor of a property. Its last parameter takes the new value. -/
def setter (p : PropertyDecl) (moduleName : String) : Callable where
  name := p.name
  parameters :=
    p.parameters ++ [p.setterParam.getD { name := "Value", typeName := p.typeName }]
  body := p.setter.getD []
  isFunction := false
  returnType := ""
  moduleName := moduleName

/-- The context in which a callable runs. The module stays that of the caller when the callable
belongs to none and has an object. -/
def enter (c : Callable) (self : Option ObjectRef) (classContext : String) (ctx : Context) :
    Context :=
  { ctx with
    self, classContext
    moduleName := if c.moduleName != "" || self.isNone then c.moduleName else ctx.moduleName
    withStack := []
    frames := c.name :: ctx.frames }

/-- A call. Its procedure is taken from the active ones by a pop, and what else it has replaced is
put back. -/
def detour (c : Callable) (self : Option ObjectRef) (classContext : String) : Detour where
  enter := c.enter self classContext
  leave before ctx :=
    { ctx with
      self := before.self
      classContext := before.classContext
      moduleName := before.moduleName
      withStack := before.withStack
      frames := ctx.frames.tail }

end Callable

/-- The greatest number of procedures that can be active at once. -/
def maxFrames : Nat := 512

/-- Run in the context and in a scope of a call, and note the call in a failure. The number of
active procedures is limited. -/
def Interp.inCall (c : Callable) (self : Option ObjectRef) (classContext : String)
    (x : Interp α) : Interp α := do
  if maxFrames ≤ (← get).context.frames.length then
    failWith ("Call stack overflow in " ++ c.name)
  else
    inContext (c.detour self classContext) <| inScope <| onFailure (·.leave c.name) x

namespace Runner

/-- Execute statements in order up to the first that does not end normally. -/
def block (run : Runner) : List Stmt → Interp Signal
  | [] => return .normal
  | s :: ss => do
    match ← run.exec s with
    | .normal => block run ss
    | signal => return signal

/-- Evaluate a condition. -/
def condition (run : Runner) (e : Expr) : Interp Bool := do (← run.eval e).asBool

/-- Evaluate one argument; an empty place gives an absent value. -/
def argument (run : Runner) (e : Expr) : Interp Value :=
  if e.isOmitted then return .absent else run.eval e

/-- Evaluate arguments from left to right. -/
def arguments (run : Runner) : List Expr → Interp (List Value)
  | [] => return []
  | e :: es => do
    let v ← run.argument e
    return v :: (← arguments run es)

/-! ### Running a callable -/

/-- The value that a parameter receives: the argument, else its default, else what its type starts
with. -/
def parameterValue (run : Runner) (p : Parameter) (arg : Value) : Interp Value := do
  let v ← if arg.isProper then pure arg else match p.default with
    | some e => run.eval e
    | none => pure (defaultOf p.typeName)
  v.coerceTo p.typeName

/-- Bind parameters to arguments in the innermost scope. A parameter array takes all arguments that
are left and ends the list. -/
def bindParameters (run : Runner) : List Parameter → List Value → Interp Unit
  | [], _ => return
  | p :: ps, args => do
    if p.paramArray then Interp.define p.name (← Interp.newArrayOf args)
    else
      Interp.define p.name (← run.parameterValue p (args.headD .absent))
      bindParameters run ps args.tail

/-- The result of a callable, from the signal that its body ended with. -/
def resultOf (c : Callable) (signal : Signal) : Interp Value := do
  let returned := match signal with
    | .returned v => v
    | _ => .absent
  let v ← if returned.isProper then pure returned
    else if c.isFunction then pure (((← get).scopes.lookup? c.name).getD .nothing)
    else pure .nothing
  if c.isFunction then v.coerceTo c.returnType else return v

/-- Run the body of a callable in a scope that has been opened for it; the result, and what the
parameters are bound to at the end. -/
def runBody (run : Runner) (c : Callable) (args : List Value) : Interp (Value × List Value) := do
  run.bindParameters c.parameters args
  if c.isFunction then Interp.define c.name (defaultOf c.returnType)
  let signal ← run.block c.body
  let result ← resultOf c signal
  let scopes := (← get).scopes
  return (result, c.parameters.map fun p => (scopes.lookup? p.name).getD .absent)

/-- One step of a call: run a callable. -/
def invokeStep (run : Runner) (c : Callable) (self : Option ObjectRef) (classContext : String)
    (args : List Value) : Interp (Value × List Value) :=
  Interp.inCall c self classContext (run.runBody c args)

/-- Run a method of an instance. -/
def invokeMethod (run : Runner) (m : Procedure) (owner : ClassInfo) (self : Option ObjectRef)
    (args : List Value) : Interp Value :=
  (·.1) <$> run.invoke (.ofProcedure m owner.moduleName) self owner.name args

/-- Run a declared procedure. -/
def invokeProcedure (run : Runner) (p : ProcedureEntry) (args : List Value) : Interp Value :=
  (·.1) <$> run.invoke (.ofEntry p) none "" args

/-- Read a property of an instance. -/
def readProperty (run : Runner) (p : PropertyDecl) (owner : ClassInfo) (self : ObjectRef) :
    Interp Value :=
  (·.1) <$> run.invoke (.getter p owner.moduleName) (some self) owner.name []

/-- Read a module property. -/
def readModuleProperty (run : Runner) (p : PropertyDecl) (moduleName : String) : Interp Value :=
  (·.1) <$> run.invoke (.getter p moduleName) none "" []

/-- Write a property of an instance. -/
def writeProperty (run : Runner) (p : PropertyDecl) (owner : ClassInfo) (self : ObjectRef)
    (v : Value) : Interp Unit := do
  if p.readOnly || p.setter.isNone then
    Interp.failWith ("Property '" ++ p.name ++ "' is ReadOnly")
  else
    let _ ← run.invoke (.setter p owner.moduleName) (some self) owner.name [v]

/-! ### Assigning to names -/

/-- Assign to what a name stands for. -/
def assignTo (run : Runner) (name : String) (v : Value) : Target → Interp Unit
  | .binding key => Interp.rebind key v
  | .property self p owner => run.writeProperty p owner self v
  | .field self => Interp.setField self name v
  | .moduleProperty p moduleName => do
    let _ ← run.invoke (.setter p moduleName) none "" [v]
  | .missing => Interp.fail (.undefinedVariable name)

/-- One step of an assignment to a name that stands for something. -/
def assignStep (run : Runner) (name : String) (v : Value) : Interp Unit := do
  run.assignTo name v ((← get).target name)

/-- Assign to a name, and do something else if a name could not be found. -/
def assignOr (run : Runner) (name : String) (v : Value) (otherwise : Interp Unit) :
    Interp Unit := do
  match ← Interp.found? (run.assignBound name v) with
  | some _ => return
  | none => otherwise

/-- Assign to a name, creating a field of the current object, or a binding where there is none. -/
def assign (run : Runner) (name : String) (v : Value) : Interp Unit :=
  run.assignOr name v do
    match (← get).context.self with
    | some self => Interp.setField self name v
    | none => Interp.define name v

/-- Assign to a name, binding it in the innermost scope if it stands for nothing. -/
def assignOrDefine (run : Runner) (name : String) (v : Value) : Interp Unit :=
  run.assignOr name v (Interp.define name v)

/-! ### Calls with argument expressions -/

/-- Write the final value of a by-reference parameter back to the variable that was passed; a name
that stands for nothing is left alone. -/
def writeBackTo (run : Runner) (p : Parameter) (v : Value) (e : Expr) : Interp Unit :=
  match e with
  | .variable name =>
    if p.byRef && !p.paramArray && v.isProper then run.assignOr name v (return ()) else return
  | _ => return

/-- Write the final values of by-reference parameters back to the variables that were passed. -/
def writeBack (run : Runner) : List Parameter → List Value → List Expr → Interp Unit
  | p :: ps, v :: vs, e :: es => do
    run.writeBackTo p v e
    writeBack run ps vs es
  | _, _, _ => return

/-- Run a callable on the values of argument expressions, and write by-reference parameters
back. -/
def invokeOn (run : Runner) (c : Callable) (self : Option ObjectRef) (classContext : String)
    (args : List Value) (es : List Expr) : Interp Value := do
  let (result, finals) ← run.invoke c self classContext args
  run.writeBack c.parameters finals es
  return result

/-- Evaluate arguments in the scope of the caller, and run a callable on them. -/
def callWith (run : Runner) (c : Callable) (self : Option ObjectRef) (classContext : String)
    (es : List Expr) : Interp Value := do
  run.invokeOn c self classContext (← run.arguments es) es

/-- Call a method of an instance. -/
def callMethodOf (run : Runner) (m : Procedure) (owner : ClassInfo) (self : ObjectRef)
    (es : List Expr) : Interp Value :=
  run.callWith (.ofProcedure m owner.moduleName) (some self) owner.name es

/-- Call the reading accessor of a property of an instance with arguments. -/
def callGetterOf (run : Runner) (p : PropertyDecl) (owner : ClassInfo) (self : ObjectRef)
    (es : List Expr) : Interp Value :=
  run.callWith (.getter p owner.moduleName) (some self) owner.name es

/-- Call a declared procedure. -/
def callEntry (run : Runner) (p : ProcedureEntry) (es : List Expr) : Interp Value :=
  run.callWith (.ofEntry p) none "" es

end Runner

end FormBasic
