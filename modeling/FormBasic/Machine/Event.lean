import FormBasic.Machine.Expression
import FormBasic.Syntax.Printer

/-!
# Events

Which handler an event has, and how handlers are added, removed and run. A handler is bound by a
`Handles` clause or at run time, else by its name as a method of the form, else by its name as a
free procedure.
-/

namespace FormBasic

/-- The rule that bound an event to its handler. -/
inductive Strategy where
  | explicit
  | naming
  | freeProcedure
deriving Repr, DecidableEq

/-- What a handler runs. -/
inductive HandlerTarget where
  | method (decl : Procedure) (owner : ClassInfo)
  | registration (r : Registration)
  | procedure (entry : ProcedureEntry)

/-- The handler of an event. -/
structure Handler where
  name : String
  strategy : Strategy
  target : HandlerTarget

/-- The class of a handler, empty if it is no method. -/
def Handler.className (h : Handler) : String :=
  match h.target with
  | .method _ owner => owner.name
  | _ => ""

/-- The text of the owner of an event or member: a name as it is, nothing for an empty place. -/
def Expr.ownerText : Expr → String
  | .omitted => ""
  | .variable name => name
  | e => e.render

/-- Whether a name stands for a form itself. -/
def isFormAlias (name form : String) : Bool :=
  Text.equalFold name "me" || Text.equalFold name "mybase" || Text.equalFold name form

/-- Whether a path such as `btnOK.Click` or `Me.Load` names an event of a control on a form. -/
def handlesEvent (form control event : String) (path : String) : Bool :=
  match Text.cut '.' path.toList with
  | (_, none) => false
  | (left, some right) =>
    let left := String.ofList left
    let left := if isFormAlias left form then form else left
    Text.equalFold left control && Text.equalFold (String.ofList right) event

/-- Whether a handler added at run time is for an event of a control on a form. -/
def Registration.isFor (h : Heap) (form control event : String) (r : Registration) : Bool :=
  Text.equalFold r.event event &&
    (Text.equalFold r.source control ||
      ((r.instanceRef.bind h.nameOf?).any (Text.equalFold · control)) ||
      (isFormAlias r.source form && Text.equalFold control form))

namespace State

/-- The method of a form class that a `Handles` clause binds. -/
def handlesMethod? (s : State) (form control event : String) : Option (Procedure × ClassInfo) :=
  ClassTable.firstMember (·.methods) (·.handles.any (handlesEvent form control event))
    (s.classTable.chain form)

/-- The names of the methods that handle an event by convention. -/
def conventionalNames (form control event : String) : List String :=
  (control ++ "_" ++ event) ::
    if Text.equalFold control form then ["Form_" ++ event] else []

/-- The free procedure that handles an event by its name. -/
def eventProcedure? (s : State) (control event : String) : Option ProcedureEntry :=
  let key := Text.lower (control ++ "_" ++ event)
  match s.procedureAt? key with
  | some p => some p
  | none => s.procedureInModule? key

/-- The explicit handler of an event. -/
def explicitHandler? (s : State) (form control event : String) : Option Handler :=
  match s.handlesMethod? form control event with
  | some (m, c) => some ⟨m.name, .explicit, .method m c⟩
  | none =>
    (s.registrations.find? (Registration.isFor s.heap form control event)).map fun r =>
      ⟨r.handler, .explicit, .registration r⟩

/-- The handler of an event by the name of a method. -/
def namedHandler? (s : State) (form control event : String) : Option Handler :=
  ((conventionalNames form control event).findSome? (s.classTable.method? form)).map
    fun (m, c) => ⟨m.name, .naming, .method m c⟩

/-- The handler of an event by the name of a free procedure. -/
def freeHandler? (s : State) (control event : String) : Option Handler :=
  (s.eventProcedure? control event).map fun p => ⟨p.decl.name, .freeProcedure, .procedure p⟩

/-- The handler of an event of a control on a form. -/
def handler? (s : State) (form control event : String) : Option Handler :=
  match s.explicitHandler? form control event with
  | some h => some h
  | none =>
    match s.namedHandler? form control event with
    | some h => some h
    | none => s.freeHandler? control event

/-- Whether an event that the current object raises reaches a handler added at run time. -/
def reaches (s : State) (event : String) (r : Registration) : Bool :=
  Text.equalFold r.event event &&
    match s.context.self with
    | some self =>
      r.instanceRef.any (·.same self) ||
        (let name := (s.heap.nameOf? self).getD ""
         name != "" && Text.equalFold r.source name)
    | none => r.instanceRef.isNone

end State

/-- Whether a registration is one that `RemoveHandler` means. -/
def Registration.isRemovedBy (removed r : Registration) : Bool :=
  Text.equalFold r.event removed.event && Text.equalFold r.handler removed.handler &&
    (Text.equalFold r.source removed.source ||
      removed.instanceRef.any fun i => r.instanceRef.any (·.same i))

/-- The name of a handler procedure, without a leading `Me.` or `MyBase.`. -/
def handlerName (text : String) : String :=
  match splitAtLastPoint text with
  | (some lead, name) => if isFormAlias lead "" then name else text
  | (none, _) => text

/-- The instance that a value is, if it is one. -/
def Value.instance? : Value → Option ObjectRef
  | .object r => some r
  | _ => none

namespace Runner

/-- Run a handler added at run time: a method of the object that added it, else a procedure. -/
def runRegistration (run : Runner) (r : Registration) (args : List Value) : Interp Unit := do
  let s ← get
  match r.self.bind fun self => (s.methodOf? self r.handler).map (self, ·) with
  | some (self, m, c) =>
    let _ ← run.invokeMethod m c (some self) args
  | none =>
    match s.procedure? r.handler with
    | some p =>
      let _ ← run.invokeProcedure p args
    | none => Interp.fail (.undefinedFunction r.handler)

/-- The source of an event and the instance it stands for. A variable without a value is not
evaluated. -/
def eventSource (run : Runner) (e : Expr) : Interp (String × Option ObjectRef) := do
  let s ← get
  match e with
  | .me => return ("Me", s.context.self)
  | .myBase => return ("Me", s.context.self)
  | .variable name => return (name, (s.data? name).bind Value.instance?)
  | e =>
    match s.data? e.ownerText with
    | some v => return (e.ownerText, v.instance?)
    | none => return (e.ownerText, (← run.eval e).instance?)

/-- Add or remove a handler. -/
def changeHandler (run : Runner) (remove : Bool) (event handler : Expr) : Interp Unit := do
  match event with
  | .member source name =>
    let handler := handlerName (← run.eval handler).toText
    let self := (← get).context.self
    let (source, instanceRef) ← run.eventSource source
    let r : Registration := { source, event := name, handler, self, instanceRef }
    modify fun s =>
      { s with registrations :=
          if remove then s.registrations.filter fun old => !r.isRemovedBy old
          else s.registrations ++ [r] }
  | e => Interp.failWith ("AddHandler expects object.Event, got " ++ e.render)

/-- Run handlers in order up to the first that fails. -/
def runRegistrations (run : Runner) (args : List Value) : List Registration → Interp Unit
  | [] => return
  | r :: rs => do
    run.runRegistration r args
    runRegistrations run args rs

/-- Raise an event of the current object: the handlers that are there at this moment and that it
reaches run in the order in which they were added. -/
def raiseEvent (run : Runner) (name : String) (es : List Expr) : Interp Unit := do
  let args ← run.arguments es
  let s ← get
  run.runRegistrations args (s.registrations.filter (s.reaches name))

/-- What a handler receives as the sender: the form, its control, an instance of that name, or a
stand-in that only has the name. -/
def sender (form : Option ObjectRef) (control : String) : Interp Value := do
  let s ← get
  let onForm : Option Value := do
    let f ← form
    if (s.heap.nameOf? f).any (Text.equalFold · control) then some (.object f)
    else s.heap.get? f control
  match onForm, s.scopes.lookup? control with
  | some v, _ => return v
  | none, some (.object r) => return .object r
  | none, _ =>
    let r ← Interp.newObject "Control"
    Interp.setField r "name" (.text control)
    return .object r

/-- Run a handler. -/
def runHandler (run : Runner) (form : Option ObjectRef) (args : List Value) (h : Handler) :
    Interp Unit := do
  match h.target with
  | .method m c =>
    let _ ← run.invokeMethod m c form args
  | .procedure p =>
    let _ ← run.invokeProcedure p args
  | .registration r => run.runRegistration r args

/-- What a handler is called with: the given arguments, else the sender and an `EventArgs`
instance. -/
def eventArguments (form : Option ObjectRef) (control : String) (args : List Value) :
    Interp (List Value) := do
  if args.isEmpty then
    let origin ← sender form control
    let details ← Interp.newObject "EventArgs"
    return [origin, .object details]
  else return args

/-- The default instance of a form, if there is a class of its name. -/
def formInstance? (run : Runner) (form : String) : Interp (Option ObjectRef) := do
  if ((← get).class? form).isSome then some <$> run.defaultInstance form else return none

/-- Dispatch an event to its handler; says whether there is one. -/
def dispatch (run : Runner) (form control event : String) (args : List Value) : Interp Bool := do
  match (← get).handler? form control event with
  | none => return false
  | some h =>
    let formRef ← run.formInstance? form
    run.runHandler formRef (← eventArguments formRef control args) h
    return true

end Runner

end FormBasic
