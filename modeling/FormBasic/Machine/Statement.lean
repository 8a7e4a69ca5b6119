import FormBasic.Machine.Event

/-!
# Statements

One step of execution: what a statement does, given a runner for its parts. A statement ends
normally or with a signal, which travels outwards until a block takes it: a loop takes `Exit` and
`Continue` of its kind, `Select` and `Try` take `Exit` of theirs, and a call takes `Return`.
-/

namespace FormBasic

/-- Stop because the fuel is used up. -/
def Interp.outOfFuel : Interp α := throw .outOfFuel

/-- The elements that `For Each` visits: those of an array, the characters of a text, or those of
the `items` of an instance, given how these are found. -/
def Heap.itemsStep (h : Heap) (items : Value → Option (Fallible (List Value))) :
    Value → Option (Fallible (List Value))
  | .array _ elements => some (.ok (elements.map Value.orNothing))
  | .text s => some (.ok (s.toList.map fun c => .text (String.ofList [c])))
  | .object r =>
    match h.get? r "items" with
    | some v => items v
    | none => some (.error (.typeMismatch "Array" "Object"))
  | v => some (.error (.typeMismatch "Array" v.typeName))

/-- The elements that `For Each` visits. Fuel bounds how many instances hand on to their `items`,
which may lead in a circle. -/
def Heap.itemsFrom (h : Heap) : (fuel : Nat) → Value → Option (Fallible (List Value))
  | 0 => h.itemsStep fun _ => none
  | fuel + 1 => h.itemsStep (itemsFrom h fuel)

/-- A signal as it leaves a block that takes `Exit` of a kind. -/
def Signal.leave (kind : BlockKind) : Signal → Signal
  | .exit k => if k == kind then .normal else .exit k
  | signal => signal

namespace Runner

/-! ### Assignments -/

/-- Bind a member without an object, and tell the host. -/
def assignFlattened (owner member : String) (v : Value) : Interp Unit := do
  Interp.updateScopes (·.defineMember owner member v)
  Interp.emit (.propertyChange owner member v)

/-- Assign to a member of a value; what is no object has its members bound by name. -/
def assignMemberOf (run : Runner) (ownerText : String) (o : Value) (member : String) (v : Value) :
    Interp Unit :=
  match o with
  | .object r => run.assignField r member v
  | .text name => assignFlattened name member v
  | _ => assignFlattened ownerText member v

/-- The built-in facility that an owner names, unless the name is bound. -/
def intrinsicOwner? (s : State) : Expr → Option String
  | .variable name => if (s.data? name).isNone && isIntrinsicOwner name then some name else none
  | _ => none

/-- Assign to a member. An owner that stands for nothing is taken for a name. -/
def assignMember (run : Runner) (e : Expr) (member : String) (v : Value) : Interp Unit := do
  match intrinsicOwner? (← get) e with
  | some name => Interp.assignIntrinsic name member v
  | none =>
    match ← Interp.found? (run.owner e) with
    | some o => run.assignMemberOf e.ownerText o member v
    | none => assignFlattened e.ownerText member v

/-- Assign to an element of an array variable: the array is rebuilt and assigned. -/
def assignElement (run : Runner) (name : String) (es : List Expr) (v : Value) : Interp Unit := do
  match (← get).data? name with
  | none => Interp.fail (.undefinedVariable name)
  | some current =>
    if es.isEmpty then
      Interp.failWith ("Array assignment to '" ++ name ++ "' requires an index")
    else
      let indices ← run.bounds es
      run.assignBound name (← Interp.withTags (withElement current indices v))

/-- The elements that a resized array takes over from the old one. -/
def preserved (s : State) (name : String) (fresh : Value) : Value :=
  match s.data? name, fresh with
  | some (.array _ old), .array tag new => .array tag (overlay new old)
  | _, v => v

/-- Resize an array variable. -/
def reDim (run : Runner) (name : String) (preserve : Bool) (es : List Expr) : Interp Unit := do
  let bs ← run.bounds es
  if bs.isEmpty then Interp.failWith ("ReDim of '" ++ name ++ "' requires bounds")
  else
    let fresh ← Interp.build (newArray .nothing bs)
    let s ← get
    run.assignOrDefine name (if preserve then preserved s name fresh else fresh)

/-- Assign the result of an operator on a target and a value to the target. -/
def compound (run : Runner) (target : Expr) (op : Operator) (value : Expr) : Interp Unit := do
  let current ← run.eval target
  let operand ← run.eval value
  let v ← op.apply current operand
  match target with
  | .variable name => run.assign name v
  | .member o member => run.assignMember o member v
  | .element name es => run.assignElement name es v
  | e => Interp.failWith ("invalid compound assignment target " ++ e.render)

/-! ### Branches -/

/-- The first `ElseIf` whose condition holds, else the `Else` block. -/
def elseBranches (run : Runner) (otherwise : List Stmt) : List ElseIf → Interp Signal
  | [] => run.block otherwise
  | b :: bs => do
    if ← run.condition b.condition then run.block b.body else elseBranches run otherwise bs

/-- Whether a value meets an entry of a `Case` line. -/
def meets (run : Runner) (test : Value) : CaseCondition → Interp Bool
  | .value e => return test.equal (← run.eval e)
  | .range low high => do
    let low ← run.eval low
    let high ← run.eval high
    return test.inRange low high
  | .is op e => do test.compareBy op (← run.eval e)

/-- Whether a value meets one of the entries of a `Case` line; the rest is left alone. -/
def meetsAny (run : Runner) (test : Value) : List CaseCondition → Interp Bool
  | [] => return false
  | c :: cs => do
    if ← run.meets test c then return true else meetsAny run test cs

/-- The block of the first `Case` line that a value meets. -/
def caseBlock (run : Runner) (test : Value) (otherwise : List Stmt) :
    List CaseClause → Interp (List Stmt)
  | [] => return otherwise
  | c :: cs => do
    if ← run.meetsAny test c.conditions then return c.body else caseBlock run test otherwise cs

/-! ### Loops -/

/-- One round of a loop of a kind: the signal with which the loop ends, or none to go on. -/
def round (run : Runner) (kind : BlockKind) (body : List Stmt) : Interp (Option Signal) := do
  match ← run.block body with
  | .normal => return none
  | .exit k => return some (if k == kind then .normal else .exit k)
  | .next k => return if k == kind then none else some (.next k)
  | .returned v => return some (.returned v)

/-- Whether a loop variable has passed the end, by the sign of the step. -/
def hasPassed (step : Float) (order : Ordering) : Bool :=
  (step ≥ 0 && order.isGT) || (step < 0 && order.isLT)

/-- The rounds of a `For` loop. The variable is read anew before and after each round. -/
def forRounds (run : Runner) (name : String) (stop step : Value) (stepNumber : Float)
    (body : List Stmt) : (fuel : Nat) → Interp Signal
  | 0 => Interp.outOfFuel
  | fuel + 1 => do
    let current ← run.readName name
    if hasPassed stepNumber (← current.compare stop) then return .normal
    else match ← run.round .forLoop body with
      | some signal => return signal
      | none =>
        let current ← run.readName name
        run.assign name (← Operator.add.apply current step)
        forRounds run name stop step stepNumber body fuel

/-- A `For` loop. Start, end and step are evaluated once. -/
def forTo (run : Runner) (name : String) (start stop : Expr) (step : Option Expr)
    (body : List Stmt) : Interp Signal := do
  let start ← run.eval start
  let stop ← run.eval stop
  let step ← match step with
    | some e => run.eval e
    | none => pure (.integer 1)
  let stepNumber ← step.asDouble
  run.assignOrDefine name start
  run.forRounds name stop step stepNumber body run.fuel

/-- The rounds of a `For Each` loop. -/
def eachRounds (run : Runner) (name : String) (body : List Stmt) : List Value → Interp Signal
  | [] => return .normal
  | v :: vs => do
    run.assignOrDefine name v
    match ← run.round .forLoop body with
    | some signal => return signal
    | none => eachRounds run name body vs

/-- A `For Each` loop. -/
def forEach (run : Runner) (name : String) (collection : Expr) (body : List Stmt) :
    Interp Signal := do
  let v ← run.eval collection
  match (← get).heap.itemsFrom run.fuel v with
  | none => Interp.outOfFuel
  | some items => run.eachRounds name body (← items)

/-- The rounds of a `While` loop. -/
def whileRounds (run : Runner) (condition : Expr) (body : List Stmt) : (fuel : Nat) →
    Interp Signal
  | 0 => Interp.outOfFuel
  | fuel + 1 => do
    if ← run.condition condition then
      match ← run.round .whileLoop body with
      | some signal => return signal
      | none => whileRounds run condition body fuel
    else return .normal

/-- Whether a `Do` loop goes on; it does where no condition stands. -/
def goesOn (run : Runner) : Option LoopCondition → Interp Bool
  | none => return true
  | some c => return (← run.condition c.condition) != c.isUntil

/-- The rounds of a `Do` loop. -/
def doRounds (run : Runner) (pre post : Option LoopCondition) (body : List Stmt) : (fuel : Nat) →
    Interp Signal
  | 0 => Interp.outOfFuel
  | fuel + 1 => do
    if ← run.goesOn pre then
      match ← run.round .doLoop body with
      | some signal => return signal
      | none =>
        if ← run.goesOn post then doRounds run pre post body fuel else return .normal
    else return .normal

/-! ### Exceptions -/

/-- The class of exception that stands for a runtime error. -/
def exceptionClass : Cause → String
  | .divisionByZero => "DivideByZeroException"
  | .typeMismatch _ _ => "InvalidCastException"
  | .undefinedVariable _ => "MissingMemberException"
  | .undefinedFunction _ => "MissingMemberException"
  | .custom message =>
    if Text.occursIn "overflow".toList message.toList then "OverflowException" else "Exception"

/-- A new exception with a message. -/
def newException (className message : String) : Interp ObjectRef := do
  let r ← Interp.newObject className
  Interp.setField r "message" (.text message)
  return r

/-- The exception that a `Catch` sees for a failure. -/
def exceptionFor (f : Failure) : Interp ObjectRef := do
  match f with
  | .thrown r => return r
  | .runtime cause _ => newException (exceptionClass cause) cause.message
  | f => newException "Exception" (f.message (← get).heap)

/-- Whether the filter of a `Catch` line lets an exception through. -/
def passesFilter (run : Runner) (c : CatchClause) : Interp Bool :=
  match c.filter with
  | none => return true
  | some e => run.condition e

/-- Whether a `Catch` line is for an exception. Its variable is bound before its filter is
evaluated. -/
def catches (run : Runner) (c : CatchClause) (r : ObjectRef) : Interp Bool := do
  let s ← get
  if c.typeName == "" || Text.equalFold c.typeName "Exception" ||
      s.classTable.isSubclass r.className c.typeName then
    if c.name != "" then Interp.define c.name (.object r)
    run.passesFilter c
  else return false

/-- Run the first `Catch` block that is for an exception; without one the failure goes on. -/
def runCatch (run : Runner) (f : Failure) (r : ObjectRef) : List CatchClause → Interp Signal
  | [] => Interp.resume (.error f)
  | c :: cs => do
    if ← run.catches c r then
      Interp.inContext (.handling r) (run.block c.body)
    else runCatch run f r cs

/-- The body of a `Try` with its `Catch` lines. A closed session is never caught. -/
def guarded (run : Runner) (body : List Stmt) (cs : List CatchClause) : Interp Signal := do
  match ← Interp.attempt (run.block body) with
  | .ok signal => return signal
  | .error .abandoned => Interp.resume (.error .abandoned)
  | .error f => do run.runCatch f (← exceptionFor f) cs

/-- How a `Try` ends, from how its body and its `Finally` block ended. -/
def afterCleanup (outcome : Except Failure Signal) (cleanup : Signal) : Interp Signal := do
  let signal ← Interp.resume outcome
  match cleanup.leave .tryBlock with
  | .normal => return signal.leave .tryBlock
  | cleanup => return cleanup

/-- A `Try`: the `Finally` block runs however the rest ends. -/
def tryCatch (run : Runner) (body : List Stmt) (cs : List CatchClause)
    (cleanup : Option (List Stmt)) : Interp Signal := do
  let outcome ← Interp.attempt (run.guarded body cs)
  afterCleanup outcome (← run.block (cleanup.getD []))

/-- Throw an exception: the one being handled if no value is given. -/
def throwValue (run : Runner) (value : Option Expr) : Interp Signal := do
  match value with
  | none =>
    match (← get).context.exceptions with
    | r :: _ => throw (.failure (.thrown r))
    | [] => Interp.failWith "Throw without an exception outside a Catch block"
  | some e =>
    match ← run.eval e with
    | .object r => throw (.failure (.thrown r))
    | .text message => do throw (.failure (.thrown (← newException "Exception" message)))
    | v => Interp.fail (.typeMismatch "Exception" v.typeName)

/-! ### The step -/

/-- Do something and end normally. -/
def done (x : Interp α) : Interp Signal := do
  let _ ← x
  return .normal

/-- One step of execution. -/
def execStep (run : Runner) (s : Stmt) : Interp Signal := do
  match s with
  | .dim name typeName bs initializer =>
    done do Interp.define name (← run.initialValue typeName bs initializer)
  | .const name e => done do
    let v ← run.eval e
    Interp.updateScopes (·.defineConst name v)
  | .assign name e => done do run.assign name (← run.eval e)
  | .setAssign name e => done do run.assignBound name (← run.eval e)
  | .memberAssign o member e => done do run.assignMember o member (← run.eval e)
  | .elementAssign name es e => done do run.assignElement name es (← run.eval e)
  | .reDim name preserve es => done (run.reDim name preserve es)
  | .compound target op e => done (run.compound target op e)
  | .ifThen condition whenTrue elseIfs whenFalse =>
    if ← run.condition condition then run.block whenTrue
    else run.elseBranches (whenFalse.getD []) elseIfs
  | .forTo name start stop step body => run.forTo name start stop step body
  | .forEach name collection body => run.forEach name collection body
  | .whileLoop condition body => run.whileRounds condition body run.fuel
  | .doLoop pre post body => run.doRounds pre post body run.fuel
  | .select test cases otherwise => do
    let v ← run.eval test
    let body ← run.caseBlock v (otherwise.getD []) cases
    return (← run.block body).leave .select
  | .withBlock e body => do
    let v ← run.eval e
    Interp.inContext (.withBlock v) (run.block body)
  | .exitBlock kind => return .exit kind
  | .continueLoop kind => return .next kind
  | .returnValue none => return .returned .absent
  | .returnValue (some e) => return .returned (← run.eval e)
  | .call e => done (run.eval e)
  | .expression e => done (run.eval (e.getD .omitted))
  | .tryCatch body cs cleanup => run.tryCatch body cs cleanup
  | .throwValue e => run.throwValue e
  | .addHandler remove event handler => done (run.changeHandler remove event handler)
  | .raiseEvent name es => done (run.raiseEvent name es)

end Runner

end FormBasic
