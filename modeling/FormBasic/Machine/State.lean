import FormBasic.Config
import FormBasic.Data.Service
import FormBasic.Effect
import FormBasic.Files
import FormBasic.Scope
import FormBasic.Syntax.Decoder

/-!
# The state of a running program

Everything a program can read or change: the bindings, the instances, what has been declared, the
handlers that have been added, the queue of effects, the console session, and the *context*, which
is what a call replaces and gives back: the current object, the class whose method is running, the
current module, the open `With` blocks, the exceptions being handled and the active procedures.

A run is a function on states that ends with a value, with a failure, or without fuel. The state is
kept in all three cases: a failure undoes nothing.
-/

namespace FormBasic

/-! ### Failures -/

/-- Why a run or a load failed. -/
inductive Failure where
  /-- A runtime error, with the procedures it has left, innermost first. -/
  | runtime (cause : Cause) (stack : List String)
  /-- An exception object. -/
  | thrown (exception : ObjectRef)
  /-- The console session was closed. -/
  | abandoned
  /-- A program text that could not be read; `task` says what for. -/
  | unreadable (task : String) (error : ReadError)
  /-- No file of a module could be read; what was wrong with each that was tried. -/
  | noModule (name : String) (faults : List String)

namespace Failure

/-- Leave a procedure: a runtime error notes it. -/
def leave (name : String) : Failure → Failure
  | .runtime cause stack => .runtime cause (stack ++ [name])
  | f => f

/-- Whether the failure only says that a name could not be found. -/
def isMissing : Failure → Bool
  | .runtime cause _ => cause.isMissing
  | _ => false

/-- The text of an exception object. -/
def exceptionText (h : Heap) (r : ObjectRef) : String :=
  match h.get? r "message" with
  | some v => r.className ++ ": " ++ v.toText
  | none => r.className

/-- The text of a failure. -/
def message (h : Heap) : Failure → String
  | .runtime cause _ => cause.message
  | .thrown r => exceptionText h r
  | .abandoned => "console session closed"
  | .unreadable task e => task ++ ": " ++ e.message
  | .noModule name faults =>
    "could not load module " ++ name ++ ": " ++ String.intercalate "\n" faults

/-- A failure with the procedures it left, one per line. -/
def trace (h : Heap) : Failure → String
  | .runtime cause stack =>
    "RuntimeError: " ++ cause.message ++ String.join (stack.map fun f => "\n  at " ++ f)
  | f => "Error: " ++ f.message h

end Failure

/-! ### What has been declared -/

/-- A declared procedure and the module it belongs to. -/
structure ProcedureEntry where
  decl : Procedure
  moduleName : String
deriving Inhabited

/-- A class, its partial declarations merged. -/
structure ClassInfo where
  name : String
  inherits : String
  fields : List VariableDecl
  methods : List Procedure
  properties : List PropertyDecl
  events : List String
  moduleName : String
  isPartial : Bool
deriving Inhabited

/-- A handler added at run time. -/
structure Registration where
  /-- The text of the event's owner. -/
  source : String
  event : String
  handler : String
  /-- The current object when the handler was added. -/
  self : Option ObjectRef
  /-- The instance that the owner named. -/
  instanceRef : Option ObjectRef
deriving Inhabited, DecidableEq

/-! ### The console session -/

/-- What a console program sends to its host. -/
inductive ConsoleMessage where
  | output (text : String) (foreground background : Int)
  | clear
  | inputRequest
  | finished
  | error (message : String)
deriving Repr, Inhabited, DecidableEq

/-- The host's side of a console session. It decides by the messages that it has been sent, latest
first. -/
structure ConsoleHost where
  /-- What it answers a request with. Without an answer it leaves. -/
  answer : List ConsoleMessage → Option String
  /-- Whether it leaves instead of taking the latest message. -/
  leaves : List ConsoleMessage → Bool := fun _ => false

/-- A host that answers the requests with given lines, one after the other. -/
def ConsoleHost.ofLines (lines : List String) : ConsoleHost where
  answer sent := lines[sent.count .inputRequest - 1]?

/-- The program's side of a console session: its host, what has been sent so far (latest first), and
whether the program has found that the host has gone. -/
structure ConsoleSession where
  host : ConsoleHost
  sent : List ConsoleMessage := []
  closed : Bool := false

/-! ### State and context -/

/-- What a call replaces and gives back. Lists have the innermost entry first. -/
structure Context where
  self : Option ObjectRef := none
  classContext : String := ""
  moduleName : String := ""
  withStack : List Value := []
  exceptions : List ObjectRef := []
  frames : List String := []
deriving Inhabited

/-- A change of the context for the time of a run. What is put on a stack is taken from it by a pop,
and what is replaced is kept aside and put back. So the context after a run is the one before only
if the run itself ends with the context that it started with. -/
structure Detour where
  /-- The context in which the run starts. -/
  enter : Context → Context
  /-- The context after the run, from the one before and the one with which the run ended. -/
  leave : (before ctx : Context) → Context
  leave_enter : ∀ ctx, leave ctx (enter ctx) = ctx := by exact fun _ => rfl

namespace Detour

/-- A `With` block is open. -/
def withBlock (v : Value) : Detour where
  enter ctx := { ctx with withStack := v :: ctx.withStack }
  leave _ ctx := { ctx with withStack := ctx.withStack.tail }

/-- An exception is being handled. -/
def handling (r : ObjectRef) : Detour where
  enter ctx := { ctx with exceptions := r :: ctx.exceptions }
  leave _ ctx := { ctx with exceptions := ctx.exceptions.tail }

/-- The fields that a class declares are set for a new instance. -/
def setting (r : ObjectRef) (className : String) : Detour where
  enter ctx := { ctx with self := some r, classContext := className }
  leave before ctx := { ctx with self := before.self, classContext := before.classContext }

/-- A module is loaded or declared. -/
def inModule (name : String) : Detour where
  enter ctx := { ctx with moduleName := name }
  leave before ctx := { ctx with moduleName := before.moduleName }

end Detour

/-- The state of a program. -/
structure State where
  config : Config := {}
  context : Context := {}
  scopes : Scopes := {}
  heap : Heap := {}
  procedures : Table ProcedureEntry := ∅
  properties : Table PropertyDecl := ∅
  classes : Table ClassInfo := ∅
  /-- Names of the modules in order, in lower case. -/
  moduleNames : List String := []
  /-- Modules that have been imported, in lower case. -/
  imported : List String := []
  registrations : List Registration := []
  effects : Array Effect := #[]
  console : Option ConsoleSession := none
  foreground : Int := 7
  background : Int := 0
  service : Option Data.Service := none
  /-- The files under the root path, by path. -/
  files : Files := ∅
  /-- The moment that the clock shows. -/
  clock : Calendar.Moment := ⟨45658, 43200, 0⟩
  /-- The state of the random numbers. -/
  seed : Nat := 1

/-- Why a run ended without a value. -/
inductive Halt where
  | failure (f : Failure)
  | outOfFuel

/-- A run of a program: state in, state out, with a value or the reason why there is none. -/
abbrev Interp := EStateM Halt State

namespace Interp

/-- Fail with a cause. -/
def fail (c : Cause) : Interp α := throw (.failure (.runtime c []))

/-- Fail with an error text. -/
def failWith (message : String) : Interp α := fail (.custom message)

/-- A computation on values as part of a run. -/
def lift (x : Fallible α) : Interp α :=
  match x with
  | .ok a => pure a
  | .error c => fail c

instance : MonadLift Fallible Interp := ⟨lift⟩

/-- Run, and hand a failure over as a result. Lack of fuel is no result. -/
def attempt (x : Interp α) : Interp (Except Failure α) := fun s =>
  match x s with
  | .ok a s => .ok (.ok a) s
  | .error (.failure f) s => .ok (.error f) s
  | .error .outOfFuel s => .error .outOfFuel s

/-- Run, with no result if a name could not be found. Every other failure goes on. -/
def found? (x : Interp α) : Interp (Option α) := fun s =>
  match x s with
  | .ok a s => .ok (some a) s
  | .error (.failure f) s =>
    if f.isMissing then .ok none s else .error (.failure f) s
  | .error .outOfFuel s => .error .outOfFuel s

/-- Run, and fail with a cause of one's own if a name could not be found. -/
def foundOr (x : Interp α) (c : Cause) : Interp α := do
  match ← found? x with
  | some a => return a
  | none => fail c

/-- Run, and change a failure on its way out. -/
def onFailure (f : Failure → Failure) (x : Interp α) : Interp α := fun s =>
  match x s with
  | .error (.failure e) s => .error (.failure (f e)) s
  | r => r

/-- Go on with the result of an attempt. -/
def resume : Except Failure α → Interp α
  | .ok a => pure a
  | .error f => throw (.failure f)

/-- Run in a changed context, and undo the change however the run ends. -/
def inContext (d : Detour) (x : Interp α) : Interp α := fun s =>
  match x { s with context := d.enter s.context } with
  | .ok a s' => .ok a { s' with context := d.leave s.context s'.context }
  | .error e s' => .error e { s' with context := d.leave s.context s'.context }

/-- Run with a local scope, and close it however the run ends. -/
def inScope (x : Interp α) : Interp α := fun s =>
  match x { s with scopes := s.scopes.push } with
  | .ok a s => .ok a { s with scopes := s.scopes.pop }
  | .error e s => .error e { s with scopes := s.scopes.pop }

/-- Queue an effect. -/
def emit (e : Effect) : Interp Unit := modify fun s => { s with effects := s.effects.push e }

/-- Change the bindings. -/
def updateScopes (f : Scopes → Scopes) : Interp Unit :=
  modify fun s => { s with scopes := f s.scopes }

/-- Bind a name in the innermost scope. -/
def define (name : String) (v : Value) : Interp Unit := updateScopes (·.define name v)

/-- Rebind a name. -/
def rebind (name : String) (v : Value) : Interp Unit := do
  let scopes ← lift ((← get).scopes.set name v)
  modify fun s => { s with scopes }

/-- Read a field. -/
def getField? (r : ObjectRef) (name : String) : Interp (Option Value) :=
  return (← get).heap.get? r name

/-- Write a field. -/
def setField (r : ObjectRef) (name : String) (v : Value) : Interp Unit :=
  modify fun s => { s with heap := s.heap.set r name v }

/-- A new instance without fields. -/
def newObject (className : String) : Interp ObjectRef :=
  modifyGet fun s => let (r, heap) := s.heap.alloc className; (r, { s with heap })

/-- A new array. -/
def newArrayOf (elements : List Value) : Interp Value :=
  modifyGet fun s => let (v, heap) := s.heap.allocArray elements; (v, { s with heap })

/-- A new array of texts. -/
def newTexts (texts : List String) : Interp Value := newArrayOf (texts.map .text)

/-- A computation that may use up array tags as part of a run. -/
def withTags (x : StateT Nat Fallible α) : Interp α := do
  let (a, tags) ← lift (x.run (← get).heap.tags)
  modify fun s => { s with heap := { s.heap with tags } }
  return a

end Interp

end FormBasic
