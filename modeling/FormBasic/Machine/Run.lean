import FormBasic.Machine.Statement

/-!
# Running

The steps of evaluation, execution, calls and assignments put together. Fuel bounds how deep they
are nested and how many rounds a loop makes; a run that needs more ends without a result. Programs
are run with `Runner.full`, whose fuel no run uses up in practice.
-/

namespace FormBasic

mutual
/-- Evaluate an expression with so much fuel. -/
def evalWith : (fuel : Nat) → Expr → Interp Value
  | 0, _ => Interp.outOfFuel
  | fuel + 1, e =>
    Runner.evalStep ⟨fuel, evalWith fuel, execWith fuel, invokeWith fuel, assignWith fuel⟩ e

/-- Execute a statement with so much fuel. -/
def execWith : (fuel : Nat) → Stmt → Interp Signal
  | 0, _ => Interp.outOfFuel
  | fuel + 1, s =>
    Runner.execStep ⟨fuel, evalWith fuel, execWith fuel, invokeWith fuel, assignWith fuel⟩ s

/-- Run a callable with so much fuel. -/
def invokeWith : (fuel : Nat) → Callable → Option ObjectRef → String → List Value →
    Interp (Value × List Value)
  | 0, _, _, _, _ => Interp.outOfFuel
  | fuel + 1, c, self, classContext, args =>
    Runner.invokeStep ⟨fuel, evalWith fuel, execWith fuel, invokeWith fuel, assignWith fuel⟩
      c self classContext args

/-- Assign to a name that stands for something with so much fuel. -/
def assignWith : (fuel : Nat) → String → Value → Interp Unit
  | 0, _, _ => Interp.outOfFuel
  | fuel + 1, name, v =>
    Runner.assignStep ⟨fuel, evalWith fuel, execWith fuel, invokeWith fuel, assignWith fuel⟩ name v
end

/-- The runner with so much fuel. -/
def Runner.withFuel (fuel : Nat) : Runner :=
  ⟨fuel, evalWith fuel, execWith fuel, invokeWith fuel, assignWith fuel⟩

/-- The runner that programs are run with. -/
def Runner.full : Runner := withFuel (twoTo 62)

namespace Runner

/-- Run statements outside all procedures. A signal that no block takes ends the run. -/
def runTop (run : Runner) (statements : List Stmt) : Interp Unit := do
  let _ ← run.block statements

/-- Call a procedure by name with evaluated arguments, or a built-in one if none is declared. -/
def callProcedure (run : Runner) (name : String) (args : List Value) : Interp Value := do
  match (← get).procedure? name with
  | some p => run.invokeProcedure p args
  | none =>
    match builtin? (Text.lower name) with
    | some b => b args
    | none => Interp.fail (.undefinedFunction name)

/-- The last message of a session, after its entry procedure has ended. -/
def closing (h : Heap) : Except Failure Value → Option ConsoleMessage
  | .ok _ => some .finished
  | .error .abandoned => none
  | .error f => some (.error (f.message h))

/-- What has been sent in a session, latest first, with its last message. Nothing is sent to a host
that has gone. -/
def ConsoleSession.sentWith (session : ConsoleSession) : Option ConsoleMessage →
    List ConsoleMessage
  | some m =>
    let sent := m :: session.sent
    if session.closed || session.host.leaves sent then session.sent else sent
  | none => session.sent

/-- Run an entry procedure in a console session with a host. The messages that were sent, in
order. -/
def runConsole (run : Runner) (entry : String) (host : ConsoleHost) :
    Interp (List ConsoleMessage) := do
  modify fun s => { s with console := some { host } }
  let outcome ← Interp.attempt (run.callProcedure entry [])
  let s ← get
  modify fun s => { s with console := none }
  match s.console with
  | some session => return (ConsoleSession.sentWith session (closing s.heap outcome)).reverse
  | none => return []

end Runner

end FormBasic
