import FormBasic.Library.Method
import FormBasic.Machine.Console

/-!
# Built-in procedures

Functions that a program calls by name and that are not declared: those of the library, which
compute, and those that show, read, draw or tell the time. `builtin?` finds both kinds by name in
lower case.
-/

namespace FormBasic

/-- A procedure of its arguments. -/
abbrev Builtin := List Value → Interp Value

namespace Builtin

open Library

/-- The answer of a message box: its button. -/
def okButton : Value := .integer 1

/-- Show a message. -/
def msgBox : Builtin := fun args => do
  arity "MsgBox" args 1 3
  let text := (argAt args 0).toText
  if (← get).console.isSome then Interp.consoleWrite (text ++ "\n")
  else Interp.emit (.messageBox text)
  return okButton

/-- Ask for a text. A console program waits for a line; otherwise the host is told, and the answer
is the default. -/
def inputBox : Builtin := fun args => do
  arity "InputBox" args 1 5
  let prompt := textArg args 0
  let initial := textArg args 2
  if (← get).console.isSome then
    Interp.consoleWrite (prompt ++ " ")
    let line ← Interp.consoleRead
    return .text (if line == "" then initial else line)
  else
    let x ← intArg args 3 (-1)
    let y ← intArg args 4 (-1)
    Interp.emit (.inputBox { prompt, title := textArg args 1, initial, x, y })
    return .text initial

/-- The text that a console write shows: its one argument, or a format with arguments. -/
def writtenText : List Value → String
  | [] => ""
  | [v] => v.toText
  | v :: vs => String.ofList (compositeFormat v.toText.toList (vs.map fun a => a.toText.toList))

/-- Write to the console, with something at the end. -/
def write (ending : String) : Builtin := fun args => do
  Interp.consoleWrite (writtenText args ++ ending)
  return .nothing

/-- Start an application with a form: that of the settings, the given one, or the one of a name. -/
def runApplication : Builtin := fun args => do
  arity "Application.Run" args 0 1
  let s ← get
  let form := match args with
    | [] => s.config.startupForm
    | .object r :: _ => s.hostName r
    | v :: _ => v.toText
  Interp.emit (.runApplication form)
  return .nothing

/-- The next state of the random numbers. -/
def nextSeed (seed : Nat) : Nat := (seed * 6364136223846793005 + 1442695040888963407) % twoTo 64

/-- A random number from zero up to but not including one. -/
def random : Builtin := fun _ => do
  let seed := nextSeed (← get).seed
  modify fun s => { s with seed }
  return .single (Float32.ofNat (seed / twoTo 40) / 16777216)

/-- The moment that the clock shows. -/
def now : Builtin := fun _ => return .date (← get).clock.dayNumber

/-- The day that the clock shows. -/
def today : Builtin := fun _ => do
  return .date { (← get).clock with second := 0, nanosecond := 0 }.dayNumber

/-- The procedures that do more than compute, by name in lower case. -/
def effectful? : String → Option Builtin
  | "msgbox" => some msgBox
  | "inputbox" => some inputBox
  | "split" => some fun args => do Interp.newTexts (← Library.split args)
  | "rnd" => some random
  | "now" => some now
  | "today" => some today
  | "datetime.now" => some now
  | "datetime.today" => some today
  | "console.write" => some (write "")
  | "console.writeline" => some (write "\n")
  | "console.readline" => some fun _ => return .text (← Interp.consoleRead)
  | "console.clear" => some fun _ => do Interp.consoleClear; return .nothing
  | "console.resetcolor" => some fun _ => do Interp.resetColors; return .nothing
  | "application.run" => some runApplication
  | _ => none

end Builtin

/-- The built-in procedure of a name in lower case. -/
def builtin? (key : String) : Option Builtin :=
  match Library.function? key with
  | some f => some fun args => Interp.lift (f args)
  | none => Builtin.effectful? key

namespace Interp

/-- A method of a value that is no object. -/
def valueMethod (v : Value) (method : String) (args : List Value) : Interp Value :=
  match v with
  | .text s =>
    if Text.lower method == "split" then
      newTexts ((Text.splitOn (Library.splitSeparator args) s.toList).map String.ofList)
    else lift (Library.valueMethod v method args)
  | v => lift (Library.valueMethod v method args)

/-- A member of a built-in facility: a property, else a procedure without arguments. -/
def intrinsicMember (owner member : String) : Interp Value := do
  let key := memberKey owner member
  let s ← get
  if key == "console.foregroundcolor" then return .integer (Int32.ofInt s.foreground)
  else if key == "console.backgroundcolor" then return .integer (Int32.ofInt s.background)
  else if key == "environment.newline" then return .text "\r\n"
  else match builtin? key with
    | some b => b []
    | none => fail (.undefinedVariable (owner ++ "." ++ member))

end Interp

end FormBasic
