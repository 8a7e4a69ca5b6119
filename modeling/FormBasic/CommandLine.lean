import FormBasic.CommandLine.Input
import FormBasic.CommandLine.Options
import FormBasic.Config.Reader
import FormBasic.Data.Connection
import FormBasic.Host.Form
import FormBasic.Host.Terminal

/-!
# The command line program

What the program does with its arguments, the files and its input, as a function: what it writes,
and the code it exits with. A console program talks with its input line by line; the text it has
held back is written as a prompt first. In form mode the events of the command line are dispatched
one after the other, and what the form then shows is written at the end.
-/

namespace FormBasic.CommandLine

/-- What a run of the program comes to. -/
structure Outcome where
  exitCode : Nat
  output : String := ""
  errors : String := ""
  /-- Whether it ended because it asked for a line that was not there. -/
  starved : Bool := false
deriving Repr, Inhabited, DecidableEq

/-- What the program finds on disk. -/
structure Disk where
  /-- The text of a file, or what is wrong with its path. -/
  readFile : String → Except String String
  /-- What is wrong with the path of a log file. -/
  logFault? : String → Option String

/-- Put something in front of the errors. -/
def Outcome.afterErrors (errors : String) (o : Outcome) : Outcome :=
  { o with errors := errors ++ o.errors }

/-! ### Version and help -/

/-- The version of the program. -/
def programVersion : String := "dev"

/-- When the program was built. -/
def buildDate : String := "unknown"

/-- What the program was built from. -/
def commit : String := "unknown"

/-- The version line. -/
def versionText : String :=
  "vybe version 'v" ++ programVersion ++ "' " ++ buildDate ++ " " ++ commit ++ "\n"

/-- The lines of the help text before the version. -/
def helpLines : List String := [
  "Usage: vybe [options] program.(json|yaml) [module.(json|yaml)...]",
  "",
  "Options:",
  "  -config <path>      TOML configuration file.",
  "  -form <name>        Run in form mode, showing the named form.",
  "  -entry <name>       Procedure run in console mode. Default is 'Main'.",
  "  -event <c.Event>    Dispatch an event after Load (form mode, repeatable).",
  "  -set <c.Prop=v>     Edit a control property before the next event (repeatable).",
  "  -conn <string>      Default connection string for BindingSource controls.",
  "  -no-color           Disable console colors.",
  "  -help               Display this help information and exit.",
  "  -version            Display version information and exit.",
  "  -log-level <level>  Set the log level: debug, info, warn, error, none.",
  "  -log-file <path>    Specify a log file to write logs. Default is stderr.",
  "",
  "Details:",
  "The first file is the code file; further files are loaded as modules named",
  "after the file. Without -form the entry procedure runs as a console program.",
  "",
  "Examples:",
  "  vybe hello.yaml                               Run Main as a console program",
  "  vybe -form Form1 -set txtName.Text=Ada \\",
  "       -event btnGreet.Click app.yaml           Click a button and print the form",
  "",
  "Version Information:"]

/-- The help text. -/
def helpText : String :=
  String.join ((helpLines ++ ["  Version:    " ++ programVersion, "  Build Date: " ++ buildDate,
    "  Commit:     " ++ commit]).map (· ++ "\n"))

/-! ### Settings and programs -/

/-- A flag that is given wins over the setting. -/
def preferred (given setting : String) : String := if given == "" then setting else given

/-- The settings of the flags over others. -/
def Options.override (o : Options) (c : Config) : Config :=
  { c with
    logLevel := preferred o.logLevel c.logLevel
    logFile := preferred o.logFile c.logFile
    startupForm := preferred o.form c.startupForm
    entryPoint := preferred o.entry c.entryPoint
    connectionString := preferred o.connection c.connectionString }

/-- The settings of a run, or the text that says why there are none. -/
def Options.config (o : Options) (disk : Disk) : Except String Config := do
  let base : Config := { version := programVersion, buildDate, commit }
  if o.configFile == "" then return o.override base
  match disk.readFile o.configFile with
  | .error fault => .error ("config " ++ o.configFile ++ ": " ++ fault)
  | .ok text =>
    let c ← (base.read text).mapError (·.message o.configFile)
    return o.override c

/-- A data service that reaches no database. -/
def offlineService : Data.Service := fun connection _ =>
  match Data.Connection.parse connection with
  | .error e => .error e.message
  | .ok c => .error ("open " ++ c.backend.driver ++ " connection: no driver")

/-- The state before anything is loaded. -/
def startState (c : Config) : State := { State.initial c with service := some offlineService }

/-- Load a file, as a module if it has a module name. -/
def loadFile (run : Runner) (disk : Disk) (moduleName path : String) (st : State) :
    Except String State :=
  match disk.readFile path with
  | .error fault => .error fault
  | .ok text =>
    let format := String.ofList ((Text.lower (ending path)).toList.drop 1)
    match run.loadText format moduleName text st with
    | .ok _ st => .ok st
    | .error (.failure f) st => .error (f.message st.heap)
    | .error .outOfFuel _ => .error ""

/-- Load the code file and the modules after it, each of which is named after its file. -/
def loadFiles (run : Runner) (disk : Disk) (files : List String) (st : State) :
    Except String State :=
  match files with
  | [] => .ok st
  | code :: modules => do
    let st ← loadFile run disk "" code st
    modules.foldlM (fun st path => loadFile run disk (stem path) path st) st

/-! ### Console programs -/

/-- Whether a prompt can be written. -/
def isPrompt (text : String) : Bool := !text.toList.any Text.isControl

/-- The host of a console program at a terminal: it answers with the lines, and leaves when there
are no more or when a prompt cannot be written. -/
def terminalHost (color : Bool) (lines : List String) : ConsoleHost where
  answer sent :=
    let shown := ({ color } : Terminal).renderAll sent.reverse
    match shown.prompts.getLast? with
    | some text => if isPrompt text then lines[shown.prompts.length - 1]? else none
    | none => none

/-- What a terminal shows, prompts included. -/
def transcript (t : Terminal) : String :=
  String.join (t.shown.reverse.map fun
    | .output text => text
    | .prompt text => if isPrompt text then text else "")

/-- Whether a session ended at a prompt for which there was no line. -/
def isStarved (t : Terminal) (lines : List String) : Bool :=
  !t.done && lines.length < t.prompts.length && t.prompts.all isPrompt

/-- Run the entry procedure as a console program. -/
def runConsole (run : Runner) (o : Options) (input : String) (st : State) : Outcome :=
  let color := !o.noColor
  let lines := inputLines input
  match run.runConsole st.config.entryPoint (terminalHost color lines) st with
  | .ok messages _ =>
    let t := ({ color } : Terminal).renderAll messages
    { exitCode := if t.failure == "" then 0 else 1
      output := transcript t
      errors := t.errors
      starved := isStarved t lines }
  | .error _ _ => { exitCode := 1 }

/-! ### Forms -/

/-- What is written of an effect while a form runs. -/
def effectText : Effect → String
  | .messageBox text => "[MsgBox] " ++ text ++ "\n"
  | .consoleOutput text => text
  | .formShowDialog form => "[ShowDialog] " ++ form ++ "\n"
  | _ => ""

/-- What a form shows at the end. -/
def viewText (v : FormView) : String :=
  let number := Decimal.intText
  let properties := v.controls.sorted.flatMap fun (control, ps) =>
    ps.sorted.map fun (property, value) =>
      "  " ++ control ++ "." ++ property ++ " = " ++ value.toText ++ "\n"
  let grids := v.grids.sorted.map fun (name, g) =>
    "  grid " ++ name ++ ": " ++ number g.columns.length ++ " columns, " ++
      number g.rows.length ++ " rows\n"
  let bindings := v.bindings.sorted.map fun (name, b) =>
    "  binding " ++ name ++ ": " ++ number (b.position + 1) ++ " of " ++ number b.count ++ "\n"
  "form " ++ v.form ++ (if v.closed then " (closed)" else "") ++ "\n" ++
    String.join (properties ++ grids ++ bindings)

/-- A form that runs: its host, and what has been written. -/
structure FormRun where
  host : FormHost
  written : String := ""

/-- Why a form stopped early: what has been written, and the text of the fault. -/
structure FormFault where
  written : String
  fault : String

/-- The text of what ended an event. -/
def dispatchFault (h : Heap) : DispatchError → String
  | .reentrant => "Error: " ++ FormHost.reentrantMessage
  | .halted (.failure f) => f.trace h
  | .halted .outOfFuel => ""

/-- Write the effects as they are applied. -/
def observer (e : Effect) (h : FormHost) : String × FormHost := (effectText e, h)

/-- Go on after an event, unless it failed. -/
def FormRun.after (r : FormRun) : Dispatched String × FormHost → Except FormFault FormRun
  | (d, host) =>
    let written := r.written ++ String.join d.observed
    match d.error with
    | none => .ok { host, written }
    | some e => .error { written, fault := dispatchFault host.program.heap e }

/-- Make an edit of the command line: a control and a property with a dot between, and a text after
an equals sign. -/
def FormRun.edit (r : FormRun) (edit : String) : Except FormFault FormRun :=
  let (target, value) := Text.cut '=' edit.toList
  match Text.cut '.' target with
  | (control, some property) =>
    let text := String.ofList (value.getD [])
    .ok { r with
      host := r.host.edit (String.ofList control) (String.ofList property) (.text text) }
  | (_, none) => .error { written := r.written, fault := "Error: bad -set " ++ Text.quote edit }

/-- Dispatch an event of the command line: a control and an event with a dot between. -/
def FormRun.event (run : Runner) (r : FormRun) (event : String) : Except FormFault FormRun :=
  match Text.cut '.' event.toList with
  | (control, some name) =>
    r.after (r.host.dispatch run observer (String.ofList control) (String.ofList name) [])
  | (_, none) =>
    .error {
      written := r.written
      fault := "Error: bad -event " ++ Text.quote event ++ ": expected control.Event" }

/-- Dispatch events until the form is closed. -/
def FormRun.events (run : Runner) (r : FormRun) : List String → Except FormFault FormRun
  | [] => .ok r
  | event :: rest => do
    let r ← r.event run event
    if r.host.view.closed then return r else events run r rest

/-- Load the form, then make the edits and dispatch the events. Without an event there are no
edits. -/
def FormRun.whole (run : Runner) (o : Options) (host : FormHost) : Except FormFault FormRun := do
  let r ← FormRun.after { host } (host.start run observer)
  if o.events.isEmpty then return r
  let r ← o.edits.foldlM FormRun.edit r
  r.events run o.events

/-- Run a form and write what it shows. -/
def runForm (run : Runner) (o : Options) (st : State) : Outcome :=
  match FormHost.create run st.config.startupForm st with
  | .error (.failure f, st) => { exitCode := 1, errors := f.trace st.heap ++ "\n" }
  | .error (.outOfFuel, _) => { exitCode := 1 }
  | .ok host =>
    match FormRun.whole run o host with
    | .ok r => { exitCode := 0, output := r.written ++ viewText r.host.view }
    | .error e => { exitCode := 1, output := e.written, errors := e.fault ++ "\n" }

/-! ### The whole program -/

/-- The text that says that a log file cannot be used. -/
def logNotice (disk : Disk) (path : String) : String :=
  if path == "" then ""
  else match disk.logFault? path with
    | some fault => fault ++ "; falling back to stderr\n"
    | none => ""

/-- Load the programs and run them with their settings. -/
def runWith (run : Runner) (o : Options) (disk : Disk) (input : String) (c : Config) :
    Outcome :=
  Outcome.afterErrors (logNotice disk c.logFile) <|
    match loadFiles run disk o.files (startState c) with
    | .error fault => { exitCode := 1, errors := fault ++ "\n" }
    | .ok st => if c.startupForm == "" then runConsole run o input st else runForm run o st

/-- What the program does with options. -/
def Options.perform (run : Runner) (o : Options) (disk : Disk) (input : String) : Outcome :=
  if o.version then { exitCode := 0, output := versionText }
  else if o.help || o.files.isEmpty then { exitCode := 0, output := helpText }
  else match o.config disk with
    | .error fault => { exitCode := 2, errors := fault ++ "\n" }
    | .ok c => runWith run o disk input c

/-- What the program does. -/
def perform (run : Runner) (arguments : List String) (disk : Disk) (input : String) :
    Outcome :=
  match Options.read arguments with
  | .error e => { exitCode := 2, errors := e.message ++ "\n" }
  | .ok o => o.perform run disk input

/-! ### Disks that are known -/

/-- What is wrong with the path of a log file, the directories on its way being made if need be. -/
def logFaultIn (files : Files) (path : String) : Option String :=
  let steps := directorySteps path
  let leads := (List.range (steps.length + 1)).map fun n => joinSteps (steps.take n)
  let last := (pathParts path).getLast?.getD ""
  let isDirectory := ["", ".", ".."].contains last || files.isDirectory (steps ++ [last])
  if Text.startsWith ['/'] path.toList then none
  else match leads.find? files.contains with
    | some lead => some ("failed to create log directory for '" ++ path ++ "': mkdir " ++ lead ++
        ": not a directory")
    | none =>
      if isDirectory then
        some ("failed to open log file '" ++ path ++ "': open " ++ path ++ ": is a directory")
      else none

/-- The disk that holds certain files only. -/
def Disk.ofFiles (files : Files) : Disk where
  readFile path := (files.read path).mapError (·.message path)
  logFault? := logFaultIn files

end FormBasic.CommandLine
