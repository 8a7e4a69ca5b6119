import FormBasic.Machine.Run
import FormBasic.Palette

/-!
# Loading programs

Declarations are entered in two passes: procedures, classes and properties first, so that the values
of constants and variables, which come second, can use them. The declarations of a module stand
under keys that its name leads. A module that is imported is looked for among the files under the
root path.
-/

namespace FormBasic

/-- The value of an enumeration member: an integer if it fits, else a long. -/
def enumValue (n : Int64) : Value :=
  if n.toInt < Value.minInteger || Value.maxInteger < n.toInt then .long n
  else .integer n.toInt32

/-! ### Constants that every program sees -/

/-- The constants with texts. -/
def textConstants : List (String × String) := [
  ("vbCrLf", "\r\n"), ("vbNewLine", "\r\n"), ("vbCr", "\r"), ("vbLf", "\n"), ("vbTab", "\t"),
  ("vbNullString", "")]

/-- The constants with numbers. -/
def numberConstants : List (String × Int32) := [
  ("vbOK", 1), ("vbCancel", 2), ("vbYes", 6), ("vbNo", 7), ("vbOKOnly", 0), ("vbYesNo", 4)]

/-- The colours as constants. -/
def colorConstants : List (String × Int32) :=
  Palette.names.mapIdx fun i name => (memberKey "ConsoleColor" name, Int32.ofNat i)

/-- The scopes of a program that has not been loaded. -/
def Scopes.initial : Scopes :=
  let texts := textConstants.map fun (name, s) => (name, Value.text s)
  let numbers := (numberConstants ++ colorConstants).map fun (name, n) => (name, Value.integer n)
  (texts ++ numbers).foldl (fun scopes (name, v) => scopes.defineConst name v) {}

/-- The state before anything is loaded. -/
def State.initial (config : Config) : State where
  config := config
  scopes := Scopes.initial
  foreground := config.foreground
  background := config.background

/-! ### Declarations -/

namespace State

/-- Enter a procedure, class or property. -/
def register (s : State) (moduleName : String) : Decl → State
  | .procedure p =>
    { s with procedures := s.procedures.insert (qualify moduleName p.name) ⟨p, moduleName⟩ }
  | .classDecl d => { s with classes := s.classTable.declare d moduleName }
  | .property p => { s with properties := s.properties.insert (qualify moduleName p.name) p }
  | _ => s

/-- Enter the procedures, classes and properties of a list. -/
def registerAll (s : State) (moduleName : String) (ds : List Decl) : State :=
  ds.foldl (·.register moduleName ·) s

/-- Enter the name of a module, which is also bound to itself. -/
def addModule (s : State) (name : String) : State :=
  let key := Text.lower name
  { s with
    scopes := s.scopes.defineGlobal name (.text name)
    moduleNames :=
      if s.moduleNames.contains key then s.moduleNames
      else (key :: s.moduleNames).mergeSort fun a b => decide (a ≤ b) }

end State

namespace Runner

/-- Bind the members of an enumeration; a member without a value follows the one before. -/
def declareMembers (run : Runner) (enumName : String) : (next : Int64) → List EnumMember →
    Interp Unit
  | _, [] => return
  | next, m :: ms => do
    let n ← match m.value with
      | some e => do Interp.lift (← run.eval e).asLong
      | none => pure next
    Interp.updateScopes (·.defineConst (memberKey enumName m.name) (enumValue n))
    declareMembers run enumName (n + 1) ms

/-- Bind a module variable, unless it is bound already. -/
def declareVariable (run : Runner) (moduleName : String) (d : VariableDecl) : Interp Unit := do
  let key := qualify moduleName d.name
  if (← get).scopes.inCurrent key then return
  let v ← run.initialValue d.typeName d.bounds d.initializer
  Interp.updateScopes (·.defineGlobal key v)

mutual
/-- The second pass over a declaration. -/
def declare (run : Runner) (moduleName : String) : Decl → Interp Unit
  | .moduleDecl name ds => do
    modify (·.addModule name)
    Interp.inContext (.inModule name) do
      modify (·.registerAll name ds)
      declareAll run name ds
  | .enum name members => run.declareMembers name 0 members
  | .const name e => do
    let v ← run.eval e
    Interp.updateScopes (·.defineConst (qualify moduleName name) v)
  | .variable d => run.declareVariable moduleName d
  | _ => return

/-- The second pass over a list of declarations. -/
def declareAll (run : Runner) (moduleName : String) : List Decl → Interp Unit
  | [] => return
  | d :: ds => do
    declare run moduleName d
    declareAll run moduleName ds
end

/-- Enter the declarations of a program and run its statements. -/
def loadInto (run : Runner) (moduleName : String) (p : Program) : Interp Unit := do
  modify (·.registerAll moduleName p.declarations)
  run.declareAll moduleName p.declarations
  run.runTop p.statements

/-- Load a program as a module. -/
def loadModule (run : Runner) (moduleName : String) (p : Program) : Interp Unit := do
  modify (·.addModule moduleName)
  Interp.inContext (.inModule moduleName) (run.loadInto moduleName p)

/-- Load a program, as a module if a name is given. -/
def load (run : Runner) (moduleName : String) (p : Program) : Interp Unit :=
  if moduleName == "" then run.loadInto "" p else run.loadModule moduleName p

/-- What is loaded under a module name. -/
def loadTask (moduleName : String) : String :=
  "load " ++ if moduleName == "" then "code file" else "module " ++ moduleName

/-- Load a program that has been read, or say why it could not be. -/
def loadRead (run : Runner) (moduleName : String) (p : Except ReadError Program) :
    Interp Unit :=
  match p with
  | .ok p => run.load moduleName p
  | .error e => throw (.failure (.unreadable (loadTask moduleName) e))

/-- Load a program text in a format. -/
def loadText (run : Runner) (format moduleName text : String) : Interp Unit :=
  run.loadRead moduleName (Program.read format text)

end Runner

/-! ### Modules in files -/

/-- The parts of a dotted module name. -/
def moduleParts (name : String) : List String :=
  (Text.splitOn ['.'] name.toList).map String.ofList

/-- The endings of module files, with their formats, in the order in which they are tried. -/
def moduleEndings : List (String × String) :=
  [(".json", "json"), (".yaml", "yaml"), (".yml", "yml")]

/-- A path below a root, without an ending. -/
def pathUnder (root : String) (steps : List String) : String :=
  if root == "." then (if steps.isEmpty then "." else joinSteps steps)
  else if steps.isEmpty then root else root ++ "/" ++ joinSteps steps

/-- The file under the root to which steps lead once the last of them has an ending. Without steps
it is the root that gets the ending, and nothing is known of files beside the root. -/
def Files.readWithEnding (files : Files) (steps : List String) (ending : String) :
    Except FileError String :=
  match steps.getLast? with
  | some last => files.readSteps (steps.dropLast ++ [last ++ ending])
  | none => .error .missing

/-- The first file of a module that is there, with its format; or what was wrong with each. -/
def State.moduleFile (s : State) (name : String) : Except (List String) (String × String) :=
  let steps := (moduleParts name).flatMap pathSteps
  let path := pathUnder s.config.rootPath steps
  moduleEndings.foldr (fun (ending, format) rest =>
    match s.files.readWithEnding steps ending with
    | .ok text => .ok (format, text)
    | .error e => rest.mapError (e.message (path ++ ending) :: ·))
    (.error [])

/-- Import a module by its dotted name: its last part is the name under which it is loaded. A module
that has been read before counts as imported. -/
def Runner.importModule (run : Runner) (name : String) : Interp Unit := do
  let s ← get
  let key := Text.lower name
  if s.imported.contains key then return
  match s.moduleFile name with
  | .error faults => throw (.failure (.noModule name faults))
  | .ok (format, text) =>
    match Program.read format text with
    | .error e => throw (.failure (.unreadable ("decode module " ++ name) e))
    | .ok p =>
      modify fun s => { s with imported := key :: s.imported }
      run.loadModule ((moduleParts name).getLast?.getD "") p

end FormBasic
