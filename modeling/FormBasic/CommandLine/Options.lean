import FormBasic.Table
import FormBasic.Text.Quoted
import FormBasic.Text.Search

/-!
# Command line options

A flag starts with one dash or two. The value of a flag stands after an equals sign or is the next
argument; a flag that is on or off needs none. Flags end at the first argument that is none, or
after two dashes alone; what is left are the files. The first fault ends the reading.
-/

namespace FormBasic.CommandLine

/-- What a command line asks for. -/
structure Options where
  help : Bool := false
  version : Bool := false
  noColor : Bool := false
  configFile : String := ""
  form : String := ""
  entry : String := ""
  connection : String := ""
  logLevel : String := ""
  logFile : String := ""
  /-- Events to dispatch, in order. -/
  events : List String := []
  /-- Edits before the first event, in order. -/
  edits : List String := []
  /-- The program and its modules. -/
  files : List String := []
deriving Repr, DecidableEq

/-- What is wrong with a command line. -/
inductive UsageError where
  | malformedFlag (argument : String)
  | unknownFlag (name : String)
  | missingValue (name : String)
  | badSwitch (value name : String)
  /-- An edit without an equals sign. -/
  | badEdit (value : String)
deriving Repr, DecidableEq

/-- The text of a usage error. -/
def UsageError.message : UsageError → String
  | .malformedFlag argument => "bad flag syntax: " ++ argument
  | .unknownFlag name => "flag provided but not defined: -" ++ name
  | .missingValue name => "flag needs an argument: -" ++ name
  | .badSwitch value name =>
    "invalid boolean value " ++ Text.quote value ++ " for -" ++ name ++ ": parse error"
  | .badEdit value =>
    "invalid value " ++ Text.quote value ++ " for flag -set: expected control.Property=value"

/-- What a flag does. -/
inductive Flag where
  /-- A flag that is on or off. -/
  | switch (set : Bool → Options → Options)
  /-- A flag that takes a value. -/
  | setting (set : String → Options → Except UsageError Options)

/-- A flag that takes any value. -/
def Flag.text (set : String → Options → Options) : Flag := .setting fun s o => .ok (set s o)

/-- Add an edit, which has an equals sign. -/
def addEdit (s : String) (o : Options) : Except UsageError Options :=
  if s.toList.contains '=' then .ok { o with edits := o.edits ++ [s] } else .error (.badEdit s)

/-- The flags by name. -/
def flags : Table Flag := ⟨[
  ("help", .switch fun b o => { o with help := b }),
  ("h", .switch fun b o => { o with help := b }),
  ("version", .switch fun b o => { o with version := b }),
  ("v", .switch fun b o => { o with version := b }),
  ("no-color", .switch fun b o => { o with noColor := b }),
  ("config", .text fun s o => { o with configFile := s }),
  ("form", .text fun s o => { o with form := s }),
  ("entry", .text fun s o => { o with entry := s }),
  ("conn", .text fun s o => { o with connection := s }),
  ("event", .text fun s o => { o with events := o.events ++ [s] }),
  ("set", .setting addEdit),
  ("log-level", .text fun s o => { o with logLevel := s }),
  ("log-file", .text fun s o => { o with logFile := s })]⟩

/-- The words for on and off. -/
def switchWord? (s : String) : Option Bool :=
  if ["1", "t", "T", "true", "TRUE", "True"].contains s then some true
  else if ["0", "f", "F", "false", "FALSE", "False"].contains s then some false
  else none

/-- How an argument reads. -/
inductive Argument where
  | plain
  | endOfFlags
  | malformed
  | flag (name : String) (value : Option String)

/-- Read what follows the dashes of a flag. The name is not empty. -/
def Argument.ofName : List Char → Argument
  | [] => .malformed
  | c :: cs =>
    if c == '-' || c == '=' then .malformed
    else
      let (name, value) := Text.cut '=' cs
      .flag (String.ofList (c :: name)) (value.map String.ofList)

/-- Read an argument. A dash alone is no flag. -/
def Argument.read (s : String) : Argument :=
  match s.toList with
  | ['-', '-'] => .endOfFlags
  | '-' :: '-' :: cs => .ofName cs
  | '-' :: c :: cs => .ofName (c :: cs)
  | _ => .plain

/-- Read the arguments after those that have been read. -/
def Options.readFrom (o : Options) : List String → Except UsageError Options
  | [] => .ok o
  | argument :: rest =>
    match Argument.read argument with
    | .plain => .ok { o with files := argument :: rest }
    | .endOfFlags => .ok { o with files := rest }
    | .malformed => .error (.malformedFlag argument)
    | .flag name value =>
      match flags.find? name, value, rest with
      | none, _, _ => .error (.unknownFlag name)
      | some (.switch set), none, rest => readFrom (set true o) rest
      | some (.switch set), some s, rest =>
        match switchWord? s with
        | some b => readFrom (set b o) rest
        | none => .error (.badSwitch s name)
      | some (.setting set), some s, rest =>
        match set s o with
        | .ok o => readFrom o rest
        | .error e => .error e
      | some (.setting set), none, s :: rest =>
        match set s o with
        | .ok o => readFrom o rest
        | .error e => .error e
      | some (.setting _), none, [] => .error (.missingValue name)

/-- Read a command line. -/
def Options.read (arguments : List String) : Except UsageError Options :=
  Options.readFrom {} arguments

end FormBasic.CommandLine
