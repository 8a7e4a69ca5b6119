import FormBasic.Table
import FormBasic.Text.Search

/-!
# Files

Files below one directory, known by their paths from there. There is no directory without a file in
it. A path is followed step by step, and the first step that leads nowhere decides what is wrong
with it.
-/

namespace FormBasic

/-- The texts of files by path. -/
abbrev Files := Table String

/-- Why a file cannot be read. -/
inductive FileError where
  | missing
  | isDirectory
  /-- A step before the last is a file. -/
  | throughFile
  /-- A step is longer than the name of a file can be. -/
  | longName
  /-- The path holds the character that ends a path. -/
  | invalid
deriving Repr, DecidableEq

/-- The text of a file error, with the path as it was given. -/
def FileError.message (path : String) : FileError → String
  | .missing => "open " ++ path ++ ": no such file or directory"
  | .isDirectory => "read " ++ path ++ ": is a directory"
  | .throughFile => "open " ++ path ++ ": not a directory"
  | .longName => "open " ++ path ++ ": file name too long"
  | .invalid => "open " ++ path ++ ": invalid argument"

/-- The parts of a path between its slashes. -/
def pathParts (path : String) : List String :=
  (Text.splitOn ['/'] path.toList).map String.ofList

/-- The steps of a path, empty ones left out. -/
def pathSteps (path : String) : List String := (pathParts path).filter (· != "")

/-- The path of steps. -/
def joinSteps (steps : List String) : String := String.intercalate "/" steps

namespace Files

/-- Whether steps lead to a directory. -/
def isDirectory (files : Files) (steps : List String) : Bool :=
  files.names.any fun name => Text.startsWith (joinSteps steps ++ "/").toList name.toList

/-- The greatest length of a step in bytes. -/
def maxName : Nat := 255

/-- Follow steps from a directory to a file. An empty step stays where it is. -/
def follow (files : Files) : (directory : List String) → List String → Except FileError String
  | _, [] => .error .isDirectory
  | directory, step :: steps =>
    if step == "" || step == "." then follow files directory steps
    else if step == ".." then
      if directory.isEmpty then .error .missing else follow files directory.dropLast steps
    else if maxName < step.utf8ByteSize then .error .longName
    else
      let here := directory ++ [step]
      match files.find? (joinSteps here) with
      | some text => if steps.isEmpty then .ok text else .error .throughFile
      | none => if files.isDirectory here then follow files here steps else .error .missing

/-- The text of the file to which steps lead. A step with the character that ends a path leads
nowhere, wherever it stands. -/
def readSteps (files : Files) (steps : List String) : Except FileError String :=
  if steps.any fun step => step.toList.contains '\x00' then .error .invalid
  else files.follow [] steps

/-- The text of the file at a path. Nothing is known of files elsewhere. -/
def read (files : Files) (path : String) : Except FileError String :=
  if path == "" || Text.startsWith ['/'] path.toList then .error .missing
  else files.readSteps (pathParts path)

end Files

/-! ### Parts of paths -/

/-- The last part of a path. -/
def baseName (path : String) : String :=
  if path == "" then "." else (pathSteps path).getLast?.getD "/"

/-- The ending of a path from the last dot of its last part on. -/
def ending (path : String) : String :=
  let last := ((pathParts path).getLast?.getD "").toList
  match Text.lastIndexOf? ['.'] last with
  | some i => String.ofList (last.drop i)
  | none => ""

/-- The last part of a path without its ending. -/
def stem (path : String) : String :=
  let base := (baseName path).toList
  let e := (ending path).toList
  String.ofList (if Text.endsWith e base then base.take (base.length - e.length) else base)

/-- Add a step to a path in shortest form, its steps in reverse. -/
def shortenStep (reversed : List String) (step : String) : List String :=
  if step == "" || step == "." then reversed
  else if step == ".." then
    match reversed with
    | last :: rest => if last == ".." then step :: reversed else rest
    | [] => [step]
  else step :: reversed

/-- The steps to the directory of a path, in shortest form. -/
def directorySteps (path : String) : List String :=
  ((pathParts path).dropLast.foldl shortenStep []).reverse

end FormBasic
