import FormBasic.CommandLine

/-!
# The program

The outer layer: it reads the files that the arguments name, and runs the program on what has been
typed so far. When the program asks for a line that is not there yet, one more is read and the
program runs again from the start. It does the same as before, so only what is new is written.
-/

namespace FormBasic.CommandLine

/-- The files that options name. -/
def Options.paths (o : Options) : List String :=
  if o.configFile == "" then o.files else o.configFile :: o.files

/-- The text of a file, or what is wrong with its path. -/
def readPath (path : String) : IO (Except String String) := do
  try
    return .ok (Text.ofBytes (← IO.FS.readBinFile path).toList)
  catch
    | .noFileOrDirectory .. => return .error (FileError.missing.message path)
    | .inappropriateType .. => return .error (FileError.throughFile.message path)
    | .permissionDenied .. => return .error ("open " ++ path ++ ": permission denied")
    | _ => return .error (FileError.isDirectory.message path)

/-- The disk with the files that options name. -/
def Disk.load (o : Options) : IO Disk := do
  let found ← o.paths.mapM fun path => return (path, ← readPath path)
  return {
    readFile := fun path => (found.lookup path).getD (.error (FileError.missing.message path))
    logFault? := fun _ => none }

/-- Run with the input so far; read more while it is asked for. `written` counts the characters of
the output that have been written. -/
partial def converse (o : Options) (disk : Disk) (input : String) (written : Nat) : IO UInt32 := do
  let outcome := o.perform Runner.full disk input
  let stdout ← IO.getStdout
  stdout.putStr (String.ofList (outcome.output.toList.drop written))
  stdout.flush
  if outcome.starved then
    let line ← (← IO.getStdin).getLine
    if line != "" then return ← converse o disk (input ++ line) outcome.output.length
  (← IO.getStderr).putStr outcome.errors
  return UInt32.ofNat outcome.exitCode

end FormBasic.CommandLine

open FormBasic FormBasic.CommandLine in
/-- The program. -/
def main (arguments : List String) : IO UInt32 := do
  match Options.read arguments with
  | .error e =>
    (← IO.getStderr).putStr (e.message ++ "\n")
    return 2
  | .ok o => converse o (← Disk.load o) "" 0
