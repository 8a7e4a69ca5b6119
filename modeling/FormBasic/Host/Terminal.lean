import FormBasic.Machine.State
import FormBasic.Palette

/-!
# The terminal

How a console session shows on a terminal. Text after the last line break is held back, because it
becomes the prompt if the program asks for a line next. Everything that the terminal shows is a fold
of the messages of the session.
-/

namespace FormBasic

/-- Text with its colours. -/
structure Segment where
  text : String
  foreground : Int
  background : Int
deriving Repr, DecidableEq

/-- What has been shown, in time order. -/
inductive Shown where
  /-- Written to the terminal. -/
  | output (text : String)
  /-- Given to the line reader as its prompt. -/
  | prompt (text : String)
deriving Repr, DecidableEq

/-- The state of a terminal. -/
structure Terminal where
  color : Bool
  /-- What has been shown, latest first. -/
  shown : List Shown := []
  /-- Text held back, in order. -/
  held : List Segment := []
  errors : String := ""
  done : Bool := false
  failure : String := ""

namespace Terminal

/-- Write text in colours, if the terminal has any. -/
def write (t : Terminal) (s : Segment) : Terminal :=
  let text := if t.color then Palette.paint s.text s.foreground s.background else s.text
  { t with shown := .output text :: t.shown }

/-- Write the text that was held back. -/
def flush (t : Terminal) : Terminal := t.held.foldl write { t with held := [] }

/-- The part of a text up to its last line break, and the part after it. -/
def splitLines (text : String) : Option String × String :=
  match Text.lastIndexOf? ['\n'] text.toList with
  | some i =>
    (some (String.ofList (text.toList.take (i + 1))), String.ofList (text.toList.drop (i + 1)))
  | none => (none, text)

/-- Show text of the program. -/
def showText (t : Terminal) (s : Segment) : Terminal :=
  match splitLines s.text with
  | (none, _) => { t with held := t.held ++ [s] }
  | (some lines, rest) =>
    let t := t.flush.write { s with text := lines }
    if rest == "" then t else { t with held := t.held ++ [{ s with text := rest }] }

/-- Clear the terminal; text held back is dropped. -/
def clear (t : Terminal) : Terminal :=
  { t with
    held := []
    shown := if t.color then .output Palette.clear :: t.shown else t.shown }

/-- Hand the text held back to the line reader. -/
def requestInput (t : Terminal) : Terminal :=
  { t with
    held := []
    shown := .prompt (String.join (t.held.map (·.text))) :: t.shown }

/-- The program has ended. -/
def finish (t : Terminal) : Terminal := { t.flush with done := true }

/-- The program has failed. -/
def fail (t : Terminal) (message : String) : Terminal :=
  { t.finish with
    failure := message
    errors := t.errors ++ "runtime error: " ++ message ++ "\n" }

/-- Show a message of the session. Only the first message that ends the session counts as its
end. -/
def render (t : Terminal) : ConsoleMessage → Terminal
  | .output text foreground background => t.showText { text, foreground, background }
  | .clear => t.clear
  | .inputRequest => t.requestInput
  | .finished => if t.done then t else t.finish
  | .error message => if t.done then t else t.fail message

/-- Show messages in order. -/
def renderAll (t : Terminal) (messages : List ConsoleMessage) : Terminal := messages.foldl render t

/-- What was written to the terminal, prompts apart. -/
def written (t : Terminal) : String :=
  String.join (t.shown.reverse.map fun
    | .output text => text
    | .prompt _ => "")

/-- The prompts that were given to the line reader. -/
def prompts (t : Terminal) : List String :=
  t.shown.reverse.filterMap fun
    | .output _ => none
    | .prompt text => some text

end Terminal

/-- The text that says that a session ended without a result. -/
def abandonedMessage : String := "host: console session ended without a result"

end FormBasic
