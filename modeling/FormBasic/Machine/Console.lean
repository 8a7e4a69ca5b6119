import FormBasic.Machine.Names
import FormBasic.Value.Convert

/-!
# The console

A program that runs in a console session sends its output to the host as messages and waits for the
lines it asks for. Without a session, output is queued as effects and every line read is empty. Once
the host has gone, the next message or request of the program fails, and nothing is sent any more.
-/

namespace FormBasic

namespace Interp

/-- Stop because the host has gone. -/
def abandon : Interp α := throw (.failure .abandoned)

/-- Find that the host of a session has gone, and stop. -/
def leave (session : ConsoleSession) : Interp α := do
  modify fun s => { s with console := some { session with closed := true } }
  abandon

/-- Send a message in a session. -/
def send (session : ConsoleSession) (m : ConsoleMessage) : Interp Unit :=
  let sent := m :: session.sent
  if session.closed then abandon
  else if session.host.leaves sent then leave session
  else modify fun s => { s with console := some { session with sent } }

/-- Write a text, in the colours that are set. -/
def consoleWrite (text : String) : Interp Unit := do
  let s ← get
  match s.console with
  | some session => send session (.output text s.foreground s.background)
  | none => emit (.consoleOutput text)

/-- Clear the console. -/
def consoleClear : Interp Unit := do
  match (← get).console with
  | some session => send session .clear
  | none => emit .consoleClear

/-- Ask for a line and wait for it. If the host leaves instead, the session is closed. -/
def consoleRead : Interp String := do
  match (← get).console with
  | some session =>
    send session .inputRequest
    let sent := .inputRequest :: session.sent
    match session.host.answer sent with
    | some line => return line
    | none => leave { session with sent }
  | none => return ""

/-- Set the colours back to those of the settings. -/
def resetColors : Interp Unit :=
  modify fun s =>
    { s with foreground := s.config.foreground, background := s.config.background }

/-- The number of a colour. -/
def colorNumber (v : Value) : Interp Int := do
  let n ← v.asInteger
  if n < 0 || n > 15 then
    failWith ("Console color " ++ Decimal.intText n.toInt ++ " is out of range 0-15")
  else return n.toInt

/-- Assign to a member of a built-in facility. -/
def assignIntrinsic (owner member : String) (v : Value) : Interp Unit := do
  let key := memberKey owner member
  if key == "console.foregroundcolor" then
    let foreground ← colorNumber v
    modify fun s => { s with foreground }
  else if key == "console.backgroundcolor" then
    let background ← colorNumber v
    modify fun s => { s with background }
  else if key == "console.title" then updateScopes (·.defineMember owner member v)
  else failWith ("'" ++ owner ++ "." ++ member ++ "' cannot be assigned")

end Interp

end FormBasic
