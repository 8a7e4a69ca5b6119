import FormBasic.Decimal.Notation
import FormBasic.Text.Search

/-!
# The sixteen console colours

Their names, the codes by which a terminal knows them, and coloured text.
-/

namespace FormBasic.Palette

/-- The names of the colours, by number. -/
def names : List String := [
  "Black", "DarkBlue", "DarkGreen", "DarkCyan", "DarkRed", "DarkMagenta", "DarkYellow", "Gray",
  "DarkGray", "Blue", "Green", "Cyan", "Red", "Magenta", "Yellow", "White"]

/-- The codes that set the colours as foreground, by number. Those for the background are greater
by ten. -/
def codes : List Nat := [30, 34, 32, 36, 31, 35, 33, 37, 90, 94, 92, 96, 91, 95, 93, 97]

/-- The name of a colour, empty for what is no colour. -/
def name (n : Int) : String := if n < 0 then "" else names.getD n.toNat ""

/-- The code of a colour as foreground. -/
def code? (n : Int) : Option Nat := if n < 0 then none else codes[n.toNat]?

/-- The sequence that sets two colours. -/
def start (foreground background : Nat) : List Char :=
  ("\x1b[" ++ Decimal.intText foreground ++ ";" ++ Decimal.intText (background + 10) ++ "m").toList

/-- The sequence that gives up all colours. -/
def reset : List Char := "\x1b[0m".toList

/-- The sequence that clears a terminal. -/
def clear : String := "\x1b[2J\x1b[H"

/-- A line in colours; an empty line needs none. -/
def paintLine (lead line : List Char) : List Char :=
  if line.isEmpty then [] else lead ++ line ++ reset

/-- A text in colours. The colours are given up before every line break, so that a background ends
with its line. What is no colour leaves the text as it is. -/
def paint (text : String) (foreground background : Int) : String :=
  match code? foreground, code? background with
  | some f, some b =>
    String.ofList (Text.joinWith ['\n']
      ((Text.splitOn ['\n'] text.toList).map (paintLine (start f b))))
  | _, _ => text

end FormBasic.Palette
