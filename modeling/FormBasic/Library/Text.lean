import FormBasic.Error
import FormBasic.Decimal.Reader
import FormBasic.Text.Blank
import FormBasic.Text.Search

/-!
# Text functions

Positions count characters from one. Lengths and positions arrive as integers and may be anything.
-/

namespace FormBasic.Library

/-- The first characters. -/
def leftPart (cs : List Char) (n : Nat) : List Char := cs.take n

/-- The last characters. -/
def rightPart (cs : List Char) (n : Nat) : List Char := cs.drop (cs.length - n)

/-- So many characters from a position on; fewer if the text ends before. -/
def midPart (cs : List Char) (start length : Int) : List Char :=
  (cs.drop (start - 1).toNat).take length.toNat

/-- The position of the first occurrence of `t` in `s` from a position on, or zero. A start outside
`1 … length + 1` finds nothing. -/
def inStr (start : Int) (s t : List Char) : Int :=
  if start < 1 ∨ (s.length : Int) + 1 < start then 0
  else match Text.indexOf? t (s.drop (start - 1).toNat) with
    | some i => start + i
    | none => 0

/-- The number of characters before the first occurrence, or `-1`. -/
def indexIn (s t : List Char) : Int :=
  match Text.indexOf? t s with
  | some i => i
  | none => -1

/-- The pieces of a text between separators. The empty text has none, and the empty separator leaves
the text whole. -/
def splitText (s sep : List Char) : List (List Char) :=
  if s.isEmpty then []
  else if sep.isEmpty then [s]
  else Text.splitOn sep s

/-- The pieces with a separator between them. -/
def joinTexts (parts : List (List Char)) (sep : List Char) : List Char := Text.joinWith sep parts

/-- The character of a code; the codes that are no characters give the replacement character. -/
def charOf (n : Nat) : Char :=
  if 0xd800 ≤ n && n < 0xe000 then Char.ofNat 0xfffd else Char.ofNat n

/-- Trim the ASCII blanks and line breaks. -/
def isPlainBlank (c : Char) : Bool := c == ' ' || c == '\t' || c == '\r' || c == '\n'

/-- The index that a placeholder names: the digits before a colon, blanks around them aside. -/
def placeholderIndex? (spec : List Char) : Option Nat := do
  let digits := Text.trimChars Text.isBlank (Text.cut ':' spec).1
  let n ← Decimal.readInt? (minSigned 64) (maxSigned 64) digits
  if 0 ≤ n then some n.toNat else none

/-- Expand the placeholders of a format, the first `skip` characters of it left out. A doubled
opening brace stands for one, a placeholder that names no argument stays, and an opening brace that
is never closed ends the expansion. -/
def expand (args : List (List Char)) : (skip : Nat) → List Char → List Char
  | _, [] => []
  | k + 1, _ :: cs => expand args k cs
  | 0, c :: cs =>
    if c != '{' then c :: expand args 0 cs
    else if cs.head? == some '{' then '{' :: expand args 1 cs
    else match Text.cut '}' cs with
      | (_, none) => c :: cs
      | (spec, some _) =>
        match (placeholderIndex? spec).bind (args[·]?) with
        | some arg => arg ++ expand args (spec.length + 1) cs
        | none => c :: spec ++ '}' :: expand args (spec.length + 1) cs

/-- Replace pairs of closing braces by one, from the left. -/
def unpairClosing : List Char → List Char
  | '}' :: '}' :: cs => '}' :: unpairClosing cs
  | c :: cs => c :: unpairClosing cs
  | [] => []

/-- A format with its placeholders replaced by arguments. Closing braces are unpaired last, in the
arguments too. -/
def compositeFormat (format : List Char) (args : List (List Char)) : List Char :=
  unpairClosing (expand args 0 format)

end FormBasic.Library
