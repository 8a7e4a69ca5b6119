import FormBasic.Decimal.Notation

/-!
# Places in a source text

Byte offsets, lines and columns, and the excerpt that points at a place. Lines and columns count
from one.
-/

namespace FormBasic.Source

/-- Line and column of a place. -/
structure Place where
  line : Nat := 1
  column : Nat := 1
deriving Repr, DecidableEq

/-- The place after one more character. -/
def Place.after (p : Place) (c : Char) : Place :=
  if c == '\n' then ⟨p.line + 1, 1⟩ else ⟨p.line, p.column + 1⟩

/-- Advance over the characters that start before an offset; `index` is the byte index of the
first character. -/
def placeFrom (offset : Int) : Place → (index : Nat) → List Char → Place
  | p, _, [] => p
  | p, index, c :: cs =>
    if offset ≤ index then p else placeFrom offset (p.after c) (index + c.utf8Size) cs

/-- The place of a byte offset. Offsets outside the text count as its ends. -/
def placeAt (text : String) (offset : Int) : Place := placeFrom offset {} 0 text.toList

/-- The lines of a text, without the carriage returns at their ends. -/
def lines (text : String) : List (List Char) :=
  (text.toList.splitOn '\n').map fun l => (l.reverse.dropWhile (· == '\r')).reverse

/-- A line number in three places. -/
def lineNumber (n : Nat) : List Char :=
  let ds := Decimal.digitChars n
  List.replicate (3 - ds.length) ' ' ++ ds

/-- Blanks as wide as a text, with its tabs kept. -/
def blanked (cs : List Char) : List Char := cs.map fun c => if c == '\t' then '\t' else ' '

/-- Blanks under the first `bytes` bytes of a line; each byte of a character that is cut counts as
one. -/
def blankedBytes : (bytes : Nat) → List Char → List Char
  | _, [] => []
  | bytes, c :: cs =>
    if c.utf8Size ≤ bytes then
      (if c == '\t' then '\t' else ' ') :: blankedBytes (bytes - c.utf8Size) cs
    else List.replicate bytes ' '

/-- The margin of the line that is pointed at. -/
def margin (n : Nat) : List Char := "  >  ".toList ++ lineNumber n ++ " | ".toList

/-- The line that is pointed at and the caret under it. -/
def markedLine (n : Nat) (column : Int) (content : List Char) : List Char :=
  margin n ++ content ++ '\n' ::
    (blanked (margin n) ++ blankedBytes (column - 1).toNat content ++ ['^'])

/-- A line of the context before it. -/
def contextLine (n : Nat) (content : List Char) : List Char :=
  "     ".toList ++ lineNumber n ++ " | ".toList ++ content ++ ['\n']

/-- Up to two lines before a line, the line itself and a caret under a column. A line outside the
text has no excerpt. -/
def excerpt (text : String) (line column : Int) : String :=
  let ls := lines text
  if line < 1 ∨ ls.length < line then ""
  else
    let n := line.toNat
    let before := (List.range (n - 1)).drop (n - 3)
    String.ofList <|
      (before.flatMap fun i => contextLine (i + 1) (ls.getD i [])) ++
        markedLine n column (ls.getD (n - 1) [])

end FormBasic.Source
