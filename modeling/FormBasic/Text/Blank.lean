/-!
# Blanks

The 25 characters with the White_Space property, and trimming by them.
-/

namespace FormBasic.Text

/-- White space: the tab to carriage return run, the blank, the two next-line and no-break
characters of the upper half of Latin-1, and the spaces and separators beyond. -/
def isBlank (c : Char) : Bool :=
  let n := c.toNat
  (9 ≤ n && n ≤ 13) || n == 0x20 || n == 0x85 || n == 0xa0 || n == 0x1680 ||
    (0x2000 ≤ n && n ≤ 0x200a) || n == 0x2028 || n == 0x2029 || n == 0x202f || n == 0x205f ||
    n == 0x3000

/-- Drop from the end of a list while a test holds. -/
def dropEndWhile (p : Char → Bool) (cs : List Char) : List Char :=
  (cs.reverse.dropWhile p).reverse

/-- Drop from both ends while a test holds. -/
def trimChars (p : Char → Bool) (cs : List Char) : List Char :=
  dropEndWhile p (cs.dropWhile p)

/-- Remove the blanks at the start. -/
def trimStart (s : String) : String := String.ofList (s.toList.dropWhile isBlank)

/-- Remove the blanks at both ends. -/
def trim (s : String) : String := String.ofList (trimChars isBlank s.toList)

end FormBasic.Text
