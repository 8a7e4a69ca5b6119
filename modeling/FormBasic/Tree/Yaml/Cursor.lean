import FormBasic.Decimal.Reader
import FormBasic.Tree

/-!
# Reading through a YAML text

A `Cursor` is a place in a text. It sees the text through a window, which takes in a block of
characters at a time and is moved up to the cursor whenever it holds too few for the next decision.
The window shows in two ways. A character that is not allowed does no harm until its block is taken
in. And as long as the window begins with a byte order mark, what stands between two tokens loses
the first character of every line, whatever it is; a mark elsewhere is a character like any other.

Of the line breaks, carriage return with line feed is kept as a single carriage return once a text
has been through `joinBreaks`, and a carriage return alone as a line feed.
-/

namespace FormBasic.Tree.Yaml

/-! ### Characters -/

/-- Blanks within a line. -/
def isGap (c : Char) : Bool := c == ' ' || c == '\t'

/-- The line breaks outside of ASCII: next line, line separator and paragraph separator. -/
def isWideBreak (c : Char) : Bool := c.toNat == 0x85 || c.toNat == 0x2028 || c.toNat == 0x2029

/-- Line breaks. -/
def isBreak (c : Char) : Bool := c == '\n' || c == '\r' || isWideBreak c

/-- What a line break means in a text: a line feed, but for the two separators. -/
def breakMeaning (c : Char) : Char := if c == '\r' || c.toNat == 0x85 then '\n' else c

/-- The characters that a text may hold. -/
def isAllowed (c : Char) : Bool :=
  let n := c.toNat
  n == 9 || n == 10 || n == 13 || (0x20 ≤ n && n ≤ 0x7e) || n == 0x85 ||
    (0xa0 ≤ n && n ≤ 0xfffd) || 0x10000 ≤ n

/-- The character that may open a text. -/
def byteOrderMark : Char := Char.ofNat 0xfeff

/-- Write carriage return and line feed as one carriage return, and a carriage return alone as a
line feed. -/
def joinBreaks : List Char → List Char
  | [] => []
  | '\r' :: '\n' :: cs => '\r' :: joinBreaks cs
  | c :: cs => (if c == '\r' then '\n' else c) :: joinBreaks cs

/-- Whether a blank, a line break or the end comes next. -/
def atGap : List Char → Bool
  | [] => true
  | c :: _ => isGap c || isBreak c

/-- Whether a document mark comes next, the line having just begun. -/
def atDocumentMark : List Char → Bool
  | '-' :: '-' :: '-' :: cs => atGap cs
  | '.' :: '.' :: '.' :: cs => atGap cs
  | _ => false

/-! ### Blocks -/

/-- How many characters a character counts for, the breaks being joined. -/
def charCount (c : Char) : Nat := if c == '\r' then 2 else 1

/-- How many characters there are. -/
def charCounts : List Char → Nat
  | [] => 0
  | c :: cs => charCount c + charCounts cs

/-- How many bytes a character takes. -/
def byteCount (c : Char) : Nat := if c == '\r' then 2 else c.utf8Size

/-- The number of bytes in a block. -/
def blockSize : Nat := 512

/-- The characters that fit into so many bytes. -/
def fitting : (room : Nat) → List Char → List Char
  | _, [] => []
  | room, c :: cs => if byteCount c ≤ room then c :: fitting (room - byteCount c) cs else []

/-- The text after so many characters. -/
def dropCount : Nat → List Char → List Char
  | 0, cs => cs
  | _, [] => []
  | n, c :: cs => dropCount (n - charCount c) cs

/-- How many characters are held when blocks are added until there are `wanted`. At the end of the
text there is one place to add, which counts as a character. Every block adds a character, so
`wanted` is fuel enough. -/
def fill? (wanted : Nat) : (fuel : Nat) → (held : Nat) → (later : List Char) → Option Nat
  | 0, held, _ => some held
  | fuel + 1, held, later =>
    if wanted ≤ held then some held
    else if later.isEmpty then some (held + 1)
    else
      let block := fitting blockSize later
      if block.all isAllowed then
        fill? wanted fuel (held + charCounts block) (later.drop block.length)
      else none

/-! ### The cursor -/

/-- A place in a text, with the window through which it is seen. -/
structure Cursor where
  /-- The text still to read. -/
  rest : List Char
  /-- How many characters the window holds from here on. -/
  held : Nat
  /-- Whether the window begins with a byte order mark. -/
  marked : Bool
  index : Nat := 0
  line : Nat := 0
  column : Nat := 0
  /-- Whether nothing but blanks has come since the last line break. -/
  fresh : Bool := false

namespace Cursor

/-- The start of a text. A byte order mark that opens it is left out, but counts in its block. -/
def ofText? (cs : List Char) : Option Cursor :=
  let opened := cs.head? == some byteOrderMark
  let rest := joinBreaks (if opened then cs.drop 1 else cs)
  let block := fitting (if opened then blockSize - byteOrderMark.utf8Size else blockSize) rest
  if block.all isAllowed then
    some ⟨rest, max 1 (charCounts block), rest.head? == some byteOrderMark, 0, 0, 0, false⟩
  else none

/-- Make sure that the window holds so many characters. -/
def hold? (cur : Cursor) (wanted : Nat) : Option Cursor :=
  if wanted ≤ cur.held then some cur
  else do
    let held ← fill? wanted wanted cur.held (dropCount cur.held cur.rest)
    return { cur with held, marked := cur.rest.head? == some byteOrderMark }

/-- Make sure that the window holds one character, then two, and so on up to so many. -/
def holdUpTo? (cur : Cursor) (wanted : Nat) : Option Cursor :=
  (List.range wanted).foldlM (fun cur n => cur.hold? (n + 1)) cur

/-- Move over one character as if it stood within a line. -/
def skip (cur : Cursor) : Cursor :=
  let (rest, gap) := match cur.rest with
    | [] => ([], false)
    | c :: cs => (if c == '\r' then '\n' :: cs else cs, isGap c)
  { cur with
    rest
    held := cur.held - 1
    index := cur.index + 1
    column := cur.column + 1
    fresh := cur.fresh && gap }

/-- Move over one character or line break. -/
def next (cur : Cursor) : Cursor :=
  match cur.rest with
  | [] => cur
  | c :: cs =>
    if isBreak c then
      { cur with
        rest := cs
        held := cur.held - charCount c
        index := cur.index + charCount c
        line := cur.line + 1
        column := 0
        fresh := true }
    else cur.skip

/-- Move over a blank or a line break. -/
def nextGap? (cur : Cursor) (c : Char) : Option Cursor := do
  let cur ← if isBreak c then cur.hold? 2 else some cur
  cur.next.hold? 1

/-- Move to the end of the line; the list is the text still to read. -/
def toBreak? : List Char → Cursor → Option Cursor
  | [], cur => cur.hold? 1
  | c :: cs, cur => do
    let cur ← cur.hold? 1
    if isBreak c then return cur else toBreak? cs cur.skip

/-- How far ahead comments are looked for. -/
def commentReach : Nat := 512

/-- Move over blanks and the comment after them, if there is one on this line. -/
def skipComment? (cur : Cursor) : Option Cursor :=
  if cur.fresh then some cur
  else do
    let blanks := (cur.rest.takeWhile isGap).length
    let cur ← cur.holdUpTo? (min (blanks + 1) commentReach)
    if blanks < commentReach && cur.rest[blanks]? == some '#' then toBreak? cur.rest cur
    else return cur

end Cursor

/-! ### Between tokens -/

/-- How many characters have to be seen to know whether a comment follows after blanks and line
breaks, and whether one does. Line breaks outside of ASCII are not looked past. -/
def commentAhead : (seen : Nat) → List Char → Nat × Bool
  | seen, [] => (min (seen + 1) Cursor.commentReach, false)
  | seen, c :: cs =>
    if Cursor.commentReach ≤ seen then (Cursor.commentReach, false)
    else if isWideBreak c then (min (seen + 2) Cursor.commentReach, false)
    else if isGap c || isBreak c then commentAhead (seen + charCount c) cs
    else (seen + 1, c == '#')

/-- `commentAhead` from the line break on that ends a comment, or from the end of the text. -/
def commentAfter : List Char → Nat × Bool
  | [] => (2, false)
  | c :: cs => if isWideBreak c then (2, false) else commentAhead (charCount c) cs

/-- What is being passed over between two tokens. -/
inductive Between where
  /-- A line, or what follows a token, begins. -/
  | start
  | blanks
  | comment
  /-- The way from one comment to the next. -/
  | toComment
deriving DecidableEq

/-- Pass over what stands between tokens; also tells whether a key may begin after it. In a block a
tab does not indent, so one is passed over only where no key may begin or when it leads from one
comment to the next, and a line break lets a key begin. -/
def skipBetween? (inFlow : Bool) : List Char → Cursor → (keyAllowed : Bool) → Between →
    Option (Cursor × Bool)
  | [], cur, keyAllowed, between => do
    let cur ← cur.hold? 1
    let cur ← if between = .start && cur.column == 0 && cur.marked then cur.skip.hold? 1
      else if between = .comment then cur.holdUpTo? (commentAfter []).1
      else some cur
    return (cur, keyAllowed)
  | c :: cs, cur, keyAllowed, between => do
    let cur ← cur.hold? 1
    if between = .start && cur.column == 0 && cur.marked then
      if c == '\r' then
        let cur ← cur.skip.hold? 2
        skipBetween? inFlow cs cur.next (keyAllowed || !inFlow) .start
      else skipBetween? inFlow cs cur.skip keyAllowed .blanks
    else if isBreak c then
      let (reach, found) := if between = .comment then commentAfter (c :: cs) else (0, false)
      let cur ← (← cur.holdUpTo? reach).hold? 2
      if found || between = .toComment then skipBetween? inFlow cs cur.next keyAllowed .toComment
      else skipBetween? inFlow cs cur.next (keyAllowed || !inFlow) .start
    else if between = .comment || c == '#' then skipBetween? inFlow cs cur.skip keyAllowed .comment
    else if between = .toComment then skipBetween? inFlow cs cur.skip keyAllowed .toComment
    else if c == ' ' || (c == '\t' && (inFlow || !keyAllowed)) then
      skipBetween? inFlow cs cur.skip keyAllowed .blanks
    else return (cur, keyAllowed)

end FormBasic.Tree.Yaml
