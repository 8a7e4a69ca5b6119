import FormBasic.Tree.Yaml.Cursor

/-!
# Tokens of YAML

A text is cut into scalars and the marks that hold collections together. What opens and closes a
block collection is no mark of its own but follows from columns, and that a scalar is a key is only
known at the colon after it: a key that may still come true is kept as a `PendingKey`, and the
tokens that make it one are put in front of it later.

Anchors, tags, directives and block scalars are no part of the language.

Tokens are handed out as early as possible: a token is once two more have been read, unless it is a
key that may still come true. So a text need not be readable to its end for its first document to be
read: `Token.scan` ends the tokens that were handed out before a fault with `Token.unreadable`. What
makes a key of a token that is already handed out comes too late, and stands where the colon does.
-/

namespace FormBasic.Tree.Yaml

/-- A scalar or a mark. -/
inductive Token where
  | documentStart
  | documentEnd
  | blockSequence
  | blockMapping
  | blockEnd
  | flowSequence
  | flowSequenceEnd
  | flowMapping
  | flowMappingEnd
  /-- The dash of a block sequence. -/
  | entry
  /-- The comma of a flow collection. -/
  | comma
  | key
  | value
  | scalar (quoted : Bool) (content : String)
  | streamEnd
  | unreadable
deriving Repr, DecidableEq

/-- The characters that open, close and divide flow collections. -/
def isFlowMark (c : Char) : Bool := c == ',' || c == '[' || c == ']' || c == '{' || c == '}'

/-! ### Scalars -/

/-- Blanks and line breaks inside a scalar. -/
structure Fold where
  /-- The blanks before any line break, reversed. -/
  blanks : List Char := []
  broken : Bool := false
  /-- The first line break, unless it is an escaped one. -/
  first : Option Char := none
  /-- The further line breaks, reversed. -/
  more : List Char := []

namespace Fold

/-- Whether there is nothing. -/
def isEmpty (f : Fold) : Bool := f.blanks.isEmpty && !f.broken

/-- One more blank or line break. A line break drops the blanks around it. -/
def push (f : Fold) (c : Char) : Fold :=
  if isBreak c then
    if f.broken then { f with more := breakMeaning c :: f.more }
    else { f with blanks := [], broken := true, first := some (breakMeaning c) }
  else if f.broken then f
  else { f with blanks := c :: f.blanks }

/-- Put what is left of it on a reversed text: blanks as they are, a single line feed as a blank, a
line feed with further breaks as those. -/
def onto (f : Fold) (acc : List Char) : List Char :=
  if !f.broken then f.blanks ++ acc
  else match f.first with
    | some c =>
      if c == '\n' then (if f.more.isEmpty then ' ' :: acc else f.more ++ acc)
      else f.more ++ c :: acc
    | none => f.more ++ acc

end Fold

/-- Whether a character that is no blank ends a plain scalar. -/
def endsPlain (inFlow : Bool) (c : Char) (cs : List Char) : Bool :=
  (c == ':' && atGap cs) || (inFlow && (isFlowMark c || c == '?'))

/-- A plain scalar: its text, whether a line break came after it, and what follows it. A line that
goes on with it stands at least in column `least`, unless in a flow collection. -/
def plainFrom (inFlow : Bool) (least : Nat) : List Char → Cursor → (acc : List Char) → Fold →
    Option (String × Bool × Cursor)
  | [], cur, acc, fold => do
    let goesOn := !fold.isEmpty && (inFlow || least ≤ cur.column)
    let cur ← if goesOn then cur.hold? 4 else some cur
    return (String.ofList acc.reverse, fold.broken, cur)
  | c :: cs, cur, acc, fold => do
    if isGap c || isBreak c then
      if c == '\t' && fold.broken && cur.column < least then none
      else plainFrom inFlow least cs (← cur.nextGap? c) acc (fold.push c)
    else if !fold.isEmpty && !inFlow && cur.column < least then
      return (String.ofList acc.reverse, fold.broken, cur)
    else
      let cur ← if fold.isEmpty then some cur else cur.hold? 4
      let stops := !fold.isEmpty && ((cur.column == 0 && atDocumentMark (c :: cs)) || c == '#')
      if stops || endsPlain inFlow c cs then
        return (String.ofList acc.reverse, fold.broken, cur)
      else plainFrom inFlow least cs (← cur.skip.hold? 2) (c :: fold.onto acc) {}

/-- The single quote. -/
def quoteMark : Char := '\x27'

/-- The rest of a text in single quotes; a quote inside is written twice. -/
def singleFrom : List Char → Cursor → (acc : List Char) → Fold → Option (String × Cursor)
  | [], _, _, _ => none
  | c :: cs, cur, acc, fold => do
    if isGap c || isBreak c then singleFrom cs (← cur.nextGap? c) acc (fold.push c)
    else
      let cur ← if fold.isEmpty then some cur else cur.hold? 4
      let acc := fold.onto acc
      if cur.column == 0 && atDocumentMark (c :: cs) then none
      else if c != quoteMark then singleFrom cs (← cur.skip.hold? 2) (c :: acc) {}
      else match cs with
        | d :: ds =>
          if d == quoteMark then singleFrom ds (← cur.skip.skip.hold? 2) (d :: acc) {}
          else return (String.ofList acc.reverse, cur.skip)
        | [] => return (String.ofList acc.reverse, cur.skip)

/-- The character of a one-letter escape. -/
def escaped? : Char → Option Nat
  | '0' => some 0
  | 'a' => some 7
  | 'b' => some 8
  | 't' => some 9
  | '\t' => some 9
  | 'n' => some 10
  | 'v' => some 11
  | 'f' => some 12
  | 'r' => some 13
  | 'e' => some 27
  | ' ' => some 32
  | '"' => some 34
  | '\x27' => some 39
  | '\\' => some 92
  | 'N' => some 0x85
  | '_' => some 0xa0
  | 'L' => some 0x2028
  | 'P' => some 0x2029
  | _ => none

/-- The number of hexadecimal digits after an escape letter. -/
def escapeWidth? : Char → Option Nat
  | 'x' => some 2
  | 'u' => some 4
  | 'U' => some 8
  | _ => none

/-- Where in an escape the reader is. -/
inductive Escape where
  | none
  | letter
  /-- So many hexadecimal digits still to come, after a value read so far. -/
  | code (left value : Nat)

/-- Whether a number is that of a character. -/
def isCharCode (n : Nat) : Bool := n < 0xd800 || (0xdfff < n && n ≤ 0x10ffff)

/-- The rest of a text in double quotes. An escaped line break is left out, with the blanks after
it. -/
def doubleFrom : List Char → Cursor → (acc : List Char) → Fold → Escape → Option (String × Cursor)
  | [], _, _, _, _ => none
  | c :: cs, cur, acc, fold, escape => do
    match escape with
    | .letter =>
      if isBreak c then doubleFrom cs (← cur.next.hold? 1) acc { broken := true } .none
      else match escaped? c, escapeWidth? c with
        | some n, _ => doubleFrom cs (← cur.skip.hold? 2) (Char.ofNat n :: acc) {} .none
        | none, some width => doubleFrom cs (← cur.skip.hold? width) acc {} (.code width 0)
        | none, none => none
    | .code left value =>
      match Decimal.digitValue? c with
      | none => none
      | some d =>
        let value := value * 16 + d
        if 1 < left then doubleFrom cs cur.skip acc {} (.code (left - 1) value)
        else if isCharCode value then
          doubleFrom cs (← cur.skip.hold? 2) (Char.ofNat value :: acc) {} .none
        else none
    | .none =>
      if isGap c || isBreak c then doubleFrom cs (← cur.nextGap? c) acc (fold.push c) .none
      else
        let cur ← if fold.isEmpty then some cur else cur.hold? 4
        let acc := fold.onto acc
        if cur.column == 0 && atDocumentMark (c :: cs) then none
        else if c == '"' then return (String.ofList acc.reverse, cur.skip)
        else if c == '\\' then
          let cur ← if cs.head?.any isBreak then cur.hold? 3 else some cur
          doubleFrom cs cur.skip acc {} .letter
        else doubleFrom cs (← cur.skip.hold? 2) (c :: acc) {} .none

/-! ### The scanner -/

/-- A scalar or flow collection that a colon can still make a key. -/
structure PendingKey where
  /-- The number of tokens before it. -/
  number : Nat
  index : Nat := 0
  line : Nat := 0
  column : Nat := 0
  /-- Whether it stands where nothing but a key can. -/
  required : Bool := false
  /-- Whether it has not been given up. -/
  possible : Bool := false

/-- A key is over on its own line, within 1024 characters. -/
def PendingKey.isLive (k : PendingKey) (cur : Cursor) : Bool :=
  k.possible && k.line == cur.line && cur.index ≤ k.index + 1024

/-- Collections may be nested this deep. -/
def maxDepth : Nat := 10000

/-- The scanner between two tokens. -/
structure Scanner where
  cursor : Cursor
  keyAllowed : Bool := true
  /-- The columns of the open block collections, innermost first. -/
  columns : List Nat := []
  /-- The number of open flow collections. -/
  depth : Nat := 0
  /-- The last key of each open flow collection, innermost first, and that outside of them. -/
  keys : List PendingKey := [{ number := 0 }]
  /-- Numbers of tokens that have to wait for a key, with the depth at which the key is found. -/
  waiting : List (Nat × Nat) := []
  /-- The tokens so far, reversed. -/
  tokens : List Token := []
  count : Nat := 0
  /-- The number of tokens that have been handed out. -/
  handedOut : Nat := 0
  ended : Bool := false

namespace Scanner

/-- Whether a flow collection is open. -/
def inFlow (s : Scanner) : Bool := 0 < s.depth

/-- The column of the cursor. -/
def column (s : Scanner) : Nat := s.cursor.column

/-- Add a token. -/
def emit (s : Scanner) (t : Token) : Scanner :=
  { s with tokens := t :: s.tokens, count := s.count + 1 }

/-- Put a token in front of the one with a number, or at the end if that one is already handed
out. -/
def insertAt (s : Scanner) (number : Nat) (t : Token) : Scanner :=
  let after := if number < s.handedOut then 0 else s.count - number
  { s with tokens := s.tokens.take after ++ t :: s.tokens.drop after, count := s.count + 1 }

/-- Add a token for one character. -/
def emitChar (s : Scanner) (t : Token) : Scanner :=
  { s with cursor := s.cursor.skip }.emit t

/-- Close the block collections in `columns` that stand right of a column. -/
def closeFrom (column : Int) : (columns : List Nat) → Scanner → Scanner
  | [], s => s
  | c :: cs, s =>
    if column < c then closeFrom column cs ({ s with columns := cs }.emit .blockEnd) else s

/-- Close the block collections that stand right of a column. -/
def closeBlocks (s : Scanner) (column : Int) : Scanner :=
  if s.inFlow then s else closeFrom column s.columns s

/-- Open a block collection in a column, in front of the token with a number, unless one is open
there. -/
def openBlock (s : Scanner) (column : Nat) (t : Token) (number : Nat) : Option Scanner :=
  if s.inFlow || s.columns.head?.any (column ≤ ·) then some s
  else if maxDepth ≤ s.columns.length then none
  else some ({ s with columns := column :: s.columns }.insertAt number t)

/-- Let the token with a number wait for no key. -/
def release (s : Scanner) (number : Nat) : Scanner :=
  { s with waiting := s.waiting.filter (·.1 != number) }

/-- Put another key in place of the innermost one. -/
def setKey (s : Scanner) (k : PendingKey) : Scanner := { s with keys := k :: s.keys.drop 1 }

/-- Give up the pending key; one that is required cannot be given up. -/
def dropKey (s : Scanner) : Option Scanner :=
  match s.keys.head? with
  | some k =>
    if !k.possible then some s
    else if k.required then none
    else some ((s.setKey { k with possible := false }).release k.number)
  | none => some s

/-- What begins here may be a key, if one is allowed. -/
def saveKey (s : Scanner) : Option Scanner :=
  if !s.keyAllowed then some s
  else do
    let s ← s.dropKey
    let cur := s.cursor
    let required := !s.inFlow && s.columns.head? == some cur.column
    let waiting := s.waiting.filter (s.handedOut ≤ ·.1)
    return { s with waiting := (s.count, s.depth) :: waiting }.setKey
      ⟨s.count, cur.index, cur.line, cur.column, required, true⟩

/-- The start of a flow collection. -/
def openFlow (s : Scanner) (t : Token) : Option Scanner := do
  let s ← s.saveKey
  if maxDepth ≤ s.depth then none
  else
    let keys := { number := s.count } :: s.keys
    return { s with depth := s.depth + 1, keys, keyAllowed := true }.emitChar t

/-- The end of a flow collection. The token with the number of its last key waits no longer; where
it has had no key, that is its first token. -/
def closeFlow (s : Scanner) (t : Token) : Option Scanner := do
  let s ← s.dropKey
  let s := match s.inFlow, s.keys with
    | true, k :: keys => { s with depth := s.depth - 1, keys }.release k.number
    | _, _ => s
  return { s with keyAllowed := false }.emitChar t

/-- A comma. -/
def comma (s : Scanner) : Option Scanner := do
  return { (← s.dropKey) with keyAllowed := true }.emitChar .comma

/-- The dash of a block sequence. In a flow collection it is left to the reader of nodes. -/
def entry (s : Scanner) : Option Scanner := do
  if !s.inFlow && !s.keyAllowed then none
  else
    let s ← s.openBlock s.column .blockSequence s.count
    return { (← s.dropKey) with keyAllowed := true }.emitChar .entry

/-- The question mark of a key. -/
def key (s : Scanner) : Option Scanner := do
  if !s.inFlow && !s.keyAllowed then none
  else
    let s ← s.openBlock s.column .blockMapping s.count
    return { (← s.dropKey) with keyAllowed := !s.inFlow }.emitChar .key

/-- A colon with no pending key before it. -/
def bareValue (s : Scanner) : Option Scanner := do
  if !s.inFlow && !s.keyAllowed then none
  else
    let s ← s.openBlock s.column .blockMapping s.count
    return { s with keyAllowed := !s.inFlow }.emitChar .value

/-- A colon. It makes the pending key a key. -/
def value (s : Scanner) : Option Scanner :=
  match s.keys.head? with
  | some k =>
    let given := s.setKey { k with possible := false }
    if k.isLive s.cursor then do
      let s ← ((given.release k.number).insertAt k.number .key).openBlock k.column .blockMapping
        k.number
      return { s with keyAllowed := false }.emitChar .value
    else if k.possible && k.required then none
    else given.bareValue
  | none => s.bareValue

/-- A quoted scalar, by the reader of what follows its opening quote. -/
def quoted (s : Scanner) (read : Cursor → Option (String × Cursor)) : Option Scanner := do
  let s ← s.saveKey
  let (content, cursor) ← read (← s.cursor.skip.hold? 4)
  return { s with cursor, keyAllowed := false }.emit (.scalar true content)

/-- A plain scalar. One that is followed by a line break may be followed by a key. -/
def plain (s : Scanner) : Option Scanner := do
  let s ← s.saveKey
  let least := (s.columns.head?.map (· + 1)).getD 0
  let cursor ← s.cursor.hold? 4
  let (content, broken, cursor) ← plainFrom s.inFlow least cursor.rest cursor [] {}
  return { s with cursor, keyAllowed := broken }.emit (.scalar false content)

/-- A document mark of three characters. -/
def documentMark (s : Scanner) (t : Token) : Option Scanner := do
  let s ← (s.closeBlocks (-1)).dropKey
  return { s with cursor := s.cursor.skip.skip.skip, keyAllowed := false }.emit t

/-- The end of the text. -/
def finish (s : Scanner) : Option Scanner := do
  let s ← (s.closeBlocks (-1)).dropKey
  return { s.emit .streamEnd with ended := true }

/-- Whether a plain scalar may begin with a character. -/
def plainBegins (s : Scanner) (c : Char) (cs : List Char) : Bool :=
  if c == '-' then !cs.head?.any isGap
  else if c == '?' || c == ':' then !s.inFlow && !atGap cs
  else !(isFlowMark c || isGap c || c == quoteMark || "#&*!|>\"%@`".toList.contains c)

/-- The token that begins with a character. -/
def token (s : Scanner) (c : Char) (cs : List Char) : Option Scanner :=
  if c == '[' then s.openFlow .flowSequence
  else if c == '{' then s.openFlow .flowMapping
  else if c == ']' then s.closeFlow .flowSequenceEnd
  else if c == '}' then s.closeFlow .flowMappingEnd
  else if c == ',' then s.comma
  else if c == '-' && atGap cs then s.entry
  else if c == '?' && (s.inFlow || atGap cs) then s.key
  else if c == ':' && (s.inFlow || atGap cs) then s.value
  else if c == quoteMark then s.quoted fun cur => singleFrom cur.rest cur [] {}
  else if c == '"' then s.quoted fun cur => doubleFrom cur.rest cur [] {} .none
  else if s.plainBegins c cs then s.plain
  else none

/-- Pass over the comment after a token. A dash leaves it to what follows. -/
def skipComment? (s : Scanner) : Option Scanner := do
  if s.tokens.head? == some .entry then return s
  else return { s with cursor := ← s.cursor.skipComment? }

/-- Read on to the end of the next token. -/
def next? (s : Scanner) : Option Scanner := do
  let (cursor, keyAllowed) ← skipBetween? s.inFlow s.cursor.rest s.cursor s.keyAllowed .start
  let s := { s with cursor, keyAllowed }.closeBlocks cursor.column
  let s := { s with cursor := ← s.cursor.hold? 4 }
  match s.cursor.rest with
  | [] => s.finish
  | c :: cs =>
    if s.column == 0 && c == '%' then none
    else if s.column == 0 && atDocumentMark (c :: cs) then
      s.documentMark (if c == '-' then .documentStart else .documentEnd)
    else (← s.token c cs).skipComment?

/-- Whether the next token can be handed out: two more have been read, and there is no key for which
it has to wait. A key that is required is waited for in any case. -/
def isReady (s : Scanner) : Bool :=
  s.handedOut + 3 ≤ s.count && !s.waiting.any fun (number, depth) =>
    number == s.handedOut && s.keys[s.depth - depth]?.any fun k =>
      k.isLive s.cursor || (k.possible && k.required)

/-- Hand out the tokens that can be, at most so many. -/
def handOut : (bound : Nat) → Scanner → Scanner
  | 0, s => s
  | bound + 1, s => if s.isReady then handOut bound { s with handedOut := s.handedOut + 1 } else s

/-- The tokens that have been handed out when the next one cannot be read. -/
def cutOff (s : Scanner) : List Token := s.tokens.reverse.take s.handedOut ++ [.unreadable]

/-- Read all tokens; every one takes a character, so the fuel is the length of the text. -/
def scanFrom : (fuel : Nat) → Scanner → List Token
  | 0, s => s.cutOff
  | fuel + 1, s =>
    match s.next? with
    | none => s.cutOff
    | some s => if s.ended then s.tokens.reverse else scanFrom fuel (s.handOut s.count)

end Scanner

/-- The tokens of a text. -/
def Token.scan (cs : List Char) : List Token :=
  match Cursor.ofText? cs with
  | some cursor => Scanner.scanFrom (cs.length + 1) { cursor }
  | none => [.unreadable]

end FormBasic.Tree.Yaml
