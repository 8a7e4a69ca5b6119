import FormBasic.Tree

/-!
# Reading JSON

A pushdown reader: one step per character, with the open lists and mappings on a stack. A number
keeps its literal text. Only the first value of the text is read; what follows it is not looked at.

A text can fail in three ways: a character that no value can go on with, whose position is reported
as the number of bytes up to and including its first byte; an end in the middle of a value; or an
end before any value began. An escape by code unit is judged as a whole: when one of its four digits
is none, the position is the end of the escape.
-/

namespace FormBasic.Tree.Json

/-- Why a text holds no value. -/
inductive Failure where
  | malformed (offset : Nat)
  | unexpectedEnd
  | noContent
deriving Repr, DecidableEq

/-- A container that is still open. -/
inductive Frame where
  | list (reversed : List Tree)
  | mapping (fields : List (String × Tree)) (key : String)

/-- Where in a number the reader is. -/
inductive NumberPart where
  | minus
  | zero
  | whole
  | point
  | fraction
  | mark
  | sign
  | exponent
deriving DecidableEq

/-- Where in a text literal the reader is. -/
inductive TextPart where
  | plain
  | escape
  /-- So many hexadecimal digits still to come, after a value read so far. -/
  | unit (left value : Nat)

/-- What the reader is in the middle of. -/
inductive Mode where
  | value
  | valueOrClose
  | keyOrClose
  | key
  | colon (key : String)
  | afterItem
  | afterField
  | word (rest : List Char) (result : Tree)
  | number (part : NumberPart) (reversed : List Char)
  /-- Code points and escaped code units, reversed. -/
  | text (isKey : Bool) (part : TextPart) (reversed : List Nat)

/-- The reader between two characters. -/
structure State where
  mode : Mode := .value
  stack : List Frame := []

/-- What one character does. -/
inductive Step where
  | next (state : State)
  | done (result : Tree)
  | malformed
  /-- No hexadecimal digit, after so many of an escape by code unit. -/
  | malformedUnit (digits : Nat)

/-- Containers may be nested this deep. -/
def maxDepth : Nat := 10000

/-- The four blanks between tokens. -/
def isBlank (c : Char) : Bool := c == ' ' || c == '\t' || c == '\r' || c == '\n'

/-- Whether a code unit is the first half of a pair. -/
def isHigh (n : Nat) : Bool := 0xd800 ≤ n && n < 0xdc00

/-- Whether a code unit is the second half of a pair. -/
def isLow (n : Nat) : Bool := 0xdc00 ≤ n && n < 0xe000

/-- Join the pairs of escaped code units; a half that stands alone becomes the replacement
character. -/
def joinUnits : List Nat → List Char
  | [] => []
  | [n] => [if isHigh n || isLow n then Char.ofNat 0xfffd else Char.ofNat n]
  | n :: m :: rest =>
    if isHigh n && isLow m then
      Char.ofNat (0x10000 + (n - 0xd800) * 0x400 + (m - 0xdc00)) :: joinUnits rest
    else if isHigh n || isLow n then Char.ofNat 0xfffd :: joinUnits (m :: rest)
    else Char.ofNat n :: joinUnits (m :: rest)

/-- A finished value goes into the innermost open container, or is the result. -/
def close (stack : List Frame) (t : Tree) : Step :=
  match stack with
  | [] => .done t
  | .list items :: rest => .next ⟨.afterItem, .list (t :: items) :: rest⟩
  | .mapping fields key :: rest =>
    .next ⟨.afterField, .mapping (Table.insertIn key t fields) key :: rest⟩

/-- Open a container unless the nesting limit is reached. -/
def openFrame (stack : List Frame) (frame : Frame) (mode : Mode) : Step :=
  if maxDepth ≤ stack.length then .malformed else .next ⟨mode, frame :: stack⟩

/-- The first character of a value. -/
def beginValue (stack : List Frame) (c : Char) : Step :=
  match c with
  | '{' => openFrame stack (.mapping [] "") .keyOrClose
  | '[' => openFrame stack (.list []) .valueOrClose
  | '"' => .next ⟨.text false .plain [], stack⟩
  | '-' => .next ⟨.number .minus [c], stack⟩
  | '0' => .next ⟨.number .zero [c], stack⟩
  | 't' => .next ⟨.word ['r', 'u', 'e'] (.bool true), stack⟩
  | 'f' => .next ⟨.word ['a', 'l', 's', 'e'] (.bool false), stack⟩
  | 'n' => .next ⟨.word ['u', 'l', 'l'] .null, stack⟩
  | _ => if c.isDigit then .next ⟨.number .whole [c], stack⟩ else .malformed

/-- A character after a value inside a container. -/
def afterValue (stack : List Frame) (c : Char) : Step :=
  match stack with
  | .list items :: rest =>
    if c == ',' then .next ⟨.value, stack⟩
    else if c == ']' then close rest (.list items.reverse)
    else .malformed
  | .mapping fields _ :: rest =>
    if c == ',' then .next ⟨.key, stack⟩
    else if c == '}' then close rest (.mapping fields)
    else .malformed
  | [] => .malformed

/-- How a number goes on; `none` when the character does not belong to it. -/
def NumberPart.next? (part : NumberPart) (c : Char) : Option NumberPart :=
  match part with
  | .minus => if c == '0' then some .zero else if c.isDigit then some .whole else none
  | .zero =>
    if c == '.' then some .point else if c == 'e' || c == 'E' then some .mark else none
  | .whole =>
    if c.isDigit then some .whole else if c == '.' then some .point
    else if c == 'e' || c == 'E' then some .mark else none
  | .point => if c.isDigit then some .fraction else none
  | .fraction =>
    if c.isDigit then some .fraction else if c == 'e' || c == 'E' then some .mark else none
  | .mark =>
    if c == '+' || c == '-' then some .sign else if c.isDigit then some .exponent else none
  | .sign => if c.isDigit then some .exponent else none
  | .exponent => if c.isDigit then some .exponent else none

/-- Whether a number may end here. -/
def NumberPart.complete : NumberPart → Bool
  | .zero | .whole | .fraction | .exponent => true
  | _ => false

/-- The number read so far. -/
def numeral (reversed : List Char) : Tree := .numeral (String.ofList reversed.reverse)

/-- The character that an escape letter stands for. -/
def escaped? : Char → Option Nat
  | '"' => some 34
  | '\\' => some 92
  | '/' => some 47
  | 'b' => some 8
  | 'f' => some 12
  | 'n' => some 10
  | 'r' => some 13
  | 't' => some 9
  | _ => none

/-- The value of a hexadecimal digit. -/
def hexValue? (c : Char) : Option Nat :=
  let n := c.toNat
  if 48 ≤ n && n ≤ 57 then some (n - 48)
  else if 97 ≤ n && n ≤ 102 then some (n - 87)
  else if 65 ≤ n && n ≤ 70 then some (n - 55)
  else none

/-- A character inside a text literal. -/
def textStep (stack : List Frame) (isKey : Bool) (part : TextPart) (units : List Nat)
    (c : Char) : Step :=
  match part with
  | .plain =>
    if c == '"' then
      let s := String.ofList (joinUnits units.reverse)
      if isKey then .next ⟨.colon s, stack⟩ else close stack (.text s)
    else if c == '\\' then .next ⟨.text isKey .escape units, stack⟩
    else if c.toNat < 0x20 then .malformed
    else .next ⟨.text isKey .plain (c.toNat :: units), stack⟩
  | .escape =>
    if c == 'u' then .next ⟨.text isKey (.unit 4 0) units, stack⟩
    else match escaped? c with
      | some n => .next ⟨.text isKey .plain (n :: units), stack⟩
      | none => .malformed
  | .unit left value =>
    match hexValue? c with
    | some d =>
      let value := value * 16 + d
      if left ≤ 1 then .next ⟨.text isKey .plain (value :: units), stack⟩
      else .next ⟨.text isKey (.unit (left - 1) value) units, stack⟩
    | none => .malformedUnit (4 - left)

/-- What one character does. -/
def step (s : State) (c : Char) : Step :=
  match s.mode with
  | .value => if isBlank c then .next s else beginValue s.stack c
  | .valueOrClose =>
    if isBlank c then .next s
    else if c == ']' then afterValue s.stack c
    else beginValue s.stack c
  | .keyOrClose =>
    if isBlank c then .next s
    else if c == '"' then .next ⟨.text true .plain [], s.stack⟩
    else if c == '}' then afterValue s.stack c
    else .malformed
  | .key =>
    if isBlank c then .next s
    else if c == '"' then .next ⟨.text true .plain [], s.stack⟩
    else .malformed
  | .colon key =>
    if isBlank c then .next s
    else if c == ':' then
      match s.stack with
      | .mapping fields _ :: rest => .next ⟨.value, .mapping fields key :: rest⟩
      | _ => .malformed
    else .malformed
  | .afterItem | .afterField => if isBlank c then .next s else afterValue s.stack c
  | .word rest result =>
    match rest with
    | [] => .malformed
    | [w] => if c == w then close s.stack result else .malformed
    | w :: ws => if c == w then .next ⟨.word ws result, s.stack⟩ else .malformed
  | .number part reversed =>
    match part.next? c with
    | some part => .next ⟨.number part (c :: reversed), s.stack⟩
    | none =>
      if !part.complete then .malformed
      else match close s.stack (numeral reversed) with
        | .next s' => if isBlank c then .next s' else afterValue s'.stack c
        | other => other
  | .text isKey part units => textStep s.stack isKey part units c

/-- What the end of the text does. -/
def finish (s : State) : Except Failure Tree :=
  match s.mode, s.stack with
  | .number part reversed, [] =>
    if part.complete then .ok (numeral reversed) else .error .unexpectedEnd
  | .value, [] => .error .noContent
  | _, _ => .error .unexpectedEnd

/-- The end of the block of text that holds the byte at an offset. A text is taken up in blocks: the
first ends after 64 bytes, and each further one ends where the text taken up has doubled. -/
def blockEnd (offset : Nat) : Nat :=
  if offset < 64 then 64 else 64 * twoTo (Nat.log2 (offset / 64) + 1)

/-- The position of an escape by code unit that goes wrong at an offset, after so many digits: its
end, or where the text that has been taken up ends if that comes first. -/
def unitPosition (digits offset : Nat) (rest : List Char) : Nat :=
  min (offset + 4 - digits) (min (offset + (String.ofList rest).utf8ByteSize) (blockEnd offset))

/-- Read on from a state, `offset` bytes into the text. -/
def readFrom : State → (offset : Nat) → List Char → Except Failure Tree
  | s, _, [] => finish s
  | s, offset, c :: cs =>
    match step s c with
    | .next s' => readFrom s' (offset + c.utf8Size) cs
    | .done t => .ok t
    | .malformed => .error (.malformed (offset + 1))
    | .malformedUnit digits => .error (.malformed (unitPosition digits offset (c :: cs)))

/-- Read the first value of a text. -/
def read (text : String) : Except Failure Tree := readFrom {} 0 text.toList

end FormBasic.Tree.Json
