import FormBasic.Text.Bytes

/-!
# Lines of input

Input is read line by line through a buffer. A line ends with a line feed, which a carriage return
may precede. A line that is longer than the buffer arrives in pieces, so a line whose text alone
fills the buffer is followed by an empty one.
-/

namespace FormBasic.CommandLine

/-- The number of bytes that the buffer holds. -/
def bufferSize : Nat := 4096

/-- The byte of a line feed. -/
def lineFeed : UInt8 := 10

/-- The byte of a carriage return. -/
def carriageReturn : UInt8 := 13

/-- A full buffer without a line end, its bytes in reverse: the piece to hand out, and what stays in
the buffer in reverse. A carriage return stays, since the line may end with it. -/
def fullBuffer : List UInt8 → List UInt8 × List UInt8
  | b :: bs => if b == carriageReturn then (bs.reverse, [b]) else ((b :: bs).reverse, [])
  | [] => ([], [])

/-- A line without its end, given in reverse without its line feed. -/
def endedLine : List UInt8 → List UInt8
  | b :: bs => if b == carriageReturn then bs.reverse else (b :: bs).reverse
  | [] => []

/-- The last lines: what is in the buffer when the input ends. -/
def lastLines (count : Nat) (buffer : List UInt8) : List (List UInt8) :=
  if buffer.isEmpty then []
  else if count == bufferSize then
    let (piece, kept) := fullBuffer buffer
    if kept.isEmpty then [piece] else [piece, kept.reverse]
  else [buffer.reverse]

/-- The lines of bytes, after `count` bytes in the buffer that stand in reverse in `buffer`. -/
def linesFrom : (count : Nat) → (buffer : List UInt8) → List UInt8 → List (List UInt8)
  | count, buffer, [] => lastLines count buffer
  | count, buffer, b :: bs =>
    if count == bufferSize then
      let (piece, kept) := fullBuffer buffer
      if b == lineFeed then piece :: endedLine kept :: linesFrom 0 [] bs
      else piece :: linesFrom (kept.length + 1) (b :: kept) bs
    else if b == lineFeed then endedLine buffer :: linesFrom 0 [] bs
    else linesFrom (count + 1) (b :: buffer) bs

/-- The lines of an input. -/
def inputLines (input : String) : List String :=
  (linesFrom 0 [] (Text.toBytes input)).map Text.ofBytes

end FormBasic.CommandLine
