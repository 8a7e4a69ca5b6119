import FormBasic.Power

/-!
# Texts as bytes

The UTF-8 form of a text, and the text of any bytes: a byte that belongs to no character stands for
the replacement character.
-/

namespace FormBasic.Text

/-- The bytes of a text. -/
def toBytes (s : String) : List UInt8 := s.toUTF8.toList

/-- The character that stands for a byte without meaning. -/
def replacement : Char := Char.ofNat 0xfffd

/-- The bounds of the byte after a leading byte, and the number of bytes that follow it; `none` for
a byte that leads no character. -/
def followers? (b : UInt8) : Option (UInt8 × UInt8 × Nat) :=
  if 0xc2 ≤ b && b ≤ 0xdf then some (0x80, 0xbf, 1)
  else if b == 0xe0 then some (0xa0, 0xbf, 2)
  else if b == 0xed then some (0x80, 0x9f, 2)
  else if 0xe1 ≤ b && b ≤ 0xef then some (0x80, 0xbf, 2)
  else if b == 0xf0 then some (0x90, 0xbf, 3)
  else if 0xf1 ≤ b && b ≤ 0xf3 then some (0x80, 0xbf, 3)
  else if b == 0xf4 then some (0x80, 0x8f, 3)
  else none

/-- Whether a byte continues a character. -/
def isContinuation (b : UInt8) : Bool := 0x80 ≤ b && b ≤ 0xbf

/-- The bits of a leading byte that belong to its character. -/
def leadBits (count : Nat) (b : UInt8) : Nat := b.toNat % twoTo (6 - count)

/-- The character that a leading byte and the bytes after it form, and the number of bytes after
it. -/
def charAt? (b : UInt8) (rest : List UInt8) : Option (Char × Nat) := do
  let (low, high, count) ← followers? b
  let tail := rest.take count
  let first ← tail.head?
  if tail.length == count && low ≤ first && first ≤ high && tail.all isContinuation then
    some (Char.ofNat (tail.foldl (fun n c => n * 64 + c.toNat % 64) (leadBits count b)), count)
  else none

/-- The characters of bytes, the first `skip` of them left out. -/
def charsFrom : (skip : Nat) → List UInt8 → List Char
  | _, [] => []
  | k + 1, _ :: bs => charsFrom k bs
  | 0, b :: bs =>
    if b < 0x80 then Char.ofNat b.toNat :: charsFrom 0 bs
    else match charAt? b bs with
      | some (c, count) => c :: charsFrom count bs
      | none => replacement :: charsFrom 0 bs

/-- The text of bytes. -/
def ofBytes (bs : List UInt8) : String := String.ofList (charsFrom 0 bs)

end FormBasic.Text
