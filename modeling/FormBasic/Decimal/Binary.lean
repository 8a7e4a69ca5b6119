import FormBasic.Power

/-!
# Binary floating point, exactly

A finite floating-point number is a whole number of units `2 ^ exponent`. `BinaryFormat.decode`
reads that form off the bit pattern, and `BinaryFormat.nearest` goes the other way for a quotient
of natural numbers: to the nearest representable number, a tie going to the even one. All
arithmetic in between is on `Nat` and `Int`, so nothing is rounded twice.
-/

namespace FormBasic.Decimal

/-- A layout of sign, exponent and fraction bits. -/
structure BinaryFormat where
  /-- Stored bits of the fraction; a normal number has one more, which is not stored. -/
  fractionBits : Nat
  /-- Bits of the exponent field. -/
  exponentBits : Nat

namespace BinaryFormat

/-- 32 bits. -/
def single : BinaryFormat := ⟨23, 8⟩

/-- 64 bits. -/
def double : BinaryFormat := ⟨52, 11⟩

/-- The exponent of the last place of the smallest numbers. -/
def minExponent (f : BinaryFormat) : Int :=
  2 - (twoTo (f.exponentBits - 1) : Int) - (f.fractionBits : Int)

/-- The bit pattern of positive infinity, which is also the number of finite magnitudes. -/
def infinityBits (f : BinaryFormat) : Nat :=
  (twoTo f.exponentBits - 1) * twoTo f.fractionBits

/-- The weight of the sign bit. -/
def signBit (f : BinaryFormat) : Nat := twoTo (f.fractionBits + f.exponentBits)

end BinaryFormat

/-- What a bit pattern stands for. -/
inductive Binary where
  | nan
  | infinity (negative : Bool)
  /-- `significand · 2 ^ exponent`, with its sign. -/
  | finite (negative : Bool) (significand : Nat) (exponent : Int)
deriving Repr, DecidableEq

namespace BinaryFormat

/-- Read a bit pattern. -/
def decode (f : BinaryFormat) (bits : Nat) : Binary :=
  let negative := bits / f.signBit % 2 == 1
  let magnitude := bits % f.signBit
  let field := magnitude / twoTo f.fractionBits
  let fraction := magnitude % twoTo f.fractionBits
  if magnitude == f.infinityBits then .infinity negative
  else if f.infinityBits < magnitude then .nan
  else if field == 0 then .finite negative fraction f.minExponent
  else .finite negative (twoTo f.fractionBits + fraction) (f.minExponent + (field - 1 : Nat))

/-- Round a quotient to the nearest whole number, a tie to the even one. -/
def divEven (num den : Nat) : Nat :=
  let q := num / den
  let twice := 2 * (num % den)
  if twice < den then q
  else if den < twice then q + 1
  else if q % 2 == 0 then q else q + 1

/-- The bit pattern of the positive number nearest to `num / den`, a tie to the even one; `none`
when the quotient rounds beyond the largest finite number. -/
def nearest (f : BinaryFormat) (num den : Nat) : Option Nat :=
  if num == 0 then some 0
  else
    -- `lead` is the exponent of the leading bit of the quotient, or one more than it
    let lead : Int := (Nat.log2 num : Int) - Nat.log2 den
    let atLeast (e : Int) : Bool :=
      if 0 ≤ e then den * twoTo e.toNat ≤ num else den ≤ num * twoTo (-e).toNat
    let top := if atLeast lead then lead else lead - 1
    let e := max (top - f.fractionBits) f.minExponent
    let units :=
      if 0 ≤ e then divEven num (den * twoTo e.toNat) else divEven (num * twoTo (-e).toNat) den
    let bits := (e - f.minExponent).toNat * twoTo f.fractionBits + units
    if bits < f.infinityBits then some bits else none

/-- Put a sign bit on a magnitude. -/
def withSign (f : BinaryFormat) (negative : Bool) (magnitude : Nat) : Nat :=
  if negative then f.signBit + magnitude else magnitude

/-- A bit pattern that is no number. -/
def nanBits (f : BinaryFormat) : Nat := f.infinityBits + twoTo (f.fractionBits - 1)

/-- The bit pattern of the number nearest to a decoded one, which may come from another format. A
magnitude out of range becomes infinite. -/
def encode (f : BinaryFormat) : Binary → Nat
  | .nan => f.nanBits
  | .infinity negative => f.withSign negative f.infinityBits
  | .finite negative m e =>
    f.withSign negative ((f.nearest (m * twoTo e.toNat) (twoTo (-e).toNat)).getD f.infinityBits)

end BinaryFormat

/-- The exact value of a double. -/
def decodeDouble (x : Float) : Binary := BinaryFormat.double.decode x.toBits.toNat

/-- The exact value of a single. -/
def decodeSingle (x : Float32) : Binary := BinaryFormat.single.decode x.toBits.toNat

/-- A double from its bit pattern. -/
def doubleOfBits (bits : Nat) : Float := Float.ofBits (UInt64.ofNat bits)

/-- A single from its bit pattern. -/
def singleOfBits (bits : Nat) : Float32 := Float32.ofBits (UInt32.ofNat bits)

/-- A single as a double. -/
def widen (x : Float32) : Float := doubleOfBits (BinaryFormat.double.encode (decodeSingle x))

/-- A double as the nearest single. -/
def narrow (x : Float) : Float32 := singleOfBits (BinaryFormat.single.encode (decodeDouble x))

/-- Not a number. -/
def nan : Float := doubleOfBits 0x7ff8000000000001

/-- Positive infinity. -/
def infinity : Float := doubleOfBits 0x7ff0000000000000

end FormBasic.Decimal
