import FormBasic.Decimal.Binary

/-!
# Elementary functions

Rounding, powers, exponential, logarithm and trigonometric functions of doubles. Rounding is exact.
The others are evaluated by argument reduction and a polynomial, in one fixed order of operations,
so that their last digit is determined by the definitions here and not by the machine.
-/

namespace FormBasic.Elementary

open Decimal

/-! ### Rounding -/

/-- A double with a sign and a whole magnitude that it can hold. -/
def ofWhole (negative : Bool) (n : Nat) : Float :=
  doubleOfBits (BinaryFormat.double.withSign negative
    ((BinaryFormat.double.nearest n 1).getD BinaryFormat.double.infinityBits))

/-- Round to a whole number by a rule for quotients, keeping the sign of zero. -/
def roundBy (rule : Nat → Nat → Nat) (x : Float) : Float :=
  match decodeDouble x with
  | .finite negative m e => if 0 ≤ e then x else ofWhole negative (rule m (twoTo (-e).toNat))
  | _ => x

/-- The nearest whole number, a tie going to the even one. -/
def roundEven (x : Float) : Float := roundBy BinaryFormat.divEven x

/-- The whole number without the fraction. -/
def truncate (x : Float) : Float := roundBy (· / ·) x

/-- Whether a double has no fraction and is odd. -/
def isOdd (x : Float) : Bool :=
  match decodeDouble x with
  | .finite _ m e => if 0 ≤ e then e == 0 && m % 2 == 1
    else m % twoTo (-e).toNat == 0 && m / twoTo (-e).toNat % 2 == 1
  | _ => false

/-- Whether the sign bit is set. -/
def isNegative (x : Float) : Bool :=
  match decodeDouble x with
  | .finite negative _ _ => negative
  | .infinity negative => negative
  | .nan => false

/-! ### Exponential and logarithm -/

/-- The exact value of a finite double as a signed count of units and their exponent. -/
def exactValue (x : Float) : Int × Int :=
  match decodeDouble x with
  | .finite negative m e => (if negative then -(m : Int) else m, e)
  | _ => (0, 0)

/-- The value of a whole double. -/
def wholeValue (x : Float) : Int :=
  let (m, e) := exactValue x
  if 0 ≤ e then m * twoTo e.toNat else m / twoTo (-e).toNat

/-- `a · b + c` for finite doubles, rounded once. -/
def multiplyAdd (a b c : Float) : Float :=
  let (ma, ea) := exactValue a
  let (mb, eb) := exactValue b
  let (mc, ec) := exactValue c
  let e := min (ea + eb) ec
  let sum := ma * mb * twoTo (ea + eb - e).toNat + mc * twoTo (ec - e).toNat
  if sum == 0 then a * b + c
  else
    let bits := if 0 ≤ e then BinaryFormat.double.nearest (sum.natAbs * twoTo e.toNat) 1
      else BinaryFormat.double.nearest sum.natAbs (twoTo (-e).toNat)
    doubleOfBits (BinaryFormat.double.withSign (sum < 0)
      (bits.getD BinaryFormat.double.infinityBits))

/-- The upper part of the natural logarithm of two: it has trailing zeros enough for products with
small whole numbers to be exact. -/
def ln2Upper : Float := 0.69314718055966295651160180568695068359375

/-- What `ln2Upper` lacks. -/
def ln2Lower : Float := 0.28235290563031577122588448175013436025525412068e-12

/-- The coefficients of the exponential series, highest power first, down to the first power. -/
def expSeries : List Float :=
  [2.4801587301587301587e-5, 1.9841269841269841270e-4, 1.3888888888888888889e-3,
   8.3333333333333333333e-3, 4.1666666666666666667e-2, 1.6666666666666666667e-1, 0.5, 1.0]

/-- The exponential function. The argument is reduced by multiples of `ln 2` and divided by
sixteen; `e ^ r - 1` of the reduced argument comes from the series and is squared up four times,
where the last squaring and the one that is added after it are rounded together. The result is
infinite as soon as its scale alone is out of range. -/
def exp (x : Float) : Float :=
  if x.isNaN then x
  else if x > 7.09782712893384e+02 then infinity
  else if x < -7.5e+02 then 0
  else
    let n := roundEven (x * 1.4426950408889634073599246810018920)
    let r := multiplyAdd (-n) ln2Lower (multiplyAdd (-n) ln2Upper x)
    let r := r * 0.0625
    let series := match expSeries with
      | [] => 0
      | c :: cs => cs.foldl (fun acc c => multiplyAdd acc r c) c
    let t := r * series
    let double (t : Float) : Float := t * (t + 2)
    let t := double (double (double t))
    let y := multiplyAdd t (t + 2) 1
    let scale := wholeValue n
    if 1023 < scale then infinity
    else if scale < -1075 then 0
    else y.scaleB scale

/-- The exponent and the factor that the two fields of a positive double spell: the factor is
between one half and one. A subnormal number is read like a normal one. -/
def splitFields (x : Float) : Int × Float :=
  let bits := x.toBits.toNat
  let fraction := twoTo BinaryFormat.double.fractionBits
  ((bits / fraction : Nat) - 1022, doubleOfBits (1022 * fraction + bits % fraction))

/-- The natural logarithm. The argument is split into a power of two and a factor between `√2 / 2`
and `√2`. -/
def log (x : Float) : Float :=
  if x.isNaN then x
  else if x == infinity then x
  else if x < 0 then nan
  else if x == 0 then -infinity
  else
    let (k, f1) := splitFields x
    let low := f1 ≤ 0.70710678118654752440
    let f := (if low then f1 * 2 else f1) - 1
    let k := Float.ofInt (if low then k - 1 else k)
    let s := f / (2 + f)
    let s2 := s * s
    let s4 := s2 * s2
    let t1 := s2 * (6.666666666666735130e-01 + s4 * (2.857142874366239149e-01 +
      s4 * (1.818357216161805012e-01 + s4 * 1.479819860511658591e-01)))
    let t2 := s4 * (3.999999999940941908e-01 + s4 * (2.222219843214978396e-01 +
      s4 * 1.531383769920937332e-01))
    let r := t1 + t2
    let hfsq := 0.5 * f * f
    k * 6.93147180369123816490e-01 -
      ((hfsq - (s * (hfsq + r) + k * 1.90821492927058770002e-10)) - f)

/-! ### Powers -/

/-- Multiply an accumulated `a · 2 ^ ae` by the power `n` of `x · 2 ^ xe`, squaring as it goes. A
factor that is out of the range of every double ends the work at once. -/
def powerLoop : (fuel : Nat) → (n : Nat) → (x : Float) → (xe : Int) → (a : Float) → (ae : Int) →
    Float × Int
  | 0, _, _, _, a, ae => (a, ae)
  | fuel + 1, n, x, xe, a, ae =>
    if n == 0 then (a, ae)
    else if xe < -4096 || 4096 < xe then (a, ae + xe)
    else
      let (a, ae) := if n % 2 == 1 then (a * x, ae + xe) else (a, ae)
      let x := x * x
      let xe := xe * 2
      let (x, xe) := if x < 0.5 then (x + x, xe - 1) else (x, xe)
      powerLoop fuel (n / 2) x xe a ae

/-- The power of a finite non-zero base to a finite exponent. -/
def powerFinite (x y : Float) : Float :=
  let ay := y.abs
  let yi := truncate ay
  let yf := ay - yi
  if yf != 0 && x < 0 then nan
  else if yi ≥ 9223372036854775808 then
    if x == -1 then 1 else if (x.abs < 1) == (y > 0) then 0 else infinity
  else
    let (yi, yf) := if yf > 0.5 then (yi + 1, yf - 1) else (yi, yf)
    let a := if yf != 0 then exp (yf * log x) else 1
    let (x1, xe) := x.frExp
    let n := match decodeDouble yi with
      | .finite _ m e => if 0 ≤ e then m * twoTo e.toNat else m / twoTo (-e).toNat
      | _ => 0
    let (a, ae) := powerLoop 64 n x1 xe a 0
    if y < 0 then (1 / a).scaleB (-ae) else a.scaleB ae

/-- The power of zero. -/
def powerOfZero (x y : Float) : Float :=
  if y < 0 then (if isNegative x && isOdd y then -infinity else infinity)
  else if isNegative x && isOdd y then x else 0

/-- `x` to the power `y`. -/
def pow (x y : Float) : Float :=
  if y == 0 || x == 1 then 1
  else if y == 1 then x
  else if x.isNaN || y.isNaN then nan
  else if x == 0 then powerOfZero x y
  else if y.isInf then
    if x == -1 then 1 else if (x.abs < 1) == (y > 0) then 0 else infinity
  else if x.isInf then
    if x < 0 then powerOfZero (-0.0) (-y) else if y < 0 then 0 else infinity
  else if y == 0.5 then x.sqrt
  else if y == -0.5 then 1 / x.sqrt
  else powerFinite x y

/-! ### Trigonometric functions -/

/-- `4 / π` in units of `2 ^ -1216`: one, and nineteen words behind the point. -/
def fourOverPi : Nat :=
  let words := [
    0x45f306dc9c882a53, 0xf84eafa3ea69bb81, 0xb6c52b3278872083, 0xfca2c757bd778ac3,
    0x6e48dc74849ba5c0, 0x0c925dd413a32439, 0xfc3bd63962534e7d, 0xd1046bea5d768909,
    0xd338e04d68befc82, 0x7323ac7306a673e9, 0x3908bf177bf25076, 0x3ff12fffbc0b301f,
    0xde5e2316b414da3e, 0xda6cfd9e4f96136e, 0x9e8c7ecd3cbfd45a, 0xea4f758fd7cbe2f6,
    0x7a0e73ef14a525d4, 0xd7f6bf623f1aba10, 0xac06608df8f6d757]
  words.foldl (fun n word => n * twoTo 64 + word) 1

/-- A quarter of `π`. -/
def quarterPi : Float := 0.785398163397448309615660845819875721

/-- The octant of a large angle, as an even number modulo eight, and the angle within it. The angle
is multiplied by those 192 binary digits of `4 / π` that bear on the result, which leaves two words
of 64 bits: the octant is in the three highest bits, and the 64 bits after it are the fraction.
Normalising the fraction shifts in the highest bits of the lower word. -/
def reduceLarge (x : Float) : Nat × Float :=
  let (m, e) := exactValue x
  let digits := fourOverPi / twoTo (1027 - e).toNat % twoTo 192
  let product := m.natAbs * digits / twoTo 64 % twoTo 128
  let j := product / twoTo 125
  let fraction := product / twoTo 61 % twoTo 64
  let shift := if fraction == 0 then 65 else 64 - Nat.log2 fraction
  let word := fraction * twoTo shift % twoTo 64 +
    (if shift ≤ 64 then product % twoTo 64 / twoTo (64 - shift) else 0)
  let z := doubleOfBits ((1023 - shift) * twoTo 52 + word / twoTo 12)
  if j % 2 == 1 then ((j + 1) % 8, (z - 1) * quarterPi) else (j, z * quarterPi)

/-- The octant of a non-negative angle, as an even number modulo eight, and the angle within it. -/
def reduce (x : Float) : Nat × Float :=
  if x ≥ 536870912 then reduceLarge x
  else
    let j := (x * 1.27323954473516268615107010698).toUInt64.toNat
    let j := if j % 2 == 1 then j + 1 else j
    let y := Float.ofNat j
    (j % 8, ((x - y * 7.85398125648498535156e-1) - y * 3.77489470793079817668e-8) -
      y * 2.69515142907905952645e-15)

/-- A polynomial by its coefficients, highest power first. -/
def polynomial (x : Float) : List Float → Float
  | [] => 0
  | c :: cs => cs.foldl (fun acc c => acc * x + c) c

/-- Sine of a reduced angle. -/
def sinReduced (z : Float) : Float :=
  let zz := z * z
  z + z * zz * polynomial zz [1.58962301576546568060e-10, -2.50507477628578072866e-8,
    2.75573136213857245213e-6, -1.98412698295895385996e-4, 8.33333333332211858878e-3,
    -1.66666666666666307295e-1]

/-- Cosine of a reduced angle. -/
def cosReduced (z : Float) : Float :=
  let zz := z * z
  1.0 - 0.5 * zz + zz * zz * polynomial zz [-1.13585365213876817300e-11, 2.08757008419747316778e-9,
    -2.75573141792967388112e-7, 2.48015872888517045348e-5, -1.38888888888730564116e-3,
    4.16666666666665929218e-2]

/-- Sine. -/
def sin (x : Float) : Float :=
  if x == 0 || x.isNaN then x
  else if x.isInf then nan
  else
    let (j, z) := reduce x.abs
    let flip := (x < 0) != (j > 3)
    let j := j % 4
    let y := if j == 1 || j == 2 then cosReduced z else sinReduced z
    if flip then -y else y

/-- Cosine. -/
def cos (x : Float) : Float :=
  if x.isNaN then x
  else if x.isInf then nan
  else
    let (j, z) := reduce x.abs
    let upper := j > 3
    let j := j % 4
    let flip := upper != (j > 1)
    let y := if j == 1 || j == 2 then sinReduced z else cosReduced z
    if flip then -y else y

/-- Tangent. -/
def tan (x : Float) : Float :=
  if x == 0 || x.isNaN then x
  else if x.isInf then nan
  else
    let (j, z) := reduce x.abs
    let zz := z * z
    let y := if zz > 1e-14 then
        z + z * (zz * polynomial zz [-1.30936939181383777646e4, 1.15351664838587416140e6,
            -1.79565251976484877988e7] /
          polynomial zz [1.0, 1.36812963470692954678e4, -1.32089234440210967447e6,
            2.50083801823357915839e7, -5.38695755929454629881e7])
      else z
    let y := if j / 2 % 2 == 1 then -1 / y else y
    if x < 0 then -y else y

end FormBasic.Elementary
