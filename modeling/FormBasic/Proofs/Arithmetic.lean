import FormBasic.Operation
import Mathlib.Algebra.Group.Int.Defs
import Mathlib.Algebra.Group.Nat.Defs

/-!
# Whole-number arithmetic

Sums, differences and products of two `Integer`s or two `Long`s are exact or an error. On `Integer`s
this needs no test, since nothing wraps around in the wider words. On `Long`s the tests are put to a
word that may have wrapped around, and the lemmas here say that each of them fails on exactly the
numbers that fit: a sum that has wrapped around is off by the whole circle, which is more than the
second summand, and a product that has wrapped around is off by a multiple of the circle, which is
more than any remainder of a division by a word.

Quotients and remainders are those of the numbers, cut towards zero, in the wider variant of the
operands. The division of words differs from that of numbers in one place, the least word by `-1`,
and both operators look for the divisor `-1` before they divide: the one because of that place, the
other for no need, since the words leave nothing over there either.

## Main definitions

* `WholeNumber` — an `Integer` or a `Long`
* `CutDivision` — division with remainder of integers, said without the operations

## Main results

* `Operation.addLongs_eq`, `Operation.subtractLongs_eq`, `Operation.multiplyLongs_eq` — the tests
  after the fact agree with a look at the exact number
* `Operator.exactOnWhole` — addition, subtraction and multiplication of whole numbers are exact
* `Operation.quotient_longs`, `Operation.remainder_longs` and their siblings — division of words
* `Operator.divides_whole` — quotients and remainders of whole numbers belong together
-/

namespace FormBasic

open Value

namespace Operation

/-! ### Numbers that fit -/

/-- A whole number as a `Long`, if it fits. -/
def fitLong (n : Int) : Fallible Value :=
  if minLong ≤ n ∧ n ≤ maxLong then .ok (.long (Int64.ofInt n)) else .error .overflow

theorem minInteger_eq : minInteger = -2 ^ 31 := by decide

theorem maxInteger_eq : maxInteger = 2 ^ 31 - 1 := by decide

theorem minLong_eq : minLong = -2 ^ 63 := by decide

theorem maxLong_eq : maxLong = 2 ^ 63 - 1 := by decide

theorem fitInteger_eq_ok {n : Int} {v : Value} :
    fitInteger n = .ok v ↔ ∃ c : Int32, v = .integer c ∧ c.toInt = n := by
  unfold fitInteger
  rw [minInteger_eq, maxInteger_eq]
  constructor
  · intro h
    split at h
    · next hn =>
      cases h
      exact ⟨_, rfl, Int32.toInt_ofInt_of_le (by omega) (by omega)⟩
    · cases h
  · rintro ⟨c, rfl, rfl⟩
    have := c.le_toInt
    have := c.toInt_lt
    rw [if_pos (by omega), Int32.ofInt_toInt]

theorem fitInteger_eq_error {n : Int} {e : Cause} :
    fitInteger n = .error e ↔ e = .overflow ∧ ¬(-2 ^ 31 ≤ n ∧ n < 2 ^ 31) := by
  unfold fitInteger
  rw [minInteger_eq, maxInteger_eq]
  split
  · simp; omega
  · simp [eq_comm]; omega

theorem fitLong_eq_ok {n : Int} {v : Value} :
    fitLong n = .ok v ↔ ∃ c : Int64, v = .long c ∧ c.toInt = n := by
  unfold fitLong
  rw [minLong_eq, maxLong_eq]
  constructor
  · intro h
    split at h
    · next hn =>
      cases h
      exact ⟨_, rfl, Int64.toInt_ofInt_of_le (by omega) (by omega)⟩
    · cases h
  · rintro ⟨c, rfl, rfl⟩
    have := c.le_toInt
    have := c.toInt_lt
    rw [if_pos (by omega), Int64.ofInt_toInt]

theorem fitLong_eq_error {n : Int} {e : Cause} :
    fitLong n = .error e ↔ e = .overflow ∧ ¬(-2 ^ 63 ≤ n ∧ n < 2 ^ 63) := by
  unfold fitLong
  rw [minLong_eq, maxLong_eq]
  split
  · simp; omega
  · simp [eq_comm]; omega

/-- A word and a test for it are as good as the exact number, if the word is that number wrapped
around and the test holds when it does not fit. -/
theorem fitLong_eq_ite {word : Int64} {n : Int} {test : Prop} [Decidable test]
    (hword : Int64.ofInt n = word) (htest : test ↔ ¬(-2 ^ 63 ≤ n ∧ n < 2 ^ 63)) :
    fitLong n = if test then .error .overflow else .ok (.long word) := by
  unfold fitLong
  rw [minLong_eq, maxLong_eq, hword]
  by_cases h : test
  · have := htest.1 h
    rw [if_pos h, if_neg (by omega)]
  · have := mt htest.2 h
    rw [if_neg h, if_pos (by omega)]

theorem fitInteger_eq_ite {word : Int32} {n : Int} {test : Prop} [Decidable test]
    (hword : Int32.ofInt n = word) (htest : test ↔ ¬(-2 ^ 31 ≤ n ∧ n < 2 ^ 31)) :
    fitInteger n = if test then .error .overflow else .ok (.integer word) := by
  unfold fitInteger
  rw [minInteger_eq, maxInteger_eq, hword]
  by_cases h : test
  · have := htest.1 h
    rw [if_pos h, if_neg (by omega)]
  · have := mt htest.2 h
    rw [if_neg h, if_pos (by omega)]

/-! ### `Integer`s -/

theorem bmod_word {n : Int} (hn : -2 ^ 63 ≤ n ∧ n < 2 ^ 63) : n.bmod (2 ^ 64) = n :=
  Int.bmod_eq_of_le (by omega) (by omega)

theorem toInt_integer_bounds (a : Int32) : -2 ^ 31 ≤ a.toInt ∧ a.toInt < 2 ^ 31 :=
  ⟨a.le_toInt, a.toInt_lt⟩

theorem onIntegers_add (a b : Int32) : onIntegers (· + ·) a b = fitInteger (a.toInt + b.toInt) := by
  have ha := toInt_integer_bounds a
  have hb := toInt_integer_bounds b
  rw [onIntegers, Int64.toInt_add, Int32.toInt_toInt64, Int32.toInt_toInt64, bmod_word (by omega)]

theorem onIntegers_subtract (a b : Int32) :
    onIntegers (· - ·) a b = fitInteger (a.toInt - b.toInt) := by
  have ha := toInt_integer_bounds a
  have hb := toInt_integer_bounds b
  rw [onIntegers, Int64.toInt_sub, Int32.toInt_toInt64, Int32.toInt_toInt64, bmod_word (by omega)]

theorem onIntegers_multiply (a b : Int32) :
    onIntegers (· * ·) a b = fitInteger (a.toInt * b.toInt) := by
  have hbound : (a.toInt * b.toInt).natAbs ≤ 2 ^ 31 * 2 ^ 31 := by
    have ha := toInt_integer_bounds a
    have hb := toInt_integer_bounds b
    rw [Int.natAbs_mul]
    exact Nat.mul_le_mul (by omega) (by omega)
  rw [onIntegers, Int64.toInt_mul, Int32.toInt_toInt64, Int32.toInt_toInt64, bmod_word (by omega)]

/-! ### `Long`s -/

theorem toInt_long_bounds (a : Int64) : -2 ^ 63 ≤ a.toInt ∧ a.toInt < 2 ^ 63 :=
  ⟨a.le_toInt, a.toInt_lt⟩

/-- What a word may be that holds a number wrapped around. -/
theorem wrapped (n : Int) : ∃ turns : Int, n.bmod (2 ^ 64) = n + 2 ^ 64 * turns ∧
    -2 ^ 63 ≤ n.bmod (2 ^ 64) ∧ n.bmod (2 ^ 64) < 2 ^ 63 := by
  obtain ⟨turns, hturns⟩ := Int.dvd_bmod_sub_self (x := n) (m := 2 ^ 64)
  have hlow := Int.le_bmod (x := n) (m := 2 ^ 64) (by decide)
  have hhigh := Int.bmod_lt (x := n) (m := 2 ^ 64) (by decide)
  exact ⟨turns, by omega, by omega, by omega⟩

theorem addLongs_eq (a b : Int64) : addLongs a b = fitLong (a.toInt + b.toInt) := by
  have htest : (decide (a < a + b) != decide (0 < b)) = true ↔
      ¬(-2 ^ 63 ≤ a.toInt + b.toInt ∧ a.toInt + b.toInt < 2 ^ 63) := by
    obtain ⟨turns, hsum, hlow, hhigh⟩ := wrapped (a.toInt + b.toInt)
    have ha := toInt_long_bounds a
    have hb := toInt_long_bounds b
    simp only [bne_iff_ne, ne_eq, decide_eq_decide, Int64.lt_iff_toInt_lt, Int64.toInt_add,
      Int64.toInt_zero]
    omega
  rw [fitLong_eq_ite (by rw [Int64.ofInt_add, Int64.ofInt_toInt, Int64.ofInt_toInt]) htest]
  rfl

theorem subtractLongs_eq (a b : Int64) : subtractLongs a b = fitLong (a.toInt - b.toInt) := by
  have htest : (decide (a - b < a) != decide (0 < b)) = true ↔
      ¬(-2 ^ 63 ≤ a.toInt - b.toInt ∧ a.toInt - b.toInt < 2 ^ 63) := by
    obtain ⟨turns, hdifference, hlow, hhigh⟩ := wrapped (a.toInt - b.toInt)
    have ha := toInt_long_bounds a
    have hb := toInt_long_bounds b
    simp only [bne_iff_ne, ne_eq, decide_eq_decide, Int64.lt_iff_toInt_lt, Int64.toInt_sub,
      Int64.toInt_zero]
    omega
  rw [fitLong_eq_ite (by rw [Int64.ofInt_sub, Int64.ofInt_toInt, Int64.ofInt_toInt]) htest]
  rfl

/-- If the wrapped product divided by the first factor gives the second one, the product has not
wrapped around: it differs from the exact product by the remainder of the division, which is too
small to be a turn of the circle. -/
theorem bmod_mul_eq_of_tdiv_eq {a b : Int} (ha : a ≠ 0) (hword : -2 ^ 63 ≤ a ∧ a < 2 ^ 63)
    (hdiv : ((a * b).bmod (2 ^ 64)).tdiv a = b) : (a * b).bmod (2 ^ 64) = a * b := by
  obtain ⟨turns, hturns, -, -⟩ := wrapped (a * b)
  have hremainder : ((a * b).bmod (2 ^ 64)).tmod a = 2 ^ 64 * turns := by
    have := Int.mul_tdiv_add_tmod ((a * b).bmod (2 ^ 64)) a
    rw [hdiv] at this
    omega
  have hsmall : (((a * b).bmod (2 ^ 64)).tmod a).natAbs < 2 ^ 64 := by
    rw [Int.natAbs_tmod]
    have := Nat.mod_lt ((a * b).bmod (2 ^ 64)).natAbs (Int.natAbs_pos.2 ha)
    omega
  omega

theorem multiplyLongs_eq (a b : Int64) : multiplyLongs a b = fitLong (a.toInt * b.toInt) := by
  unfold multiplyLongs
  split
  · next ha =>
    rw [ha, Int64.toInt_zero, Int.zero_mul]
    rfl
  · next ha =>
    have hword := toInt_long_bounds a
    have hother := toInt_long_bounds b
    have hzero : a.toInt ≠ 0 := fun h => ha (Int64.toInt_inj.1 h)
    have hminus : a = -1 ↔ a.toInt = -1 := by rw [← Int64.toInt_inj]; rfl
    have hleast : b = Int64.minValue ↔ b.toInt = -2 ^ 63 := by rw [← Int64.toInt_inj]; rfl
    refine (fitLong_eq_ite (by rw [Int64.ofInt_mul, Int64.ofInt_toInt, Int64.ofInt_toInt]) ?_).symm
    constructor
    · rintro (hdiv | ⟨hminus', hleast'⟩) hfits
      · apply hdiv
        rw [← Int64.toInt_inj, Int64.toInt_div, Int64.toInt_mul, bmod_word hfits,
          Int.mul_tdiv_cancel_left _ hzero, bmod_word hother]
      · rw [hminus.1 hminus', hleast.1 hleast'] at hfits
        omega
    · intro hfits
      by_cases hspecial : a = -1
      · refine .inr ⟨hspecial, ?_⟩
        rw [hminus.1 hspecial] at hfits
        rw [hleast]
        omega
      · refine .inl fun hdiv => hfits ?_
        rw [← Int64.toInt_inj, Int64.toInt_div_of_ne_right _ _ hspecial, Int64.toInt_mul] at hdiv
        rw [← bmod_mul_eq_of_tdiv_eq hzero hword hdiv]
        obtain ⟨-, -, hbounds⟩ := wrapped (a.toInt * b.toInt)
        exact hbounds

/-! ### Quotients and remainders -/

theorem quotient_longs {a b : Int64} (hb : b ≠ 0) :
    quotient .long Int64.minValue a b = fitLong (a.toInt.tdiv b.toInt) := by
  have htest : (b = -1 ∧ a = Int64.minValue) ↔
      ¬(-2 ^ 63 ≤ a.toInt.tdiv b.toInt ∧ a.toInt.tdiv b.toInt < 2 ^ 63) := by
    constructor
    · rintro ⟨rfl, rfl⟩
      decide
    · intro hfits
      refine Classical.byContradiction fun hspecial => ?_
      have hexact : (a / b).toInt = a.toInt.tdiv b.toInt := by
        rcases Classical.not_and_iff_not_or_not.1 hspecial with hb | ha
        · exact Int64.toInt_div_of_ne_right a b hb
        · exact Int64.toInt_div_of_ne_left a b ha
      exact hfits (hexact ▸ toInt_long_bounds (a / b))
  have hword : Int64.ofInt (a.toInt.tdiv b.toInt) = a / b := by
    rw [← Int64.toInt_inj, Int64.toInt_ofInt, Int64.toInt_div]
  rw [quotient, if_neg hb, fitLong_eq_ite hword htest]

theorem quotient_integers {a b : Int32} (hb : b ≠ 0) :
    quotient .integer Int32.minValue a b = fitInteger (a.toInt.tdiv b.toInt) := by
  have htest : (b = -1 ∧ a = Int32.minValue) ↔
      ¬(-2 ^ 31 ≤ a.toInt.tdiv b.toInt ∧ a.toInt.tdiv b.toInt < 2 ^ 31) := by
    constructor
    · rintro ⟨rfl, rfl⟩
      decide
    · intro hfits
      refine Classical.byContradiction fun hspecial => ?_
      have hexact : (a / b).toInt = a.toInt.tdiv b.toInt := by
        rcases Classical.not_and_iff_not_or_not.1 hspecial with hb | ha
        · exact Int32.toInt_div_of_ne_right a b hb
        · exact Int32.toInt_div_of_ne_left a b ha
      exact hfits (hexact ▸ toInt_integer_bounds (a / b))
  have hword : Int32.ofInt (a.toInt.tdiv b.toInt) = a / b := by
    rw [← Int32.toInt_inj, Int32.toInt_ofInt, Int32.toInt_div]
  rw [quotient, if_neg hb, fitInteger_eq_ite hword htest]

/-- What is said to be left over by `-1` is what the division of words leaves. -/
theorem remainder_longs {a b : Int64} (hb : b ≠ 0) : remainder .long a b = .ok (.long (a % b)) := by
  rw [remainder, if_neg hb]
  split
  · next hminus =>
    have hnone : a % b = 0 := by
      rw [← Int64.toInt_inj, Int64.toInt_mod, hminus]
      exact (Int.tmod_neg _ 1).trans (Int.tmod_one _)
    rw [hnone]
  · rfl

theorem remainder_integers {a b : Int32} (hb : b ≠ 0) :
    remainder .integer a b = .ok (.integer (a % b)) := by
  rw [remainder, if_neg hb]
  split
  · next hminus =>
    have hnone : a % b = 0 := by
      rw [← Int32.toInt_inj, Int32.toInt_mod, hminus]
      exact (Int.tmod_neg _ 1).trans (Int.tmod_one _)
    rw [hnone]
  · rfl

end Operation

/-! ### Operators -/

open Operation

/-- On two `Integer`s and on two `Long`s an operator computes exactly by a rule for integers. It
gives a value of the same variant that holds the number, and there is such a value unless the number
is out of the variant's range; then there is an overflow. -/
structure Operator.ExactOnWhole (op : Operator) (rule : Int → Int → Int) : Prop where
  integer_ok : ∀ (a b : Int32) (v : Value), op.apply (.integer a) (.integer b) = .ok v ↔
    ∃ c : Int32, v = .integer c ∧ c.toInt = rule a.toInt b.toInt
  integer_error : ∀ (a b : Int32) (e : Cause), op.apply (.integer a) (.integer b) = .error e ↔
    e = .overflow ∧ ¬(-2 ^ 31 ≤ rule a.toInt b.toInt ∧ rule a.toInt b.toInt < 2 ^ 31)
  long_ok : ∀ (a b : Int64) (v : Value), op.apply (.long a) (.long b) = .ok v ↔
    ∃ c : Int64, v = .long c ∧ c.toInt = rule a.toInt b.toInt
  long_error : ∀ (a b : Int64) (e : Cause), op.apply (.long a) (.long b) = .error e ↔
    e = .overflow ∧ ¬(-2 ^ 63 ≤ rule a.toInt b.toInt ∧ rule a.toInt b.toInt < 2 ^ 63)

/-- An operator is exact if it does what fitting the exact number into the variant does. -/
theorem Operator.ExactOnWhole.of_fit {op : Operator} {rule : Int → Int → Int}
    (hinteger : ∀ a b : Int32,
      op.apply (.integer a) (.integer b) = fitInteger (rule a.toInt b.toInt))
    (hlong : ∀ a b : Int64, op.apply (.long a) (.long b) = fitLong (rule a.toInt b.toInt)) :
    op.ExactOnWhole rule where
  integer_ok a b v := by rw [hinteger, fitInteger_eq_ok]
  integer_error a b e := by rw [hinteger, fitInteger_eq_error]
  long_ok a b v := by rw [hlong, fitLong_eq_ok]
  long_error a b e := by rw [hlong, fitLong_eq_error]

/-- Addition, subtraction and multiplication of whole numbers are exact or overflow. -/
theorem Operator.exactOnWhole :
    Operator.add.ExactOnWhole (· + ·) ∧ Operator.subtract.ExactOnWhole (· - ·) ∧
      Operator.multiply.ExactOnWhole (· * ·) :=
  ⟨.of_fit onIntegers_add addLongs_eq, .of_fit onIntegers_subtract subtractLongs_eq,
    .of_fit onIntegers_multiply multiplyLongs_eq⟩

example : Operator.multiply.apply (.long (-1)) (.long Int64.minValue) = .error .overflow := rfl

/-! ### Whole numbers of both variants -/

/-- A whole number as a program has it: an `Integer` or a `Long`. -/
inductive WholeNumber where
  | integer (word : Int32)
  | long (word : Int64)

namespace WholeNumber

/-- The value that it is. -/
def value : WholeNumber → Value
  | .integer word => .integer word
  | .long word => .long word

/-- The number that it stands for. -/
def toInt : WholeNumber → Int
  | .integer word => word.toInt
  | .long word => word.toInt

/-- Whether it is a `Long`. -/
def isLong : WholeNumber → Bool
  | .integer _ => false
  | .long _ => true

/-- The word of the wider variant. -/
def longWord : WholeNumber → Int64
  | .integer word => word.toInt64
  | .long word => word

/-- A number fits a variant if something of the variant stands for it. -/
def Fits (isLong : Bool) (n : Int) : Prop :=
  ∃ m : WholeNumber, m.isLong = isLong ∧ m.toInt = n

/-- A number as a value of a variant, if it fits. -/
def fit (isLong : Bool) (n : Int) : Fallible Value := if isLong then fitLong n else fitInteger n

theorem toInt_longWord (n : WholeNumber) : n.longWord.toInt = n.toInt := by
  cases n with
  | integer word => exact Int32.toInt_toInt64 word
  | long word => rfl

theorem fit_eq_ok {isLong : Bool} {n : Int} {v : Value} :
    fit isLong n = .ok v ↔ ∃ m : WholeNumber, v = m.value ∧ m.isLong = isLong ∧ m.toInt = n := by
  cases isLong with
  | true =>
    refine fitLong_eq_ok.trans ⟨fun ⟨c, hv, hc⟩ => ⟨.long c, hv, rfl, hc⟩, ?_⟩
    rintro ⟨m | m, hv, hlong, hm⟩
    · cases hlong
    · exact ⟨m, hv, hm⟩
  | false =>
    refine fitInteger_eq_ok.trans ⟨fun ⟨c, hv, hc⟩ => ⟨.integer c, hv, rfl, hc⟩, ?_⟩
    rintro ⟨m | m, hv, hlong, hm⟩
    · exact ⟨m, hv, hm⟩
    · cases hlong

theorem fits_iff {isLong : Bool} {n : Int} : Fits isLong n ↔ ∃ v, fit isLong n = .ok v := by
  refine ⟨fun ⟨m, hlong, hm⟩ => ⟨m.value, fit_eq_ok.2 ⟨m, rfl, hlong, hm⟩⟩, ?_⟩
  rintro ⟨v, hv⟩
  obtain ⟨m, -, hlong, hm⟩ := fit_eq_ok.1 hv
  exact ⟨m, hlong, hm⟩

theorem eq_overflow_of_fit {isLong : Bool} {n : Int} {e : Cause} (h : fit isLong n = .error e) :
    e = .overflow := by
  cases isLong with
  | true => exact (fitLong_eq_error.1 h).1
  | false => exact (fitInteger_eq_error.1 h).1

theorem fit_eq_error {isLong : Bool} {n : Int} {e : Cause} :
    fit isLong n = .error e ↔ e = .overflow ∧ ¬Fits isLong n := by
  rw [fits_iff]
  constructor
  · intro h
    refine ⟨eq_overflow_of_fit h, fun ⟨v, hv⟩ => ?_⟩
    cases h.symm.trans hv
  · rintro ⟨rfl, hnot⟩
    cases h : fit isLong n with
    | ok v => exact absurd ⟨v, h⟩ hnot
    | error e => rw [eq_overflow_of_fit h]

end WholeNumber

/-! ### Division of whole numbers -/

/-- Division with remainder, cut towards zero: what is left over is smaller than the divisor and
lies on the side of the dividend. -/
structure CutDivision (a b q m : Int) : Prop where
  sum : a = q * b + m
  small : m.natAbs < b.natAbs
  side : m = 0 ∨ m.sign = a.sign

theorem cutDivision_tdiv {a b : Int} (hb : b ≠ 0) : CutDivision a b (a.tdiv b) (a.tmod b) where
  sum := by
    have := Int.mul_tdiv_add_tmod a b
    rw [Int.mul_comm] at this
    exact this.symm
  small := by
    rw [Int.natAbs_tmod]
    exact Nat.mod_lt _ (Int.natAbs_pos.2 hb)
  side := by
    rw [Int.sign_tmod]
    split
    · next hdvd => exact .inl (Int.tmod_eq_zero_of_dvd hdvd)
    · exact .inr rfl

theorem CutDivision.divisor_ne_zero {a b q m : Int} (h : CutDivision a b q m) : b ≠ 0 := by
  rintro rfl
  exact absurd h.small (Nat.not_lt_zero _)

/-- There is only one. -/
theorem CutDivision.unique {a b q m : Int} (h : CutDivision a b q m) :
    q = a.tdiv b ∧ m = a.tmod b := by
  have hb := h.divisor_ne_zero
  obtain ⟨hsum, hsmall, hside⟩ := h
  have heq : m + b * q = a := by
    rw [hsum, Int.mul_comm b q, Int.add_comm]
  rcases Int.le_total 0 a with ha | ha
  · have hm : 0 ≤ m := hside.elim (fun h => h ▸ Int.le_refl 0) fun h =>
      Int.sign_nonneg_iff.1 (h ▸ Int.sign_nonneg_iff.2 ha)
    obtain ⟨hq, hm⟩ := (Int.tdiv_tmod_unique ha hb).2 ⟨heq, hm, by omega⟩
    exact ⟨hq.symm, hm.symm⟩
  · have hm : m ≤ 0 := hside.elim (fun h => h ▸ Int.le_refl 0) fun h =>
      Int.sign_nonpos_iff.1 (h ▸ Int.sign_nonpos_iff.2 ha)
    obtain ⟨hq, hm⟩ := (Int.tdiv_tmod_unique' ha hb).2 ⟨heq, by omega, hm⟩
    exact ⟨hq.symm, hm.symm⟩

namespace WholeNumber

/-- A division of whole numbers fails for a zero, and else it computes by a rule for integers in the
wider variant, if it does so in both variants. -/
theorem wholeDivision_eq {onLongs : Int64 → Int64 → Fallible Value}
    {onIntegers : Int32 → Int32 → Fallible Value} {rule : Int → Int → Int}
    (hlongs : ∀ {a b}, b ≠ 0 → onLongs a b = fitLong (rule a.toInt b.toInt))
    (hintegers : ∀ {a b}, b ≠ 0 → onIntegers a b = fitInteger (rule a.toInt b.toInt))
    (hzero : ∀ a, onLongs a 0 = .error .divisionByZero)
    (hzero' : ∀ a, onIntegers a 0 = .error .divisionByZero) (l r : WholeNumber) :
    wholeDivision onLongs onIntegers l.value r.value =
      if r.toInt = 0 then .error .divisionByZero
      else fit (l.isLong || r.isLong) (rule l.toInt r.toInt) := by
  have hwide : onLongs l.longWord r.longWord =
      if r.toInt = 0 then .error .divisionByZero else fitLong (rule l.toInt r.toInt) := by
    have hiff : r.longWord = 0 ↔ r.toInt = 0 := by
      rw [← Int64.toInt_inj, toInt_longWord, Int64.toInt_zero]
    by_cases h : r.longWord = 0
    · rw [if_pos (hiff.1 h), h, hzero]
    · rw [if_neg (mt hiff.2 h), hlongs h, toInt_longWord, toInt_longWord]
  cases l with
  | long a => cases r <;> exact hwide
  | integer a =>
    cases r with
    | long b => exact hwide
    | integer b =>
      have hiff : b = 0 ↔ b.toInt = 0 := by rw [← Int32.toInt_inj, Int32.toInt_zero]
      show onIntegers a b = if b.toInt = 0 then _ else fitInteger (rule a.toInt b.toInt)
      by_cases h : b = 0
      · rw [if_pos (hiff.1 h), h, hzero']
      · rw [if_neg (mt hiff.2 h), hintegers h]

theorem orNothing_value (n : WholeNumber) : n.value.orNothing = n.value := by cases n <;> rfl

theorem integerDivide_apply (l r : WholeNumber) :
    Operator.integerDivide.apply l.value r.value =
      if r.toInt = 0 then .error .divisionByZero
      else fit (l.isLong || r.isLong) (l.toInt.tdiv r.toInt) := by
  rw [Operator.apply, orNothing_value, orNothing_value]
  exact wholeDivision_eq quotient_longs quotient_integers (fun _ => rfl) (fun _ => rfl) l r

theorem modulo_apply (l r : WholeNumber) :
    Operator.modulo.apply l.value r.value =
      if r.toInt = 0 then .error .divisionByZero
      else fit (l.isLong || r.isLong) (l.toInt.tmod r.toInt) := by
  rw [Operator.apply, orNothing_value, orNothing_value]
  refine wholeDivision_eq (fun hb => ?_) (fun hb => ?_) (fun _ => rfl) (fun _ => rfl) l r
  · rw [remainder_longs hb]
    exact (fitLong_eq_ok.2 ⟨_, rfl, Int64.toInt_mod _ _⟩).symm
  · rw [remainder_integers hb]
    exact (fitInteger_eq_ok.2 ⟨_, rfl, Int32.toInt_mod _ _⟩).symm

/-- What is left over fits, since it is no larger than the divisor. -/
theorem fits_tmod (l r : WholeNumber) :
    Fits (l.isLong || r.isLong) (l.toInt.tmod r.toInt) := by
  cases l with
  | long a => exact ⟨.long (a % r.longWord), rfl, by
      rw [← toInt_longWord r]; exact Int64.toInt_mod _ _⟩
  | integer a =>
    cases r with
    | long b => exact ⟨.long (a.toInt64 % b), rfl, by
        show (a.toInt64 % b).toInt = a.toInt.tmod b.toInt
        rw [Int64.toInt_mod, Int32.toInt_toInt64]⟩
    | integer b => exact ⟨.integer (a % b), rfl, Int32.toInt_mod _ _⟩

end WholeNumber

open WholeNumber

/-- Both divisions of whole numbers fail for a zero, and the quotient if it does not fit the wider
variant of the operands. What they give otherwise is of this variant, and it is the division with
remainder of the numbers. -/
theorem Operator.divides_whole (l r : WholeNumber) :
    (∀ e, Operator.integerDivide.apply l.value r.value = .error e ↔
      (e = .divisionByZero ∧ r.toInt = 0) ∨
      (e = .overflow ∧ ∃ q m, CutDivision l.toInt r.toInt q m ∧
        ¬Fits (l.isLong || r.isLong) q)) ∧
    (∀ e, Operator.modulo.apply l.value r.value = .error e ↔
      e = .divisionByZero ∧ r.toInt = 0) ∧
    ∀ v, Operator.modulo.apply l.value r.value = .ok v →
      ∃ (q : Int) (m : WholeNumber), v = m.value ∧ m.isLong = (l.isLong || r.isLong) ∧
        CutDivision l.toInt r.toInt q m.toInt ∧
        ∀ u, Operator.integerDivide.apply l.value r.value = .ok u →
          ∃ n : WholeNumber, u = n.value ∧ n.isLong = (l.isLong || r.isLong) ∧ n.toInt = q := by
  rw [integerDivide_apply, modulo_apply]
  by_cases hr : r.toInt = 0
  · rw [if_pos hr, if_pos hr]
    refine ⟨fun e => ⟨?_, ?_⟩, fun e => ⟨?_, ?_⟩, fun v hv => nomatch hv⟩
    · rintro ⟨⟩
      exact .inl ⟨rfl, hr⟩
    · rintro (⟨rfl, -⟩ | ⟨-, q, m, hdivision, -⟩)
      · rfl
      · exact absurd hr hdivision.divisor_ne_zero
    · rintro ⟨⟩
      exact ⟨rfl, hr⟩
    · rintro ⟨rfl, -⟩
      rfl
  · rw [if_neg hr, if_neg hr]
    have hcut := cutDivision_tdiv (a := l.toInt) hr
    refine ⟨fun e => ?_, fun e => ?_, fun v hv => ?_⟩
    · rw [fit_eq_error]
      constructor
      · rintro ⟨he, hfits⟩
        exact .inr ⟨he, _, _, hcut, hfits⟩
      · rintro (⟨-, hzero⟩ | ⟨he, q, m, hdivision, hfits⟩)
        · exact absurd hzero hr
        · exact ⟨he, hdivision.unique.1 ▸ hfits⟩
    · rw [fit_eq_error]
      exact ⟨fun h => absurd (fits_tmod l r) h.2, fun h => absurd h.2 hr⟩
    · obtain ⟨m, hv, hlong, hm⟩ := fit_eq_ok.1 hv
      exact ⟨_, m, hv, hlong, hm ▸ hcut, fun u hu => fit_eq_ok.1 hu⟩

example : Operator.integerDivide.apply (.long Int64.minValue) (.integer (-1)) = .error .overflow :=
  rfl

end FormBasic
