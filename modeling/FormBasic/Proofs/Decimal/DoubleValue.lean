import FormBasic.Calendar
import FormBasic.Proofs.Decimal.FloatPattern
import FormBasic.Proofs.Decimal.WholeNumber

/-!
# The numbers that doubles stand for

A finite double stands for a rational number. The operations that the machine uses on doubles are
described by these numbers: negation, the order, the double of a whole number, and the word of a
double. The double of a whole number stands for the nearest whole number that a double has room for;
what is proved here is that the logic's own way of making it, by shifting and rounding the parts of
a number twice, ends with that one.

## Main definitions

* `value?` — the number that a double stands for

## Main results

* `BinaryFormat.toNat_pack_round` — rounding of the parts of a number
* `eq_of_value`, `le_iff_of_value`, `lt_iff_of_value` — doubles are told apart and ordered by what
  they stand for
* `value?_neg`, `value?_ofInt` — negation, and whole numbers as doubles
* `wordOfFloat_of_value` — a double as a word
-/

namespace FormBasic.Decimal

open Float.Model Float.Model.UnpackedFloat

namespace BinaryFormat

variable {spec : Format}

/-! ### Rounding of the parts of a number -/

/-- Of the places that are shifted out, the first one is kept, and whether any other was set. -/
theorem shiftRight_succ (m k : Nat) :
    ExtendedMantissa.ofMantissaAndAccuracy m .exact >>> (k + 1) =
      ⟨m / 2 ^ (k + 1), m / 2 ^ k % 2 != 0, m % 2 ^ k != 0⟩ := by
  induction k with
  | zero =>
    show ExtendedMantissa.shiftRightOne ⟨m, false, false⟩ = _
    simp [ExtendedMantissa.shiftRightOne, Nat.mod_one]
  | succ k ih =>
    show ExtendedMantissa.shiftRightOne
      (ExtendedMantissa.ofMantissaAndAccuracy m .exact >>> (k + 1)) = _
    rw [ih, ExtendedMantissa.shiftRightOne]
    have hrest : m % 2 ^ (k + 1) = m % 2 ^ k + 2 ^ k * (m / 2 ^ k % 2) := Nat.mod_pow_succ
    have hpow : 2 ^ k ≠ 0 := (Nat.two_pow_pos k).ne'
    congr 1
    · rw [Nat.div_div_eq_div_mul, Nat.pow_succ 2 (k + 1)]
    · rw [hrest]
      rcases Nat.mod_two_eq_zero_or_one (m / 2 ^ k) with h | h <;> simp [h]

theorem roundedMantissa_eq (q : Nat) (half rest : Bool) :
    (⟨q, half, rest⟩ : ExtendedMantissa).roundedMantissa =
      if half then (if rest then q + 1 else q + q % 2) else q := by
  cases half <;> cases rest <;> rfl

/-- Shifting and rounding is division, rounded. -/
theorem roundedMantissa_shiftRight (m k : Nat) :
    (ExtendedMantissa.ofMantissaAndAccuracy m .exact >>> k).roundedMantissa =
      divEven m (2 ^ k) := by
  cases k with
  | zero =>
    rw [Nat.pow_zero, ← Nat.mul_one m, divEven_mul_self m one_pos, Nat.mul_one]
    rfl
  | succ k =>
    have hrest : m % 2 ^ (k + 1) = m % 2 ^ k + 2 ^ k * (m / 2 ^ k % 2) := Nat.mod_pow_succ
    have hlow := Nat.mod_lt m (Nat.two_pow_pos k)
    rw [shiftRight_succ, divEven, hrest, Nat.pow_succ]
    generalize m % 2 ^ k = low at *
    generalize m / (2 ^ k * 2) = q at *
    rcases Nat.mod_two_eq_zero_or_one (m / 2 ^ k) with h | h <;> rw [h]
    · -- less than a half is left over
      rw [if_pos (by omega), roundedMantissa_eq]
      rfl
    · rw [if_neg (by omega)]
      by_cases hzero : low = 0
      · rw [if_neg (by omega), roundedMantissa_eq, hzero]
        rcases Nat.mod_two_eq_zero_or_one q with hq | hq <;> rw [hq] <;> rfl
      · rw [if_pos (by omega), roundedMantissa_eq, bne_iff_ne.2 hzero]
        rfl

theorem targetExponent_eq (spec : Format) (m : Nat) (e : Int) :
    spec.targetExponent (totalExponent m e) =
      max (m.log2 + e - spec.mantissaBitsWithoutImplicit) (ofFormat spec).minExponent := by
  simp only [Format.targetExponent, totalExponent, Format.minExponent, Format.mantissaBits,
    minExponent, ofFormat, twoTo, Nat.pow_eq]
  push_cast
  omega

theorem targetExponent_eq_unitExponent (spec : Format) {m : Nat} (e : Int) (hm : m ≠ 0) :
    spec.targetExponent (totalExponent m e) = (ofFormat spec).unitExponent (m * 2 ^ e) := by
  rw [targetExponent_eq, unitExponent, log_mul_zpow e hm]
  rfl

/-- A significand that there is room for is not shifted. -/
theorem shiftToTargetExponent_of_lt {m : Nat} {e : Int}
    (hm : m < 2 ^ (spec.mantissaBitsWithoutImplicit + 1)) (he : (ofFormat spec).minExponent ≤ e) :
    shiftToTargetExponent spec m e .exact = (⟨m, false, false⟩, e) := by
  have hlog : m.log2 ≤ spec.mantissaBitsWithoutImplicit := by
    rcases Nat.eq_zero_or_pos m with rfl | hpos
    · exact Nat.zero_le _
    · exact Nat.le_of_lt_succ ((Nat.log2_lt hpos.ne').2 hm)
  have hshift : (spec.targetExponent (totalExponent m e) - e).toNat = 0 := by
    rw [targetExponent_eq]
    omega
  rw [shiftToTargetExponent, shiftToExponent, hshift]
  exact congrArg _ (Int.add_zero e)

/-- A significand that has carried is shifted by one place, and nothing is lost. -/
theorem shiftToTargetExponent_of_carry {e : Int} (he : (ofFormat spec).minExponent ≤ e) :
    shiftToTargetExponent spec (2 ^ (spec.mantissaBitsWithoutImplicit + 1)) e .exact =
      (⟨2 ^ spec.mantissaBitsWithoutImplicit, false, false⟩, e + 1) := by
  have hshift : (spec.targetExponent
      (totalExponent (2 ^ (spec.mantissaBitsWithoutImplicit + 1)) e) - e).toNat = 0 + 1 := by
    rw [targetExponent_eq, Nat.log2_two_pow]
    omega
  rw [shiftToTargetExponent, shiftToExponent, hshift, shiftRight_succ]
  simp [Nat.pow_succ, Nat.mod_one]

/-- Parts of a number whose last place is not above the one that the format has for it are rounded
to the units of that place. -/
theorem exists_roundWithAccuracy_eq (negative : Bool) {m : Nat} {e : Int} (hm : m ≠ 0)
    (he : e ≤ (ofFormat spec).unitExponent (m * 2 ^ e)) {num den : Nat} (hden : den ≠ 0)
    (hq : (num : ℚ) / den = m * 2 ^ e) :
    ∃ m' e', (ofFormat spec).Canonical m' e' ∧
      (m' : ℚ) * 2 ^ e' = units num den ((ofFormat spec).unitExponent (m * 2 ^ e)) *
        2 ^ (ofFormat spec).unitExponent (m * 2 ^ e) ∧
      roundWithAccuracy spec (signOf negative) m e .exact =
        unpacked (.finite negative m' e') := by
  obtain ⟨hbound, hfull⟩ := units_bounds (ofFormat spec) (ne_zero_of_div_eq hm hq) hden
  rw [hq] at hbound hfull
  have hleast : (ofFormat spec).minExponent ≤ (ofFormat spec).unitExponent (m * 2 ^ e) :=
    le_max_right _ _
  have hfirst : shiftToTargetExponent spec m e .exact =
      (ExtendedMantissa.ofMantissaAndAccuracy m .exact >>>
        ((ofFormat spec).unitExponent (m * 2 ^ e) - e).toNat,
        (ofFormat spec).unitExponent (m * 2 ^ e)) := by
    rw [shiftToTargetExponent, shiftToExponent, targetExponent_eq_unitExponent spec e hm]
    congr 1
    omega
  have hunits := units_eq_divEven (Nat.pos_of_ne_zero hden) hq he
  generalize (ofFormat spec).unitExponent (m * 2 ^ e) = t at *
  -- what is packed is what is left after the second shift
  have hsecond : roundWithAccuracy spec (signOf negative) m e .exact =
      unpacked (.finite negative
        (shiftToTargetExponent spec (units num den t) t .exact).1.mantissa
        (shiftToTargetExponent spec (units num den t) t .exact).2) := by
    simp only [roundWithAccuracy, hfirst, roundedMantissa_shiftRight, ← hunits]
    rfl
  rw [hsecond]
  rcases Nat.lt_or_eq_of_le hbound with hlt | hcarry
  · refine ⟨units num den t, t, ⟨hlt, hleast, hfull⟩, rfl, ?_⟩
    rw [shiftToTargetExponent_of_lt hlt hleast]
  · rw [hcarry]
    refine ⟨2 ^ spec.mantissaBitsWithoutImplicit, t + 1,
      ⟨Nat.pow_lt_pow_succ one_lt_two, by omega, .inl (Nat.le_refl _)⟩, ?_, ?_⟩
    · push_cast
      rw [zpow_add_one₀ two_ne_zero, show (ofFormat spec).fractionBits =
        spec.mantissaBitsWithoutImplicit from rfl]
      ring
    · rw [show (ofFormat spec).fractionBits = spec.mantissaBitsWithoutImplicit from rfl,
        shiftToTargetExponent_of_carry hleast]

/-- Parts of a number are rounded to the nearest pattern. -/
theorem toNat_pack_roundWithAccuracy (hbits : 1 < spec.exponentBits) (negative : Bool) {m : Nat}
    {e : Int} (hm : m ≠ 0) (he : e ≤ (ofFormat spec).unitExponent (m * 2 ^ e)) {num den : Nat}
    (hden : den ≠ 0) (hq : (num : ℚ) / den = m * 2 ^ e) :
    (UnpackedFloat.pack spec (roundWithAccuracy spec (signOf negative) m e .exact)).toNat =
      (ofFormat spec).withSign negative
        (((ofFormat spec).nearest num den).getD (ofFormat spec).infinityBits) := by
  obtain ⟨m', e', hcanonical, hvalue, hround⟩ :=
    exists_roundWithAccuracy_eq negative hm he hden hq
  obtain ⟨m'', e'', hcanonical', hvalue', hnearest⟩ :=
    exists_nearest_eq (ofFormat spec) (ne_zero_of_div_eq hm hq) hden
  rw [hq] at hvalue'
  obtain ⟨rfl, rfl⟩ := hcanonical.eq_of_value_eq hcanonical' (hvalue.trans hvalue'.symm)
  rw [hround, toNat_pack_finite hbits negative hcanonical, hnearest]
  split
  · next hfits => rw [min_eq_left hfits.le, Option.getD_some]
  · next hfits => rw [min_eq_right (not_lt.1 hfits), Option.getD_none]

/-- The same when the last place may be above the one that the format has for it. -/
theorem toNat_pack_round (hbits : 1 < spec.exponentBits) (negative : Bool) {m : Nat} (e : Int)
    (hm : m ≠ 0) {num den : Nat} (hden : den ≠ 0) (hq : (num : ℚ) / den = m * 2 ^ e) :
    (UnpackedFloat.pack spec (UnpackedFloat.round spec (signOf negative) m e)).toNat =
      (ofFormat spec).withSign negative
        (((ofFormat spec).nearest num den).getD (ofFormat spec).infinityBits) := by
  have htarget := targetExponent_eq_unitExponent spec e hm
  simp only [UnpackedFloat.round, decreaseExponent, htarget, Nat.shiftLeft_eq]
  generalize ht : (ofFormat spec).unitExponent (m * 2 ^ e) = t
  have hvalue : ((m * 2 ^ (e - t).toNat : Nat) : ℚ) * 2 ^ (e - (e - t).toNat) = m * 2 ^ e := by
    rw [zpow_sub₀ two_ne_zero, zpow_natCast]
    push_cast
    field_simp
  refine toNat_pack_roundWithAccuracy hbits negative (Nat.mul_ne_zero hm (by positivity)) ?_ hden
    (hq.trans hvalue.symm)
  rw [hvalue, ht]
  omega

end BinaryFormat

/-! ### Whole numbers as doubles -/

/-- A word that is no longer than a significand makes the double that stands for it. -/
theorem exists_unpack_toFloat {n : Nat} (hn : n ≠ 0) (h : n < 2 ^ 53) :
    ∃ m e, BinaryFormat.double.Canonical m e ∧ (m : ℚ) * 2 ^ e = n ∧
      n.toUInt64.toFloat.toModel.unpack = BinaryFormat.unpacked (.finite false m e) := by
  have hexact : BinaryFormat.double.nearestWhole n = n := BinaryFormat.nearestWhole_of_lt h
  have hrange : BinaryFormat.double.nearestWhole n < BinaryFormat.double.limit :=
    hexact.trans_lt (BinaryFormat.lt_limit h.le (by decide))
  obtain ⟨m, e, hcanonical, hfits, hvalue, hnearest⟩ := BinaryFormat.exists_nearest_whole hrange
  refine ⟨m, e, hcanonical, hvalue.trans (congrArg _ hexact), ?_⟩
  have hword : n.toUInt64.toNat = n := Nat.mod_eq_of_lt (h.trans (by decide))
  have hround : UnpackedFloat.ofUInt64 .binary64 n.toUInt64 =
      UnpackedFloat.round .binary64 (BinaryFormat.signOf false) n 0 := by
    have hcompare : compare (n : Int) 0 = .gt := Int.compare_eq_gt.2 (by omega)
    rw [UnpackedFloat.ofUInt64, UnpackedFloat.ofNat, UnpackedFloat.ofInt,
      UnpackedFloat.normalize, hword, hcompare]
    rfl
  have hpattern := @BinaryFormat.toNat_pack_round .binary64 (by decide) false n 0 hn n 1
    one_ne_zero (by simp)
  rw [← hround, show BinaryFormat.ofFormat .binary64 = .double from rfl, hnearest,
    Option.getD_some] at hpattern
  show UnpackedFloat.unpack .binary64
    (UnpackedFloat.pack .binary64 (UnpackedFloat.ofUInt64 .binary64 n.toUInt64)) = _
  rw [BinaryFormat.unpack_eq, hpattern]
  exact congrArg _ (BinaryFormat.decode_pattern false hcanonical hfits)

/-- One, as the double by which short numbers are multiplied. -/
theorem unpack_one : (Float.ofBits 0x3FF0000000000000).toModel.unpack =
    .finite .positive (2 ^ 52) (-52) (Nat.two_pow_pos 52) := by
  have hone : decodeDouble (Float.ofBits 0x3FF0000000000000) = .finite false (2 ^ 52) (-52) := by
    decide
  rw [unpack_toModel, hone]
  rfl

/-- A short number is made as the product with one of a number that is exact. -/
theorem toNat_toBits_ofNat_of_lt {n : Nat} (hn : n ≠ 0) (h : n < 2 ^ 53) :
    (Float.ofNat n).toBits.toNat =
      (BinaryFormat.double.nearest n 1).getD BinaryFormat.double.infinityBits := by
  obtain ⟨m, e, hcanonical, hvalue, hparts⟩ := exists_unpack_toFloat hn h
  have hm : m ≠ 0 := by
    rintro rfl
    rw [Nat.cast_zero, zero_mul] at hvalue
    exact hn (Nat.cast_eq_zero.1 hvalue.symm)
  have hbits : (Float.ofNat n).toBits.toBitVec = UnpackedFloat.pack .binary64
      (UnpackedFloat.mul .binary64 n.toUInt64.toFloat.toModel.unpack
        (Float.ofBits 0x3FF0000000000000).toModel.unpack) := by
    show (Float.ofScientific n false 0).toBits.toBitVec = _
    rw [Float.ofScientific, dif_pos ⟨h, by decide⟩]
    rfl
  have hproduct : ((m * 2 ^ 52 : Nat) : ℚ) * 2 ^ (e + -52) = m * 2 ^ e := by
    rw [zpow_add₀ two_ne_zero, Nat.cast_mul, Nat.cast_pow, Nat.cast_ofNat]
    norm_num
    ring
  have hplace : e + -52 ≤
      BinaryFormat.double.unitExponent ((m * 2 ^ 52 : Nat) * 2 ^ (e + -52)) := by
    rw [hproduct, hcanonical.unitExponent_eq hm]
    omega
  have hround := @BinaryFormat.toNat_pack_roundWithAccuracy .binary64 (by decide) false _ _
    (Nat.mul_ne_zero hm (by decide)) hplace n 1 one_ne_zero
    (by rw [hproduct, hvalue, Nat.cast_one, div_one])
  rw [hparts, unpack_one, BinaryFormat.unpacked_finite _ _ hm] at hbits
  exact (congrArg BitVec.toNat hbits).trans hround

/-- A long number is shifted by the length of a significand before it is rounded. -/
theorem toNat_toBits_ofNat_of_le {n : Nat} (h : 2 ^ 53 ≤ n) :
    (Float.ofNat n).toBits.toNat =
      (BinaryFormat.double.nearest n 1).getD BinaryFormat.double.infinityBits := by
  have hn : n ≠ 0 := ((Nat.two_pow_pos 53).trans_le h).ne'
  have hbits : (Float.ofNat n).toBits.toBitVec = UnpackedFloat.pack .binary64
      (UnpackedFloat.ofScientific .binary64 n 0) := by
    show (Float.ofScientific n false 0).toBits.toBitVec = _
    rw [Float.ofScientific, dif_neg (fun hshort => Nat.not_lt.2 h hshort.1)]
    rfl
  have hproduct : (((n <<< 53) * 10 ^ 0 : Nat) : ℚ) * 2 ^ (-53 + 0 : Int) = n := by
    rw [Nat.shiftLeft_eq, Nat.pow_zero, Nat.mul_one, Nat.cast_mul, Nat.cast_pow, Nat.cast_ofNat]
    norm_num
    ring
  have hplace : (-53 + 0 : Int) ≤ BinaryFormat.double.unitExponent
      (((n <<< 53) * 10 ^ 0 : Nat) * 2 ^ (-53 + 0 : Int)) := by
    have hlog : (52 : Int) ≤ Nat.log2 n := by
      exact_mod_cast ((Nat.le_log2 hn).2 h).trans' (by decide)
    rw [hproduct, BinaryFormat.unitExponent, Int.log_natCast, ← Nat.log2_eq_log_two]
    refine le_max_of_le_left ?_
    show (-53 + 0 : Int) ≤ Nat.log2 n - (52 : Nat)
    omega
  have hround := @BinaryFormat.toNat_pack_roundWithAccuracy .binary64 (by decide) false _ _
    (by simp [Nat.shiftLeft_eq, hn]) hplace n 1 one_ne_zero
    (by rw [hproduct, Nat.cast_one, div_one])
  have hnotsmall : ¬ (0 : Int) < -((2 ^ Format.binary64.exponentBits : Int) + n.log2) := by
    have : (0 : Int) ≤ 2 ^ Format.binary64.exponentBits := by positivity
    omega
  rw [UnpackedFloat.ofScientific, dif_neg hn, if_neg (by decide), if_neg hnotsmall,
    if_pos (Int.le_refl 0)] at hbits
  exact (congrArg BitVec.toNat hbits).trans hround

/-- A natural number is taken to the nearest double, or to infinity if it is out of range. -/
theorem toNat_toBits_ofNat (n : Nat) :
    (Float.ofNat n).toBits.toNat =
      (BinaryFormat.double.nearest n 1).getD BinaryFormat.double.infinityBits := by
  rcases eq_or_ne n 0 with rfl | hn
  · rfl
  rcases Nat.lt_or_ge n (2 ^ 53) with hshort | hlong
  · exact toNat_toBits_ofNat_of_lt hn hshort
  · exact toNat_toBits_ofNat_of_le hlong

/-! ### The number that a double stands for -/

/-- The number that a finite pattern stands for. -/
def Binary.value? : Binary → Option ℚ
  | .finite negative m e => some (if negative then -(m * 2 ^ e) else m * 2 ^ e)
  | _ => none

/-- The number that a double stands for, if it is finite. -/
def value? (x : Float) : Option ℚ := (decodeDouble x).value?

/-- What a double with a value is made of. -/
theorem exists_decode_of_value {x : Float} {a : ℚ} (h : value? x = some a) :
    ∃ negative m e, decodeDouble x = .finite negative m e ∧ BinaryFormat.double.Canonical m e ∧
      a = if negative then -((m : ℚ) * 2 ^ e) else (m : ℚ) * 2 ^ e := by
  have hhas := has_decodeDouble x
  unfold value? at h
  rcases hd : decodeDouble x with _ | _ | ⟨negative, m, e⟩ <;> rw [hd] at h hhas
  · cases h
  · cases h
  · exact ⟨negative, m, e, rfl, hhas.1, (Option.some.inj h).symm⟩

theorem isNaN_of_value {x : Float} {a : ℚ} (h : value? x = some a) : x.isNaN = false := by
  obtain ⟨negative, m, e, hd, -, -⟩ := exists_decode_of_value h
  have hunpack : x.isNaN = x.toModel.unpack.isNaN := rfl
  rw [hunpack, unpack_toModel, hd, BinaryFormat.unpacked]
  split <;> rfl

/-- Only zero has two doubles. -/
theorem eq_of_value {x y : Float} {a : ℚ} (hx : value? x = some a) (hy : value? y = some a)
    (ha : a ≠ 0) : x = y := by
  obtain ⟨n, m, e, hd, hcanonical, hvalue⟩ := exists_decode_of_value hx
  obtain ⟨n', m', e', hd', hcanonical', hvalue'⟩ := exists_decode_of_value hy
  have hnonneg : (0 : ℚ) ≤ m * 2 ^ e := by positivity
  have hnonneg' : (0 : ℚ) ≤ m' * 2 ^ e' := by positivity
  have hsame : n = n' ∧ (m : ℚ) * 2 ^ e = m' * 2 ^ e' := by
    rw [hvalue] at ha hvalue'
    cases n <;> cases n' <;> simp only [Bool.false_eq_true, if_false, if_true] at ha hvalue'
    · exact ⟨rfl, hvalue'⟩
    · exact absurd (le_antisymm (hvalue'.trans_le (neg_nonpos.2 hnonneg')) hnonneg) ha
    · exact absurd (le_antisymm (neg_nonpos.2 hnonneg) (hnonneg'.trans_eq hvalue'.symm)) ha
    · exact ⟨rfl, neg_injective hvalue'⟩
  obtain ⟨rfl, rfl⟩ := hcanonical.eq_of_value_eq hcanonical' hsame.2
  obtain ⟨-, -, hbits⟩ := BinaryFormat.exists_pattern_of_decode x.toBits.toNat_lt hd
  obtain ⟨-, -, hbits'⟩ := BinaryFormat.exists_pattern_of_decode y.toBits.toNat_lt hd'
  rw [← doubleOfBits_toBits x, ← doubleOfBits_toBits y, hbits, hbits', hsame.1]

theorem value?_neg (x : Float) : value? (-x) = (value? x).map (-·) := by
  have hparts : (-x).toModel =
      .pack (UnpackedFloat.neg (BinaryFormat.unpacked (decodeDouble x))) := by
    rw [← unpack_toModel]
    rfl
  have hhas := has_decodeDouble x
  have hdecode : ∀ d, BinaryFormat.double.Has d →
      (BinaryFormat.unpacked (decodeDouble x)).neg = BinaryFormat.unpacked d →
      decodeDouble (-x) = d := fun d hd heq => by
    rw [heq] at hparts
    rw [← decodeDouble_pack hd, ← hparts]
  unfold value?
  rcases hd : decodeDouble x with _ | negative | ⟨negative, m, e⟩ <;> rw [hd] at hdecode hhas
  · rw [hdecode .nan trivial rfl]
    rfl
  · rw [hdecode (.infinity !negative) trivial (by cases negative <;> rfl)]
    rfl
  · rw [hdecode (.finite (!negative) m e) hhas]
    · cases negative <;> simp [Binary.value?]
    · rcases eq_or_ne m 0 with rfl | hm
      · cases negative <;> rfl
      · rw [BinaryFormat.unpacked_finite _ _ hm, BinaryFormat.unpacked_finite _ _ hm]
        cases negative <;> rfl

theorem compare_neg (a b : ℚ) : Ord.compare (-a) (-b) = (Ord.compare a b).swap := by
  rcases lt_trichotomy a b with h | h | h
  · rw [compare_lt_iff_lt.2 h]
    exact compare_gt_iff_gt.2 (neg_lt_neg h)
  · rw [h, compare_eq_iff_eq.2 rfl, compare_eq_iff_eq.2 rfl]
    rfl
  · rw [compare_gt_iff_gt.2 h]
    exact compare_lt_iff_lt.2 (neg_lt_neg h)

/-- The order of doubles is the order of the numbers that they stand for. -/
theorem compare_unpack {x y : Float} {a b : ℚ} (hx : value? x = some a) (hy : value? y = some b) :
    x.toModel.unpack.compare y.toModel.unpack = some (compare a b) := by
  obtain ⟨n, m, e, hd, hcanonical, ha⟩ := exists_decode_of_value hx
  obtain ⟨n', m', e', hd', hcanonical', hb⟩ := exists_decode_of_value hy
  rw [unpack_toModel, unpack_toModel, hd, hd']
  have hpos : ∀ {m : Nat} (e : Int), m ≠ 0 → (0 : ℚ) < m * 2 ^ e := fun e hm =>
    mul_pos (Nat.cast_pos.2 (Nat.pos_of_ne_zero hm)) (by positivity)
  have hlt : a < b → some Ordering.lt = some (compare a b) := fun h => by
    rw [compare_lt_iff_lt.2 h]
  have hgt : b < a → some Ordering.gt = some (compare a b) := fun h => by
    rw [compare_gt_iff_gt.2 h]
  rcases eq_or_ne m 0 with rfl | hm <;> rcases eq_or_ne m' 0 with rfl | hm'
  · rw [Nat.cast_zero, zero_mul, neg_zero, ite_self] at ha hb
    rw [ha, hb, compare_eq_iff_eq.2 rfl]
    rfl
  · rw [Nat.cast_zero, zero_mul, neg_zero, ite_self] at ha
    have hb' := hpos e' hm'
    rw [BinaryFormat.unpacked_zero, BinaryFormat.unpacked_finite _ _ hm']
    cases n'
    · exact hlt (by rw [ha, hb]; exact hb')
    · exact hgt (by rw [ha, hb]; exact neg_lt_zero.2 hb')
  · rw [Nat.cast_zero, zero_mul, neg_zero, ite_self] at hb
    have ha' := hpos e hm
    rw [BinaryFormat.unpacked_zero, BinaryFormat.unpacked_finite _ _ hm]
    cases n
    · exact hgt (by rw [ha, hb]; exact ha')
    · exact hlt (by rw [ha, hb]; exact neg_lt_zero.2 ha')
  · have ha' := hpos e hm
    have hb' := hpos e' hm'
    rw [BinaryFormat.unpacked_finite _ _ hm, BinaryFormat.unpacked_finite _ _ hm']
    cases n <;> cases n'
    · rw [ha, hb]
      exact congrArg some (hcanonical.compare_eq hcanonical')
    · exact hgt (by rw [ha, hb]; exact (neg_lt_zero.2 hb').trans ha')
    · exact hlt (by rw [ha, hb]; exact (neg_lt_zero.2 ha').trans hb')
    · rw [ha, hb]
      exact congrArg some ((congrArg Ordering.swap (hcanonical.compare_eq hcanonical')).trans
        (compare_neg _ _).symm)

theorem le_iff_of_value {x y : Float} {a b : ℚ} (hx : value? x = some a) (hy : value? y = some b) :
    x ≤ y ↔ a ≤ b := by
  have hle : x ≤ y ↔ (x.toModel.unpack.compare y.toModel.unpack).any (·.isLE) = true := by
    show decide (x.toModel ≤ y.toModel) = true ↔ _
    rw [decide_eq_true_eq]
    rfl
  rw [hle, compare_unpack hx hy, Option.any_some, ← Ordering.ne_gt_iff_isLE]
  exact compare_le_iff_le

theorem lt_iff_of_value {x y : Float} {a b : ℚ} (hx : value? x = some a) (hy : value? y = some b) :
    x < y ↔ a < b := by
  have hlt : x < y ↔ (x.toModel.unpack.compare y.toModel.unpack == some .lt) = true := by
    show decide (x.toModel < y.toModel) = true ↔ _
    rw [decide_eq_true_eq]
    rfl
  rw [hlt, compare_unpack hx hy, ← compare_lt_iff_lt]
  simp

/-- A whole number is taken to the double that stands for the nearest whole number. -/
theorem value?_ofNat {n : Nat}
    (h : BinaryFormat.double.nearestWhole n < BinaryFormat.double.limit) :
    value? (Float.ofNat n) = some (BinaryFormat.double.nearestWhole n : ℚ) := by
  obtain ⟨m, e, hcanonical, hfits, hvalue, hnearest⟩ := BinaryFormat.exists_nearest_whole h
  have hdecode : decodeDouble (Float.ofNat n) = .finite false m e := by
    rw [decodeDouble, toNat_toBits_ofNat, hnearest]
    exact BinaryFormat.decode_pattern false hcanonical hfits
  rw [value?, hdecode, ← hvalue]
  rfl

theorem value?_ofInt {n : Int}
    (h : BinaryFormat.double.nearestWhole n.natAbs < BinaryFormat.double.limit) :
    value? (Float.ofInt n) = some (nearestInt n : ℚ) := by
  rcases n with n | n
  · have hn : ¬ Int.ofNat n < 0 := Int.not_lt.2 (Int.natCast_nonneg n)
    rw [nearestInt, if_neg hn]
    exact value?_ofNat h
  · have hvalue : value? (Float.ofNat (n + 1)) = _ := value?_ofNat h
    rw [nearestInt, if_pos (Int.negSucc_lt_zero n)]
    refine (value?_neg (Float.ofNat (n + 1))).trans ?_
    rw [hvalue]
    simp

theorem value?_ofInt_of_natAbs_le {n : Int} {k : Nat} (h : n.natAbs ≤ 2 ^ k) (hk : k < 1024) :
    value? (Float.ofInt n) = some (nearestInt n : ℚ) := by
  refine value?_ofInt (BinaryFormat.lt_limit (k := k) ?_ hk)
  rw [← natAbs_nearestInt]
  exact natAbs_nearestInt_le h

/-! ### Whole numbers from doubles -/

/-- A whole number of units is a whole number, in whole numbers. -/
theorem mul_two_pow_eq {m k : Nat} {e : Int} (h : (m : ℚ) * 2 ^ e = k) :
    m * 2 ^ e.toNat = k * 2 ^ (-e).toNat := by
  rw [BinaryFormat.two_zpow_eq_div, ← mul_div_assoc, div_eq_iff (by positivity)] at h
  exact_mod_cast h

/-- What a double that stands for a whole number is made of. -/
theorem exists_decode_of_whole {x : Float} {n : Int} (h : value? x = some (n : ℚ)) :
    ∃ negative m e, decodeDouble x = .finite negative m e ∧ BinaryFormat.double.Canonical m e ∧
      m * 2 ^ e.toNat = n.natAbs * 2 ^ (-e).toNat ∧
      (if negative then -(n.natAbs : Int) else n.natAbs) = n := by
  obtain ⟨negative, m, e, hd, hcanonical, hvalue⟩ := exists_decode_of_value h
  have hnonneg : (0 : ℚ) ≤ m * 2 ^ e := by positivity
  refine ⟨negative, m, e, hd, hcanonical, mul_two_pow_eq ?_, ?_⟩
  · rw [Nat.cast_natAbs, Int.cast_abs, hvalue]
    split
    · rw [abs_neg, abs_of_nonneg hnonneg]
    · rw [abs_of_nonneg hnonneg]
  · split at hvalue
    · next hnegative =>
      have hn : n ≤ 0 := by exact_mod_cast hvalue.trans_le (neg_nonpos.2 hnonneg)
      rw [if_pos hnegative]
      omega
    · next hnegative =>
      have hn : 0 ≤ n := by exact_mod_cast hnonneg.trans_eq hvalue.symm
      rw [if_neg hnegative]
      omega

/-- The word of a double that stands for a whole number. -/
theorem wordOfFloat_of_value {x : Float} {n : Int} (h : value? x = some (n : ℚ)) :
    Calendar.wordOfFloat x = if minSigned 64 ≤ n ∧ n ≤ maxSigned 64 then n else minSigned 64 := by
  obtain ⟨negative, m, e, hd, hcanonical, hunits, hsign⟩ := exists_decode_of_whole h
  have hmagnitude : (if 0 ≤ e then (m : Int) * twoTo e.toNat else (m : Int) / twoTo (-e).toNat) =
      n.natAbs := by
    split
    · next he =>
      rw [Int.toNat_of_nonpos (Int.neg_nonpos_of_nonneg he), Nat.pow_zero, Nat.mul_one] at hunits
      exact_mod_cast hunits
    · next he =>
      rw [Int.toNat_of_nonpos (Int.not_le.1 he).le, Nat.pow_zero, Nat.mul_one] at hunits
      rw [hunits]
      exact_mod_cast Nat.mul_div_cancel _ (Nat.two_pow_pos _)
  simp only [Calendar.wordOfFloat, hd, hmagnitude, hsign, Bool.and_eq_true, decide_eq_true_eq]
  split
  · next hlarge =>
    -- so many units of a significand that is not zero are out of range
    have hm : m ≠ 0 := by
      rintro rfl
      have := hcanonical.full.resolve_left (by decide)
      have : BinaryFormat.double.minExponent = -1074 := by decide
      omega
    have hpow : 2 ^ 64 ≤ n.natAbs := by
      rw [Int.toNat_of_nonpos (by omega : -e ≤ 0), Nat.pow_zero, Nat.mul_one] at hunits
      calc 2 ^ 64 ≤ 2 ^ e.toNat := Nat.pow_le_pow_right two_pos (by omega)
        _ ≤ m * 2 ^ e.toNat := Nat.le_mul_of_pos_left _ (Nat.pos_of_ne_zero hm)
        _ = n.natAbs := hunits
    rw [if_neg]
    have hmin : minSigned 64 = -9223372036854775808 := by decide
    have hmax : maxSigned 64 = 9223372036854775807 := by decide
    omega
  · rfl

theorem natAbs_toInt_le (n : Int64) : n.toInt.natAbs ≤ 2 ^ 63 := by
  have := n.le_toInt
  have := n.toInt_lt
  omega

theorem toInt_mem_word (n : Int64) : minSigned 64 ≤ n.toInt ∧ n.toInt ≤ maxSigned 64 := by
  have hmin : minSigned 64 = -9223372036854775808 := by decide
  have hmax : maxSigned 64 = 9223372036854775807 := by decide
  have := n.le_toInt
  have := n.toInt_lt
  omega

theorem toInt_ofInt_of_fits {m : Int} (hlow : minSigned 64 ≤ m) (hhigh : m ≤ maxSigned 64) :
    (Int64.ofInt m).toInt = m := by
  have hmin : minSigned 64 = -2 ^ 63 := by decide
  have hmax : maxSigned 64 = 2 ^ 63 - 1 := by decide
  exact Int64.toInt_ofInt_of_le (by omega) (by omega)

end FormBasic.Decimal
