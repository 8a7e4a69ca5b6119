import FormBasic.Proofs.Decimal.Rounding
import Mathlib

/-!
# Floats and their bit patterns

The logic knows a floating-point number as a bit pattern, and its operations as operations on the
parts of one. Here these parts are those that `BinaryFormat.decode` gives, so that what is proved of
patterns holds of the numbers that run.

A format of more than one exponent bit is assumed where a pattern is put together: with a single
bit there would be no room for a finite number beside infinity.

## Main results

* `BinaryFormat.unpack_eq`, `BinaryFormat.decode_toNat_pack` — patterns and parts
* `decodeDouble_doubleOfBits`, `doubleOfBits_toBits` — a double and its pattern
* `singleOfBits_toBits` — the same of a single
-/

namespace FormBasic.Decimal

open Float.Model Float.Model.UnpackedFloat

namespace BinaryFormat

/-- The layout of a format of floating-point numbers. -/
def ofFormat (spec : Format) : BinaryFormat := ⟨spec.mantissaBitsWithoutImplicit, spec.exponentBits⟩

/-- A sign by whether it is negative. -/
def signOf : Bool → Sign
  | true => .negative
  | false => .positive

/-- The parts of a floating-point number by what its pattern stands for. -/
def unpacked : Binary → UnpackedFloat
  | .nan => .notANumber
  | .infinity negative => .infinity (signOf negative)
  | .finite negative m e =>
    if h : m = 0 then .zero (signOf negative)
    else .finite (signOf negative) m e (Nat.pos_of_ne_zero h)

theorem unpacked_zero (negative : Bool) (e : Int) :
    unpacked (.finite negative 0 e) = .zero (signOf negative) := rfl

theorem unpacked_finite (negative : Bool) {m : Nat} (e : Int) (hm : m ≠ 0) :
    unpacked (.finite negative m e) =
      .finite (signOf negative) m e (Nat.pos_of_ne_zero hm) := dif_neg hm

section
variable {spec : Format}

/-! ### The fields of a pattern -/

theorem toNat_unpackMantissa (b : BitVec spec.numBits) :
    (unpackMantissa b).toNat = b.toNat % 2 ^ spec.mantissaBitsWithoutImplicit := by
  rw [unpackMantissa_def, BitVec.extractLsb'_toNat, Nat.shiftRight_zero]

theorem toNat_unpackExponent (b : BitVec spec.numBits) :
    (unpackExponent b).toNat =
      b.toNat / 2 ^ spec.mantissaBitsWithoutImplicit % 2 ^ spec.exponentBits := by
  rw [unpackExponent_def, BitVec.extractLsb'_toNat, Nat.shiftRight_eq_div_pow]

theorem toNat_unpackSign (b : BitVec spec.numBits) :
    (unpackSign b).toNat = b.toNat / (ofFormat spec).signBit % 2 := by
  rw [unpackSign_def, BitVec.extractLsb'_toNat, Nat.shiftRight_eq_div_pow]
  rfl

/-- What is under the sign is the two other fields. -/
theorem mod_signBit_eq (b : BitVec spec.numBits) :
    b.toNat % (ofFormat spec).signBit =
      (unpackExponent b).toNat * 2 ^ spec.mantissaBitsWithoutImplicit +
        (unpackMantissa b).toNat := by
  show b.toNat % 2 ^ (spec.mantissaBitsWithoutImplicit + spec.exponentBits) = _
  rw [toNat_unpackExponent, toNat_unpackMantissa, Nat.pow_add, Nat.mod_mul, Nat.add_comm,
    Nat.mul_comm]

theorem signOf_unpackSign (b : BitVec spec.numBits) :
    Sign.ofBitVec (unpackSign b) = signOf (b.toNat / (ofFormat spec).signBit % 2 == 1) := by
  rw [Sign.ofBitVec, ← toNat_unpackSign]
  rcases BitVec.eq_zero_or_eq_one (unpackSign b) with h | h <;> rw [h] <;> rfl

theorem toNat_packComponents (negative : Bool) (exponent : BitVec spec.exponentBits)
    (mantissa : BitVec spec.mantissaBitsWithoutImplicit) :
    (packComponents spec (signOf negative) exponent mantissa).toNat =
      (ofFormat spec).withSign negative
        (exponent.toNat * 2 ^ spec.mantissaBitsWithoutImplicit + mantissa.toNat) := by
  have hmantissa := mantissa.isLt
  have hexponent := exponent.isLt
  have hsign : (Sign.toBitVec (signOf negative)).toNat = if negative then 1 else 0 := by
    cases negative <;> rfl
  rw [packComponents, BitVec.toNat_append, BitVec.toNat_append,
    ← Nat.shiftLeft_add_eq_or_of_lt hmantissa, ← Nat.shiftLeft_add_eq_or_of_lt hexponent,
    Nat.shiftLeft_eq, Nat.shiftLeft_eq, hsign]
  cases negative with
  | false => simp [withSign]
  | true =>
    simp only [withSign, signBit, ofFormat, twoTo, Nat.pow_eq, if_true, Nat.one_mul, Nat.pow_add]
    ring

theorem exponent_eq_neg_one_iff (b : BitVec spec.exponentBits) :
    b = -1#_ ↔ b.toNat = 2 ^ spec.exponentBits - 1 := by
  rw [BitVec.neg_one_eq_allOnes, ← BitVec.toNat_inj, BitVec.toNat_allOnes]

theorem field_eq_zero_iff {n : Nat} (b : BitVec n) : b = 0#_ ↔ b.toNat = 0 := by
  rw [← BitVec.toNat_inj, BitVec.toNat_zero]

theorem exponentBias_add (spec : Format) :
    (spec.exponentBias : Int) + spec.mantissaBitsWithoutImplicit =
      1 - (ofFormat spec).minExponent := by
  have hpos : 1 ≤ 2 ^ (spec.exponentBits - 1) := Nat.one_le_two_pow
  simp only [Format.exponentBias, minExponent, ofFormat, twoTo, Nat.pow_eq]
  omega

/-- The parts of a pattern are what it is read as. -/
theorem unpack_eq (b : BitVec spec.numBits) :
    UnpackedFloat.unpack spec b = unpacked ((ofFormat spec).decode b.toNat) := by
  have hmantissa := (unpackMantissa b).isLt
  have hdecode : (ofFormat spec).decode b.toNat =
      if (unpackExponent b).toNat = 2 ^ spec.exponentBits - 1 then
        if (unpackMantissa b).toNat = 0 then
          .infinity (b.toNat / (ofFormat spec).signBit % 2 == 1) else .nan
      else if (unpackExponent b).toNat = 0 then
        .finite (b.toNat / (ofFormat spec).signBit % 2 == 1) (unpackMantissa b).toNat
          (ofFormat spec).minExponent
      else .finite (b.toNat / (ofFormat spec).signBit % 2 == 1)
        (2 ^ spec.mantissaBitsWithoutImplicit + (unpackMantissa b).toNat)
        ((ofFormat spec).minExponent + ((unpackExponent b).toNat - 1 : Nat)) :=
    decode_fields (unpackExponent b).isLt hmantissa (mod_signBit_eq b)
  have hbias := exponentBias_add spec
  have hpow : 0 < 2 ^ spec.mantissaBitsWithoutImplicit := Nat.two_pow_pos _
  rw [hdecode]
  simp only [UnpackedFloat.unpack, signOf_unpackSign, exponent_eq_neg_one_iff, field_eq_zero_iff]
  by_cases hall : (unpackExponent b).toNat = 2 ^ spec.exponentBits - 1
  · rw [if_pos hall, if_pos hall]
    split <;> rfl
  · rw [if_neg hall, if_neg hall]
    by_cases hnone : (unpackExponent b).toNat = 0
    · rw [if_pos hnone, if_pos hnone]
      by_cases hzero : (unpackMantissa b).toNat = 0
      · rw [dif_pos hzero, unpacked, dif_pos hzero]
      · rw [dif_neg hzero, unpacked_finite _ _ hzero]
        congr 1
        omega
    · rw [if_neg hnone, if_neg hnone, unpacked_finite _ _ (by omega)]
      congr 1
      · rw [BitVec.toNat_append, ← Nat.shiftLeft_add_eq_or_of_lt hmantissa, Nat.shiftLeft_eq]
        simp
      · omega

/-! ### The pattern of parts -/

theorem toNat_neg_one (spec : Format) :
    (-BitVec.ofNat spec.exponentBits 1).toNat = 2 ^ spec.exponentBits - 1 :=
  (exponent_eq_neg_one_iff _).1 rfl

theorem toNat_packedInfinity (spec : Format) (negative : Bool) :
    (packedInfinity spec (signOf negative)).toNat =
      (ofFormat spec).withSign negative (ofFormat spec).infinityBits := by
  rw [packedInfinity, toNat_packComponents, toNat_neg_one]
  rfl

theorem toNat_packedNaN (spec : Format) :
    (packedNaN spec).toNat = (ofFormat spec).nanBits := by
  have hbit : (BitVec.ofNat spec.mantissaBitsWithoutImplicit 1 <<<
      (spec.mantissaBitsWithoutImplicit - 1)).toNat =
        2 ^ (spec.mantissaBitsWithoutImplicit - 1) := by
    have hlt : 2 ^ (spec.mantissaBitsWithoutImplicit - 1) < 2 ^ spec.mantissaBitsWithoutImplicit :=
      Nat.pow_lt_pow_right one_lt_two (Nat.sub_one_lt_of_lt spec.hm)
    have hone : 1 < 2 ^ spec.mantissaBitsWithoutImplicit := Nat.one_lt_two_pow spec.hm.ne'
    rw [BitVec.toNat_shiftLeft, BitVec.toNat_ofNat, Nat.mod_eq_of_lt hone, Nat.shiftLeft_eq,
      Nat.one_mul, Nat.mod_eq_of_lt hlt]
  rw [packedNaN, show Sign.positive = signOf false from rfl, toNat_packComponents, toNat_neg_one,
    hbit]
  rfl

/-- A significand is full if its leading bit is the one that a pattern leaves out. -/
theorem log2_succ_eq_iff {m : Nat} (hm : m ≠ 0)
    (hlt : m < 2 ^ (spec.mantissaBitsWithoutImplicit + 1)) :
    m.log2 + 1 = spec.mantissaBits ↔ 2 ^ spec.mantissaBitsWithoutImplicit ≤ m := by
  have hlog := (Nat.log2_lt hm).2 hlt
  rw [← Nat.le_log2 hm, Format.mantissaBits]
  omega

/-- The fields of a canonical number, the leading bit left out. -/
theorem toNat_packFields (negative : Bool) {m : Nat} {e : Int} (h : (ofFormat spec).Canonical m e)
    (hfits : (e - (ofFormat spec).minExponent).toNat + 2 < 2 ^ spec.exponentBits) :
    (if 2 ^ spec.mantissaBitsWithoutImplicit ≤ m then
      packComponents spec (signOf negative)
        (BitVec.ofNat _ ((e - (ofFormat spec).minExponent).toNat + 1)) (BitVec.ofNat _ m)
    else packComponents spec (signOf negative) 0#_ (BitVec.ofNat _ m)).toNat =
      (ofFormat spec).withSign negative ((ofFormat spec).pattern m e) := by
  obtain ⟨hlt, -, hfull⟩ := h
  change m < 2 ^ (spec.mantissaBitsWithoutImplicit + 1) at hlt
  change 2 ^ spec.mantissaBitsWithoutImplicit ≤ m ∨ _ at hfull
  have hpattern : (ofFormat spec).pattern m e =
      (e - (ofFormat spec).minExponent).toNat * 2 ^ spec.mantissaBitsWithoutImplicit + m := rfl
  rw [Nat.pow_succ] at hlt
  split
  · next hlarge =>
    have hmod : m % 2 ^ spec.mantissaBitsWithoutImplicit =
        m - 2 ^ spec.mantissaBitsWithoutImplicit := by
      rw [Nat.mod_eq_sub_mod hlarge, Nat.mod_eq_of_lt (by omega)]
    rw [toNat_packComponents, BitVec.toNat_ofNat, BitVec.toNat_ofNat, hmod,
      Nat.mod_eq_of_lt (by omega), Nat.succ_mul, hpattern]
    congr 1
    omega
  · next hsmall =>
    have hzero : (e - (ofFormat spec).minExponent).toNat = 0 := by
      rw [hfull.resolve_left hsmall, Int.sub_self, Int.toNat_zero]
    rw [toNat_packComponents, BitVec.toNat_ofNat, BitVec.toNat_ofNat,
      Nat.mod_eq_of_lt (Nat.not_le.1 hsmall), Nat.zero_mod, hpattern, hzero]

/-- The pattern of a canonical number. What is out of range becomes infinite. -/
theorem toNat_pack_finite (hbits : 1 < spec.exponentBits) (negative : Bool) {m : Nat} {e : Int}
    (h : (ofFormat spec).Canonical m e) :
    (UnpackedFloat.pack spec (unpacked (.finite negative m e))).toNat =
      (ofFormat spec).withSign negative
        (min ((ofFormat spec).pattern m e) (ofFormat spec).infinityBits) := by
  have hrange : (ofFormat spec).pattern m e < (ofFormat spec).infinityBits ↔
      (e - (ofFormat spec).minExponent).toNat + 2 < 2 ^ spec.exponentBits :=
    h.pattern_lt_infinityBits_iff hbits
  by_cases hm : m = 0
  · have hleast : e = (ofFormat spec).minExponent :=
      h.full.resolve_left (Nat.not_le.2 (hm ▸ Nat.two_pow_pos _))
    have hpattern : (ofFormat spec).pattern m e = 0 := by simp [pattern, hm, hleast]
    rw [hpattern, hm, unpacked_zero, UnpackedFloat.pack, packedZero, toNat_packComponents]
    simp
  have hbiased : (e + spec.exponentBias + spec.mantissaBitsWithoutImplicit).toNat =
      (e - (ofFormat spec).minExponent).toNat + 1 := by
    have := exponentBias_add spec
    have := h.least
    omega
  rw [unpacked_finite negative e hm]
  simp only [UnpackedFloat.pack, hbiased, log2_succ_eq_iff hm h.lt]
  by_cases hfits : (ofFormat spec).pattern m e < (ofFormat spec).infinityBits
  · have hsmall := hrange.1 hfits
    rw [if_neg (by omega), min_eq_left hfits.le, toNat_packFields negative h hsmall]
  · have hlarge := mt hrange.2 hfits
    rw [if_pos (by omega), min_eq_right (not_lt.1 hfits), toNat_packedInfinity]

/-- What a format has a pattern for is read from the pattern that is made of it. -/
theorem decode_toNat_pack (hbits : 1 < spec.exponentBits) {d : Binary}
    (hd : (ofFormat spec).Has d) :
    (ofFormat spec).decode (UnpackedFloat.pack spec (unpacked d)).toNat = d := by
  cases d with
  | nan => exact (congrArg _ (toNat_packedNaN spec)).trans (decode_nanBits _ spec.hm)
  | infinity negative =>
    exact (congrArg _ (toNat_packedInfinity spec negative)).trans (decode_withSign_infinity _ _)
  | finite negative m e =>
    rw [toNat_pack_finite hbits negative hd.1, min_eq_left hd.2.le]
    exact decode_pattern negative hd.1 hd.2

/-- The undefined number has one valid pattern. -/
theorem toNat_eq_of_valid (hbits : 1 < spec.exponentBits) {b : BitVec spec.numBits}
    (hb : spec.Valid b) (h : (ofFormat spec).decode b.toNat = .nan) :
    b.toNat = (ofFormat spec).nanBits := by
  have hparts : UnpackedFloat.unpack spec b = .notANumber := by rw [unpack_eq, h]; rfl
  rw [(unpack_eq_notANumber_iff_of_valid hb hbits).1 hparts, toNat_packedNaN]

end

end BinaryFormat

/-! ### Doubles and singles -/

theorem has_decodeDouble (x : Float) : BinaryFormat.double.Has (decodeDouble x) :=
  BinaryFormat.has_decode _ x.toBits.toNat_lt

/-- The parts of a double are what its pattern stands for. -/
theorem unpack_toModel (x : Float) : x.toModel.unpack = BinaryFormat.unpacked (decodeDouble x) :=
  @BinaryFormat.unpack_eq .binary64 _

/-- A double made of parts stands for them. -/
theorem decodeDouble_pack {d : Binary} (hd : BinaryFormat.double.Has d) :
    decodeDouble (.ofModel (.pack (BinaryFormat.unpacked d))) = d :=
  @BinaryFormat.decode_toNat_pack .binary64 (by decide) d hd

/-- A double made from a pattern stands for what the pattern does. -/
theorem decodeDouble_doubleOfBits {bits : Nat} (hbits : bits < twoTo 64) :
    decodeDouble (doubleOfBits bits) = BinaryFormat.double.decode bits := by
  have hword : (UInt64.ofNat bits).toBitVec.toNat = bits := Nat.mod_eq_of_lt hbits
  have hparts : UnpackedFloat.unpack .binary64 (UInt64.ofNat bits).toBitVec =
      BinaryFormat.unpacked (BinaryFormat.double.decode bits) := by
    rw [BinaryFormat.unpack_eq, hword]
    rfl
  have hhas : BinaryFormat.double.Has (BinaryFormat.double.decode bits) :=
    BinaryFormat.has_decode _ hbits
  rw [← decodeDouble_pack hhas, ← hparts]
  rfl

/-- A double is the one that its pattern makes. -/
theorem doubleOfBits_toBits (x : Float) : doubleOfBits x.toBits.toNat = x := by
  rw [doubleOfBits, UInt64.ofNat_toNat, Float.ofBits_toBits]

/-- A single is the one that its pattern makes. -/
theorem singleOfBits_toBits (x : Float32) : singleOfBits x.toBits.toNat = x := by
  rw [singleOfBits, UInt32.ofNat_toNat, Float32.ofBits_toBits]

/-! ### Singles as doubles -/

namespace BinaryFormat

variable {f g : BinaryFormat} {m m' : Nat} {e e' : Int}

theorem quotient_eq (m : Nat) (e : Int) :
    ((m * twoTo e.toNat : Nat) : ℚ) / (twoTo (-e).toNat : Nat) = m * 2 ^ e := by
  rw [two_zpow_eq_div, twoTo, twoTo, Nat.pow_eq, Nat.pow_eq]
  push_cast
  rw [mul_div_assoc]

/-- A number of a format is encoded by its own pattern. -/
theorem encode_of_canonical (negative : Bool) (h : f.Canonical m e)
    (hfits : f.pattern m e < f.infinityBits) (hvalue : (m' : ℚ) * 2 ^ e' = m * 2 ^ e) :
    f.encode (.finite negative m' e') = f.withSign negative (f.pattern m e) := by
  have hden : twoTo (-e').toNat ≠ 0 := (Nat.two_pow_pos _).ne'
  rcases eq_or_ne m 0 with rfl | hm
  · have he : e = f.minExponent := h.full.resolve_left (Nat.not_le_of_lt (Nat.two_pow_pos _))
    have hm' : m' = 0 := by
      rw [Nat.cast_zero, zero_mul, mul_eq_zero, Nat.cast_eq_zero] at hvalue
      exact hvalue.resolve_right (by positivity)
    rw [encode, hm', Nat.zero_mul, nearest_zero, he, pattern]
    simp
  · rw [encode, nearest_of_canonical h hm hfits hden ((quotient_eq m' e').trans hvalue),
      Option.getD_some]

/-- A single has a double that stands for the same number. -/
theorem exists_encode_single (negative : Bool) (h : single.Canonical m e)
    (hfits : single.pattern m e < single.infinityBits) :
    ∃ m' e', double.Canonical m' e' ∧ double.pattern m' e' < double.infinityBits ∧
      (m' : ℚ) * 2 ^ e' = m * 2 ^ e ∧
      double.encode (.finite negative m e) = double.withSign negative (double.pattern m' e') := by
  rcases eq_or_ne m 0 with rfl | hm
  · have hzero : double.Canonical 0 double.minExponent := ⟨by decide, Int.le_refl _, .inr rfl⟩
    have hvalue : ((0 : Nat) : ℚ) * 2 ^ double.minExponent = (0 : Nat) * 2 ^ e := by simp
    exact ⟨0, double.minExponent, hzero, by decide, hvalue,
      encode_of_canonical negative hzero (by decide) hvalue.symm⟩
  · have hden : twoTo (-e).toNat ≠ 0 := (Nat.two_pow_pos _).ne'
    obtain ⟨m', e', hcanonical, hrange, hvalue, hnearest⟩ := exists_nearest_of_wider h hm hfits
      (g := double) (by decide) (by decide) (by decide) (by decide) hden (quotient_eq m e)
    exact ⟨m', e', hcanonical, hrange, hvalue, by rw [encode, hnearest, Option.getD_some]⟩

end BinaryFormat

open BinaryFormat in
/-- A single is not changed by the way through a double. -/
theorem narrow_widen (x : Float32) : narrow (widen x) = x := by
  have hinfinity : double.infinityBits < double.signBit := infinityBits_lt double
  rcases hd : decodeSingle x with _ | negative | ⟨negative, m, e⟩
  · have hbits : x.toBits.toNat = single.nanBits :=
      @toNat_eq_of_valid .binary32 (by decide) _ x.toModel.valid hd
    rw [narrow, widen, hd, encode, decodeDouble_doubleOfBits (by decide),
      decode_nanBits _ (by decide), encode, ← hbits, singleOfBits_toBits]
  · have hbits : x.toBits.toNat = single.withSign negative single.infinityBits :=
      eq_of_decode_infinity x.toBits.toNat_lt hd
    rw [narrow, widen, hd, encode, decodeDouble_doubleOfBits (withSign_lt negative hinfinity),
      decode_withSign_infinity, encode, ← hbits, singleOfBits_toBits]
  · obtain ⟨hcanonical, hfits, hbits⟩ := exists_pattern_of_decode x.toBits.toNat_lt hd
    obtain ⟨m', e', hcanonical', hfits', hvalue, hencode⟩ :=
      exists_encode_single negative hcanonical hfits
    rw [narrow, widen, hd, hencode,
      decodeDouble_doubleOfBits (withSign_lt negative (hfits'.trans hinfinity)),
      decode_pattern negative hcanonical' hfits',
      encode_of_canonical negative hcanonical hfits hvalue, ← hbits, singleOfBits_toBits]

end FormBasic.Decimal
