import FormBasic.Proofs.Decimal.Rounding

/-!
# Whole numbers in a binary format

A whole number whose length is more than a significand has room for loses its last places when it is
put into the format: what is left of it is a multiple of the weight of the last place that the
format has for it. The program takes whole numbers through doubles in many places, and what comes
back is `nearestInt` of what went in.

## Main definitions

* `BinaryFormat.nearestWhole` — the whole number of a format that is nearest to a given one
* `nearestInt` — the same for doubles and both signs

## Main results

* `BinaryFormat.nearestWhole_eq_self_iff` — what is lost
* `BinaryFormat.nearestWhole_mono` — the order is kept, though not strictly
* `BinaryFormat.exists_nearest_whole` — the nearest pattern of a whole number
-/

namespace FormBasic.Decimal

namespace BinaryFormat

variable {f : BinaryFormat} {n n' : Nat}

/-- The weight of the last place that a format has for a whole number. -/
def wholeUnit (f : BinaryFormat) (n : Nat) : Nat := 2 ^ (Nat.log2 n - f.fractionBits)

/-- The whole number of a format that is nearest to a whole number, a tie to the even one. -/
def nearestWhole (f : BinaryFormat) (n : Nat) : Nat := divEven n (f.wholeUnit n) * f.wholeUnit n

theorem wholeUnit_pos (f : BinaryFormat) (n : Nat) : 0 < f.wholeUnit n := Nat.two_pow_pos _

/-- A whole number is in the format if it has nothing below the last place. -/
theorem nearestWhole_eq_self_iff : f.nearestWhole n = n ↔ f.wholeUnit n ∣ n := by
  constructor
  · intro h
    exact ⟨divEven n (f.wholeUnit n), ((Nat.mul_comm _ _).trans h).symm⟩
  · intro h
    rw [nearestWhole]
    nth_rewrite 1 [← Nat.div_mul_cancel h]
    rw [divEven_mul_self _ (wholeUnit_pos f n), Nat.div_mul_cancel h]

theorem nearestWhole_of_lt (h : n < 2 ^ (f.fractionBits + 1)) : f.nearestWhole n = n := by
  have hunit : f.wholeUnit n = 1 := by
    rw [wholeUnit, Nat.sub_eq_zero_of_le, Nat.pow_zero]
    rcases Nat.eq_zero_or_pos n with rfl | hn
    · exact Nat.zero_le _
    · exact Nat.le_of_lt_succ ((Nat.log2_lt hn.ne').2 h)
  rw [nearestWhole_eq_self_iff, hunit]
  exact Nat.one_dvd n

theorem wholeUnit_dvd_two_pow (f : BinaryFormat) {k : Nat} (h : Nat.log2 n ≤ k) :
    f.wholeUnit n ∣ 2 ^ k :=
  Nat.pow_dvd_pow 2 ((Nat.sub_le _ _).trans h)

/-- The nearest number does not leave the powers of two around a number. -/
theorem two_pow_log2_le_nearestWhole (hn : n ≠ 0) : 2 ^ Nat.log2 n ≤ f.nearestWhole n := by
  obtain ⟨k, hk⟩ := wholeUnit_dvd_two_pow f (Nat.le_refl (Nat.log2 n))
  rw [Nat.mul_comm] at hk
  rw [hk]
  exact Nat.mul_le_mul_right _ (le_divEven (wholeUnit_pos f n) (hk ▸ Nat.log2_self_le hn))

theorem nearestWhole_le_two_pow_log2_succ (f : BinaryFormat) (n : Nat) :
    f.nearestWhole n ≤ 2 ^ (Nat.log2 n + 1) := by
  obtain ⟨k, hk⟩ := wholeUnit_dvd_two_pow f (Nat.le_succ (Nat.log2 n))
  rw [Nat.mul_comm] at hk
  rw [← Nat.succ_eq_add_one, hk]
  exact Nat.mul_le_mul_right _ (divEven_le (wholeUnit_pos f n) (hk ▸ Nat.lt_log2_self.le))

/-- The order of whole numbers is kept, though two of them may become one. -/
theorem nearestWhole_mono (h : n ≤ n') : f.nearestWhole n ≤ f.nearestWhole n' := by
  rcases Nat.eq_zero_or_pos n with rfl | hn
  · rw [nearestWhole_of_lt (Nat.two_pow_pos _)]
    exact Nat.zero_le _
  have hn' : n' ≠ 0 := by omega
  have hlog : Nat.log2 n ≤ Nat.log2 n' := (Nat.le_log2 hn').2 ((Nat.log2_self_le hn.ne').trans h)
  rcases Nat.lt_or_eq_of_le hlog with hlt | heq
  · calc f.nearestWhole n ≤ 2 ^ (Nat.log2 n + 1) := nearestWhole_le_two_pow_log2_succ f n
      _ ≤ 2 ^ Nat.log2 n' := Nat.pow_le_pow_right two_pos hlt
      _ ≤ f.nearestWhole n' := two_pow_log2_le_nearestWhole hn'
  · have hunit : f.wholeUnit n = f.wholeUnit n' := by rw [wholeUnit, wholeUnit, heq]
    rw [nearestWhole, nearestWhole, hunit]
    exact Nat.mul_le_mul_right _ (divEven_mono _ h)

/-- A power of two is in the format. -/
theorem nearestWhole_two_pow (f : BinaryFormat) (k : Nat) : f.nearestWhole (2 ^ k) = 2 ^ k :=
  nearestWhole_eq_self_iff.2 (wholeUnit_dvd_two_pow f Nat.log2_two_pow.le)

/-- What is out of range is rounded to something out of range. -/
theorem limit_le_nearestWhole (h : f.limit ≤ n) : f.limit ≤ f.nearestWhole n :=
  (nearestWhole_two_pow f _).symm.trans_le (nearestWhole_mono h)

/-! ### The nearest pattern of a whole number -/

/-- A whole number is rounded to the nearest whole number of the format. -/
theorem units_whole (hn : n ≠ 0) (hf : f.minExponent ≤ 0) :
    (units n 1 (f.unitExponent n) : ℚ) * 2 ^ f.unitExponent n = f.nearestWhole n := by
  have hlog : Int.log 2 (n : ℚ) = Nat.log2 n := by rw [Int.log_natCast, Nat.log2_eq_log_two]
  rcases Nat.lt_or_ge (Nat.log2 n) f.fractionBits with hshort | hlong
  · -- the last place is one after the point, so that nothing is lost
    have hplace : f.unitExponent n ≤ 0 := by
      rw [unitExponent, hlog]
      omega
    have hexact : ((n : ℚ) / (1 : Nat)) =
        (n * 2 ^ (-f.unitExponent n).toNat : Nat) * 2 ^ f.unitExponent n := by
      push_cast
      rw [← zpow_natCast, Int.toNat_of_nonneg (by omega), mul_assoc, ← zpow_add₀ two_ne_zero,
        neg_add_cancel, zpow_zero, mul_one, div_one]
    have hlt : n < 2 ^ (f.fractionBits + 1) := (Nat.log2_lt hn).1 (Nat.lt_succ_of_lt hshort)
    rw [units_eq one_pos hexact, nearestWhole_of_lt hlt, ← hexact, Nat.cast_one, div_one]
  · have hunit : f.unitExponent n = (Nat.log2 n - f.fractionBits : Nat) := by
      rw [unitExponent, hlog]
      omega
    rw [hunit, zpow_natCast, units, Int.toNat_natCast, Int.toNat_of_nonpos (by omega), pow_zero,
      Nat.mul_one, Nat.one_mul, nearestWhole, wholeUnit]
    push_cast
    rfl

theorem nearest_whole_aux (n : Nat) :
    ∃ m e, double.Canonical m e ∧ (m : ℚ) * 2 ^ e = double.nearestWhole n ∧
      double.nearest n 1 =
        if double.pattern m e < double.infinityBits then some (double.pattern m e) else none := by
  rcases Nat.eq_zero_or_pos n with rfl | hn
  · refine ⟨0, double.minExponent, ⟨by decide, Int.le_refl _, .inr rfl⟩, ?_, by decide⟩
    rw [nearestWhole_of_lt (Nat.two_pow_pos _), Nat.cast_zero, zero_mul]
  · obtain ⟨m, e, hcanonical, hvalue, hnearest⟩ :=
      exists_nearest_eq double hn.ne' (one_ne_zero : (1 : Nat) ≠ 0)
    rw [Nat.cast_one, div_one, units_whole hn.ne' (by decide)] at hvalue
    exact ⟨m, e, hcanonical, hvalue, hnearest⟩

/-- The pattern nearest to a whole number is that of the nearest whole number. -/
theorem exists_nearest_whole {n : Nat} (h : double.nearestWhole n < double.limit) :
    ∃ m e, double.Canonical m e ∧ double.pattern m e < double.infinityBits ∧
      (m : ℚ) * 2 ^ e = double.nearestWhole n ∧ double.nearest n 1 = some (double.pattern m e) := by
  obtain ⟨m, e, hcanonical, hvalue, hnearest⟩ := nearest_whole_aux n
  have hfits : double.pattern m e < double.infinityBits := by
    rw [hcanonical.pattern_lt_infinity_iff (by decide), hvalue]
    exact_mod_cast h
  exact ⟨m, e, hcanonical, hfits, hvalue, by rw [hnearest, if_pos hfits]⟩

/-- There is none if the nearest whole number is out of range. -/
theorem nearest_whole_eq_none {n : Nat} (h : double.limit ≤ double.nearestWhole n) :
    double.nearest n 1 = none := by
  obtain ⟨m, e, hcanonical, hvalue, hnearest⟩ := nearest_whole_aux n
  have hover : ¬ double.pattern m e < double.infinityBits := by
    rw [hcanonical.pattern_lt_infinity_iff (by decide), hvalue, not_lt]
    exact_mod_cast h
  rw [hnearest, if_neg hover]

end BinaryFormat

/-! ### Whole numbers of either sign -/

open BinaryFormat

/-- The whole number that the double nearest to a whole number stands for. -/
def nearestInt (n : Int) : Int :=
  if n < 0 then -(double.nearestWhole n.natAbs : Int) else double.nearestWhole n.natAbs

theorem natAbs_nearestInt (n : Int) : (nearestInt n).natAbs = double.nearestWhole n.natAbs := by
  unfold nearestInt
  split
  · exact Int.natAbs_neg _
  · rfl

theorem nearestInt_eq_self_iff {n : Int} :
    nearestInt n = n ↔ double.nearestWhole n.natAbs = n.natAbs := by
  unfold nearestInt
  split <;> omega

/-- The numbers that a significand has room for are not changed, and the next one is not either. -/
theorem nearestInt_of_natAbs_le {n : Int} (h : n.natAbs ≤ 2 ^ 53) : nearestInt n = n := by
  rw [nearestInt_eq_self_iff]
  rcases Nat.lt_or_eq_of_le h with hlt | heq
  · exact nearestWhole_of_lt hlt
  · rw [heq, nearestWhole_eq_self_iff]
    decide

theorem nearestInt_mono {a b : Int} (h : a ≤ b) : nearestInt a ≤ nearestInt b := by
  unfold nearestInt
  split <;> split
  · have := @nearestWhole_mono double b.natAbs a.natAbs (by omega)
    omega
  · omega
  · omega
  · have := @nearestWhole_mono double a.natAbs b.natAbs (by omega)
    omega

/-- A number that is not changed is on the same side of every other one before and after. -/
theorem nearestInt_lt_iff {a b : Int} (hb : b.natAbs < 2 ^ 53) : nearestInt a < b ↔ a < b := by
  constructor
  · intro h
    by_contra hle
    have := nearestInt_mono (Int.not_lt.1 hle)
    rw [nearestInt_of_natAbs_le hb.le] at this
    omega
  · intro h
    have := nearestInt_mono (Int.le_sub_one_of_lt h)
    rw [nearestInt_of_natAbs_le (n := b - 1) (by omega)] at this
    omega

theorem lt_nearestInt_iff {a b : Int} (hb : b.natAbs < 2 ^ 53) : b < nearestInt a ↔ b < a := by
  constructor
  · intro h
    by_contra hle
    have := nearestInt_mono (Int.not_lt.1 hle)
    rw [nearestInt_of_natAbs_le hb.le] at this
    omega
  · intro h
    have := nearestInt_mono (Int.add_one_le_of_lt h)
    rw [nearestInt_of_natAbs_le (n := b + 1) (by omega)] at this
    omega

theorem nearestInt_eq_zero_iff {n : Int} : nearestInt n = 0 ↔ n = 0 := by
  have hless := @nearestInt_lt_iff n 0 (by decide)
  have hmore := @lt_nearestInt_iff n 0 (by decide)
  omega

/-- The powers of two bound the nearest number as they bound the number. -/
theorem natAbs_nearestInt_le {n : Int} {k : Nat} (h : n.natAbs ≤ 2 ^ k) :
    (nearestInt n).natAbs ≤ 2 ^ k := by
  rw [natAbs_nearestInt, ← nearestWhole_two_pow double k]
  exact nearestWhole_mono h

end FormBasic.Decimal
