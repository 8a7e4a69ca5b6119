import FormBasic.Proofs.Decimal.Reading

/-!
# What is too large for a binary format

A number is rounded before it is compared with the range of a format, so a number that is only a
little greater than the greatest one of the format is still taken to that one. The range ends half a
unit of the last place above it. A number that lies exactly there is out of range already: the
significand of the greatest number is odd, so the tie goes up.

## Main definitions

* `BinaryFormat.roundingLimit` — the number at which the range of a format ends

## Main results

* `BinaryFormat.le_units_iff` — what is rounded up to an even number of units
* `BinaryFormat.nearest_eq_none_iff` — the quotients that have no nearest pattern
* `bits?_eq_none_iff` — the decimal magnitudes that there is no double for
-/

namespace FormBasic.Decimal

namespace BinaryFormat

/-! ### Rounding up to an even number -/

section
variable {num den k : Nat}

/-- What is at most a half below an even number is rounded up to it. -/
theorem le_divEven_iff (hden : 0 < den) (hk : k % 2 = 0) :
    k ≤ divEven num den ↔ k * (2 * den) ≤ 2 * num + den := by
  have hnum := Nat.div_add_mod' num den
  have hrest := Nat.mod_lt num hden
  rcases Nat.lt_trichotomy k (num / den + 1) with hbelow | rfl | habove
  · have hle : k * den ≤ num :=
      (Nat.mul_le_mul_right den (Nat.le_of_lt_succ hbelow)).trans (Nat.div_mul_le_self num den)
    exact iff_of_true ((Nat.le_of_lt_succ hbelow).trans (div_le_divEven num den)) (by linarith)
  · -- the quotient is odd, so that the tie is rounded up
    have hodd : ¬ num / den % 2 = 0 := by omega
    have hunits : num / den + 1 ≤ divEven num den ↔ den ≤ 2 * (num % den) := by
      simp only [divEven, beq_iff_eq, if_neg hodd]
      split_ifs <;> omega
    rw [hunits]
    constructor <;> intro h <;> linarith
  · have hle := Nat.mul_le_mul_right den habove
    have hlt : divEven num den < k := (divEven_le_succ num den).trans_lt habove
    exact iff_of_false (Nat.not_le.2 hlt) (by rw [Nat.not_le]; linarith)

theorem le_units_iff (e : Int) (hden : 0 < den) (hk : k % 2 = 0) :
    k ≤ units num den e ↔ ((k : ℚ) - 1 / 2) * 2 ^ e ≤ num / den := by
  have hden' : (0 : ℚ) < den := Nat.cast_pos.2 hden
  rw [units, le_divEven_iff (by positivity) hk, two_zpow_eq_div, ← mul_div_assoc,
    div_le_div_iff₀ (by positivity) hden', ← Nat.cast_le (α := ℚ)]
  push_cast
  constructor <;> intro h <;> linarith

end

/-! ### The end of the range -/

variable {f : BinaryFormat}

/-- The exponent of the last place of the greatest numbers. -/
def maxExponent (f : BinaryFormat) : Int := twoTo (f.exponentBits - 1) - 1 - f.fractionBits

/-- The number half a unit of the last place above the greatest one of a format. -/
def roundingLimit (f : BinaryFormat) : ℚ := (2 ^ (f.fractionBits + 1) - 1 / 2) * 2 ^ f.maxExponent

theorem limit_eq (f : BinaryFormat) :
    (f.limit : ℚ) = 2 ^ (f.fractionBits + 1) * 2 ^ f.maxExponent := by
  rw [limit, maxExponent, twoTo, Nat.pow_eq, Nat.cast_pow, Nat.cast_ofNat, ← zpow_natCast,
    ← zpow_natCast, ← zpow_add₀ two_ne_zero]
  congr 1
  push_cast
  ring

/-- Half a unit is less than what all numbers with the last exponent have. -/
theorem two_pow_lt_roundingLimit (f : BinaryFormat) :
    (2 : ℚ) ^ f.fractionBits * 2 ^ f.maxExponent < f.roundingLimit := by
  have hone : (1 : ℚ) ≤ 2 ^ f.fractionBits := one_le_pow₀ one_le_two
  unfold roundingLimit
  gcongr
  rw [pow_succ]
  linarith

theorem roundingLimit_lt_limit (f : BinaryFormat) : f.roundingLimit < f.limit := by
  rw [limit_eq, roundingLimit]
  gcongr
  exact sub_lt_self _ one_half_pos

theorem roundingLimit_pos (f : BinaryFormat) : 0 < f.roundingLimit :=
  lt_trans (by positivity) (two_pow_lt_roundingLimit f)

/-- The last place of a number, and the number. -/
theorem unitExponent_bounds (f : BinaryFormat) {q : ℚ} (hq : 0 < q) :
    q < 2 ^ (f.fractionBits + 1) * 2 ^ f.unitExponent q ∧
      (f.minExponent < f.unitExponent q → 2 ^ f.fractionBits * 2 ^ f.unitExponent q ≤ q) := by
  have hlow : (2 : ℚ) ^ Int.log 2 q ≤ q := Int.zpow_log_le_self one_lt_two hq
  have hhigh : q < (2 : ℚ) ^ (Int.log 2 q + 1) := Int.lt_zpow_succ_log_self one_lt_two q
  rw [← zpow_natCast, ← zpow_natCast, ← zpow_add₀ two_ne_zero, ← zpow_add₀ two_ne_zero]
  constructor
  · refine hhigh.trans_le (zpow_le_zpow_right₀ one_le_two ?_)
    have : Int.log 2 q - f.fractionBits ≤ f.unitExponent q := le_max_left _ _
    push_cast
    omega
  · intro hleast
    refine le_trans (zpow_le_zpow_right₀ one_le_two ?_) hlow
    have : f.unitExponent q = Int.log 2 q - f.fractionBits :=
      (max_choice _ _).resolve_right hleast.ne'
    omega

/-- A carry into the next place goes no further than a higher place begins. -/
theorem two_pow_succ_mul_le (k : Nat) {t t' : Int} (h : t < t') :
    (2 : ℚ) ^ (k + 1) * 2 ^ t ≤ 2 ^ k * 2 ^ t' := by
  have hpow : (2 : ℚ) ^ (t + 1) ≤ 2 ^ t' := zpow_le_zpow_right₀ one_le_two h
  rw [zpow_add_one₀ two_ne_zero] at hpow
  calc (2 : ℚ) ^ (k + 1) * 2 ^ t = 2 ^ k * (2 ^ t * 2) := by ring
    _ ≤ 2 ^ k * 2 ^ t' := by gcongr

theorem minExponent_lt_maxExponent (hf : 1 < f.exponentBits) : f.minExponent < f.maxExponent := by
  have hmin : f.minExponent = 2 - (2 ^ (f.exponentBits - 1) : Nat) - (f.fractionBits : Int) := rfl
  have hmax : f.maxExponent = (2 ^ (f.exponentBits - 1) : Nat) - 1 - (f.fractionBits : Int) := rfl
  have hpow : 2 ^ 1 ≤ 2 ^ (f.exponentBits - 1) :=
    Nat.pow_le_pow_right two_pos (Nat.le_sub_one_of_lt hf)
  omega

/-- What is rounded beyond the greatest number. -/
theorem limit_le_units_iff (hf : 1 < f.exponentBits) {num den : Nat} (hnum : num ≠ 0)
    (hden : den ≠ 0) :
    (f.limit : ℚ) ≤ units num den (f.unitExponent (num / den)) * 2 ^ f.unitExponent (num / den) ↔
      f.roundingLimit ≤ num / den := by
  have hpos : 0 < den := Nat.pos_of_ne_zero hden
  obtain ⟨hhigh, hlow⟩ := unitExponent_bounds f (q := num / den)
    (div_pos (Nat.cast_pos.2 (Nat.pos_of_ne_zero hnum)) (Nat.cast_pos.2 hpos))
  obtain ⟨hbound, hfull⟩ := units_bounds f hnum hden
  have hleast := minExponent_lt_maxExponent hf
  have hbelow := two_pow_lt_roundingLimit f
  have habove := roundingLimit_lt_limit f
  generalize f.unitExponent (num / den) = t at *
  rcases lt_trichotomy t f.maxExponent with ht | rfl | ht
  · -- from a lower place neither the number nor what it is rounded to gets there
    have hcarry := two_pow_succ_mul_le f.fractionBits ht
    have hunits : (units num den t : ℚ) ≤ 2 ^ (f.fractionBits + 1) := by exact_mod_cast hbound
    refine iff_of_false (not_le.2 ?_) (not_le.2 (hhigh.trans_le (hcarry.trans hbelow.le)))
    calc (units num den t : ℚ) * 2 ^ t ≤ 2 ^ (f.fractionBits + 1) * 2 ^ t := by gcongr
      _ ≤ 2 ^ f.fractionBits * 2 ^ f.maxExponent := hcarry
      _ < f.limit := hbelow.trans habove
  · have heven : 2 ^ (f.fractionBits + 1) % 2 = 0 := by rw [Nat.pow_succ, Nat.mul_mod_left]
    have hround := @le_units_iff num den _ f.maxExponent hpos heven
    rw [Nat.cast_pow, Nat.cast_ofNat] at hround
    rw [limit_eq, mul_le_mul_iff_left₀ (by positivity), roundingLimit, ← hround]
    exact_mod_cast Iff.rfl
  · -- a higher place is beyond it already
    have hlimit : (f.limit : ℚ) ≤ 2 ^ f.fractionBits * 2 ^ t :=
      (limit_eq f).trans_le (two_pow_succ_mul_le f.fractionBits ht)
    have hunits : (2 : ℚ) ^ f.fractionBits ≤ units num den t := by
      exact_mod_cast hfull.resolve_right (hleast.trans ht).ne'
    exact iff_of_true (hlimit.trans (by gcongr))
      ((habove.le.trans hlimit).trans (hlow (hleast.trans ht)))

/-- There is no nearest pattern for a number from half a unit above the greatest one on. -/
theorem nearest_eq_none_iff (hf : 1 < f.exponentBits) (num : Nat) {den : Nat} (hden : den ≠ 0) :
    f.nearest num den = none ↔ f.roundingLimit ≤ num / den := by
  rcases eq_or_ne num 0 with rfl | hnum
  · rw [nearest_zero, Nat.cast_zero, zero_div]
    exact iff_of_false (Option.some_ne_none _) (not_le.2 (roundingLimit_pos f))
  · obtain ⟨m, e, hcanonical, hvalue, hnearest⟩ := exists_nearest_eq f hnum hden
    rw [← limit_le_units_iff hf hnum hden, ← hvalue, ← not_lt,
      ← hcanonical.pattern_lt_infinity_iff (Nat.zero_lt_of_lt hf), hnearest, ite_eq_right_iff]
    exact imp_congr_right fun _ => iff_of_false (Option.some_ne_none _) not_false

end BinaryFormat

open BinaryFormat

/-! ### Decimal magnitudes -/

theorem one_lt_roundingLimit_double : 1 < double.roundingLimit := by
  have hexponent : double.maxExponent = 971 := by decide
  refine lt_of_le_of_lt ?_ (two_pow_lt_roundingLimit double)
  rw [hexponent]
  exact one_le_mul_of_one_le_of_one_le (one_le_pow₀ one_le_two)
    (one_le_zpow₀ one_le_two (by decide))

/-- There is no double for a decimal magnitude from half a unit above the greatest double on. The
magnitudes whose power of ten is never built are no exception. -/
theorem bits?_eq_none_iff (m : Nat) (e : Int) :
    (Magnitude.number m 10 e).bits? .double = none ↔ double.roundingLimit ≤ m * 10 ^ e := by
  rcases Nat.eq_zero_or_pos m with rfl | hm
  · rw [Nat.cast_zero, zero_mul]
    exact iff_of_false (Option.some_ne_none _) (not_le.2 (roundingLimit_pos double))
  rcases Int.lt_or_le e 0 with he | he
  · have hpow : (10 : ℚ) ^ e = ((10 ^ (-e).toNat : Nat) : ℚ)⁻¹ := by
      rw [Nat.cast_pow, Nat.cast_ofNat, ← zpow_natCast, Int.toNat_of_nonneg (by omega), zpow_neg,
        inv_inv]
    have hten : 10 ^ (-e).toNat ≠ 0 := (Nat.pow_pos (by decide)).ne'
    rw [hpow, ← div_eq_mul_inv]
    simp only [Magnitude.bits?, beq_iff_eq, hm.ne', if_false]
    rw [if_neg (by omega), if_neg (Int.not_le.2 he)]
    split
    · next hsmall =>
      have hless : m < 10 ^ (-e).toNat :=
        calc m < 2 ^ exponentLimit m := lt_two_pow_exponentLimit m
          _ ≤ 2 ^ (-e).toNat := Nat.pow_le_pow_right two_pos (by omega)
          _ ≤ 10 ^ (-e).toNat := Nat.pow_le_pow_left (by decide) _
      have hone : (m : ℚ) / (10 ^ (-e).toNat : Nat) ≤ 1 :=
        div_le_one_of_le₀ (Nat.cast_le.2 hless.le) (Nat.cast_nonneg _)
      exact iff_of_false (Option.some_ne_none _)
        (not_le.2 (hone.trans_lt one_lt_roundingLimit_double))
    · exact nearest_eq_none_iff (by decide) m hten
  · rw [bits?_of_nonneg hm he rfl, nearest_eq_none_iff (by decide) _ one_ne_zero, Nat.cast_one,
      div_one, Nat.cast_mul, Nat.cast_pow, Nat.cast_ofNat, ← zpow_natCast, Int.toNat_of_nonneg he]

end FormBasic.Decimal
