import FormBasic.Decimal.Binary
import Mathlib.Algebra.Order.Field.Power
import Mathlib.Data.Int.Log
import Mathlib.Data.Rat.Floor
import Mathlib.Tactic.Linarith
import Mathlib.Tactic.Positivity
import Mathlib.Tactic.Ring

/-!
# Rounding to a binary format

`BinaryFormat.nearest` computes a bit pattern with whole numbers only: it looks for the leading bit
of a quotient, counts the units of the last place that this leaves, and adds the two up. `decode`
takes a pattern apart again. What connects them is the number that a pattern stands for, and the
numbers here are rationals, so that one statement covers exponents of either sign.

Every finite pattern is that of one significand and one exponent, which are the largest significand
that the format has room for, or the least exponent. In this form the order of numbers is the order
of the exponents, and then of the significands. A sum of units that has carried into the next place
is no exception: as a pattern it is already that of the next exponent.

## Main definitions

* `BinaryFormat.Canonical` — a significand and an exponent as a pattern holds them
* `BinaryFormat.pattern` — their pattern
* `BinaryFormat.unitExponent`, `BinaryFormat.units` — what a quotient is rounded to

## Main results

* `BinaryFormat.decode_pattern`, `BinaryFormat.exists_pattern_of_decode` — patterns and what they
  hold
* `BinaryFormat.Canonical.compare_eq` — the order of numbers
* `BinaryFormat.nearest_eq` — the nearest pattern
* `BinaryFormat.exists_nearest_eq` — and the number that it stands for
* `BinaryFormat.nearest_of_canonical` — a number that the format has is its own nearest
-/

namespace FormBasic.Decimal

namespace BinaryFormat

/-! ### Quotients rounded to whole numbers -/

section
variable {num den : Nat}

theorem divEven_mul_self (k : Nat) (hden : 0 < den) : divEven (k * den) den = k := by
  simp [divEven, Nat.mul_div_cancel _ hden, hden]

theorem divEven_mul_mul_right (num den : Nat) {c : Nat} (hc : 0 < c) :
    divEven (num * c) (den * c) = divEven num den := by
  have hless : ∀ a b : Nat, 2 * (a * c) < b * c ↔ 2 * a < b := fun a b => by
    rw [← Nat.mul_assoc, Nat.mul_lt_mul_right hc]
  have hmore : ∀ a b : Nat, b * c < 2 * (a * c) ↔ b < 2 * a := fun a b => by
    rw [← Nat.mul_assoc, Nat.mul_lt_mul_right hc]
  simp only [divEven, Nat.mul_div_mul_right _ _ hc, Nat.mul_mod_mul_right, hless, hmore]

/-- Equal quotients are rounded alike. -/
theorem divEven_congr {num' den' : Nat} (hden : 0 < den) (hden' : 0 < den')
    (h : num * den' = num' * den) : divEven num den = divEven num' den' := by
  rw [← divEven_mul_mul_right num den hden', ← divEven_mul_mul_right num' den' hden, h,
    Nat.mul_comm den]

theorem div_le_divEven (num den : Nat) : num / den ≤ divEven num den := by
  simp only [divEven]
  split
  · exact Nat.le_refl _
  · split
    · exact Nat.le_succ _
    · split
      · exact Nat.le_refl _
      · exact Nat.le_succ _

theorem divEven_le_succ (num den : Nat) : divEven num den ≤ num / den + 1 := by
  simp only [divEven]
  split
  · exact Nat.le_succ _
  · split
    · exact Nat.le_refl _
    · split
      · exact Nat.le_succ _
      · exact Nat.le_refl _

/-- Between two whole numbers the greater remainder is rounded up if the smaller one is. -/
theorem divEven_mono {num' : Nat} (den : Nat) (h : num ≤ num') :
    divEven num den ≤ divEven num' den := by
  rcases Nat.lt_or_ge (num / den) (num' / den) with hlt | hge
  · exact (divEven_le_succ num den).trans (Nat.le_trans hlt (div_le_divEven num' den))
  · have hq : num / den = num' / den := Nat.le_antisymm (Nat.div_le_div_right h) hge
    have hr : num % den ≤ num' % den := by
      have h1 := Nat.div_add_mod num den
      have h2 := Nat.div_add_mod num' den
      rw [hq] at h1
      omega
    simp only [divEven, hq]
    split_ifs <;> omega

theorem divEven_le {k : Nat} (hden : 0 < den) (h : num ≤ k * den) : divEven num den ≤ k :=
  (divEven_mono den h).trans_eq (divEven_mul_self k hden)

theorem le_divEven {k : Nat} (hden : 0 < den) (h : k * den ≤ num) : k ≤ divEven num den :=
  (divEven_mul_self k hden).symm.trans_le (divEven_mono den h)

end

/-! ### Powers of two -/

/-- A power of two as a quotient of whole numbers, one of which is one. -/
theorem two_zpow_eq_div (e : Int) : (2 : ℚ) ^ e = 2 ^ e.toNat / 2 ^ (-e).toNat := by
  rcases Int.le_total 0 e with he | he
  · rw [Int.toNat_of_nonpos (Int.neg_nonpos_of_nonneg he), pow_zero, div_one, ← zpow_natCast,
      Int.toNat_of_nonneg he]
  · rw [Int.toNat_of_nonpos he, pow_zero, one_div, ← zpow_natCast, ← zpow_neg,
      Int.toNat_of_nonneg (Int.neg_nonneg_of_nonpos he), neg_neg]

section
variable {num den : Nat}

theorem div_le_mul_zpow_iff (k : Nat) (e : Int) (hden : 0 < den) :
    (num : ℚ) / den ≤ k * 2 ^ e ↔ num * 2 ^ (-e).toNat ≤ k * (den * 2 ^ e.toNat) := by
  have hden' : (0 : ℚ) < den := Nat.cast_pos.2 hden
  rw [two_zpow_eq_div, ← mul_div_assoc, div_le_div_iff₀ hden' (by positivity)]
  rw [← Nat.cast_le (α := ℚ)]
  push_cast
  rw [show (k : ℚ) * 2 ^ e.toNat * den = k * (den * 2 ^ e.toNat) by ring]

theorem mul_zpow_le_div_iff (k : Nat) (e : Int) (hden : 0 < den) :
    (k : ℚ) * 2 ^ e ≤ num / den ↔ k * (den * 2 ^ e.toNat) ≤ num * 2 ^ (-e).toNat := by
  have hden' : (0 : ℚ) < den := Nat.cast_pos.2 hden
  rw [two_zpow_eq_div, ← mul_div_assoc, div_le_div_iff₀ (by positivity) hden']
  rw [← Nat.cast_le (α := ℚ)]
  push_cast
  rw [show (k : ℚ) * 2 ^ e.toNat * den = k * (den * 2 ^ e.toNat) by ring]

end

/-! ### Patterns -/

/-- A significand and an exponent as a bit pattern holds them: the significand fills the place that
there is for it, unless the exponent is the least one. -/
structure Canonical (f : BinaryFormat) (m : Nat) (e : Int) : Prop where
  lt : m < 2 ^ (f.fractionBits + 1)
  least : f.minExponent ≤ e
  full : 2 ^ f.fractionBits ≤ m ∨ e = f.minExponent

/-- The pattern of a positive number, without the sign. -/
def pattern (f : BinaryFormat) (m : Nat) (e : Int) : Nat :=
  (e - f.minExponent).toNat * 2 ^ f.fractionBits + m

section
variable {f : BinaryFormat} {m m' : Nat} {e e' : Int}

theorem infinityBits_add (f : BinaryFormat) :
    f.infinityBits + 2 ^ f.fractionBits = f.signBit := by
  have hpos : 1 ≤ 2 ^ f.exponentBits := Nat.one_le_two_pow
  show (2 ^ f.exponentBits - 1) * 2 ^ f.fractionBits + 2 ^ f.fractionBits =
    2 ^ (f.fractionBits + f.exponentBits)
  rw [← Nat.succ_mul, Nat.succ_eq_add_one, Nat.sub_add_cancel hpos, Nat.pow_add, Nat.mul_comm]

theorem infinityBits_lt (f : BinaryFormat) : f.infinityBits < f.signBit := by
  have := infinityBits_add f
  have := Nat.two_pow_pos f.fractionBits
  omega

/-- The two parts of a pattern with its sign. -/
theorem withSign_parts (negative : Bool) {bits : Nat} (h : bits < f.signBit) :
    (f.withSign negative bits / f.signBit % 2 == 1) = negative ∧
      f.withSign negative bits % f.signBit = bits := by
  have hpos : 0 < f.signBit := Nat.two_pow_pos _
  cases negative with
  | false =>
    rw [withSign, if_neg Bool.false_ne_true, Nat.div_eq_of_lt h, Nat.mod_eq_of_lt h]
    exact ⟨rfl, rfl⟩
  | true =>
    rw [withSign, if_pos rfl, Nat.add_div_left _ hpos, Nat.add_mod_left, Nat.div_eq_of_lt h,
      Nat.mod_eq_of_lt h]
    exact ⟨rfl, rfl⟩

theorem withSign_lt (negative : Bool) {bits : Nat} (h : bits < f.signBit) :
    f.withSign negative bits < 2 * f.signBit := by
  cases negative <;> simp [withSign] <;> omega

/-- A pattern is put together again from its two parts. -/
theorem withSign_div_mod {bits : Nat} (h : bits < 2 * f.signBit) :
    f.withSign (bits / f.signBit % 2 == 1) (bits % f.signBit) = bits := by
  have hbound : bits / f.signBit < 2 := Nat.div_lt_of_lt_mul (by omega)
  have hdivision := Nat.div_add_mod bits f.signBit
  rcases Nat.lt_or_ge (bits / f.signBit) 1 with hzero | hone
  · have hq : bits / f.signBit = 0 := Nat.lt_one_iff.1 hzero
    rw [hq] at hdivision ⊢
    simpa [withSign] using hdivision
  · have hq : bits / f.signBit = 1 := Nat.le_antisymm (Nat.le_of_lt_succ hbound) hone
    rw [hq] at hdivision ⊢
    simpa [withSign] using hdivision

/-- What a pattern is read as, by the two fields under its sign. -/
theorem decode_fields {bits field fraction : Nat} (hfield : field < 2 ^ f.exponentBits)
    (hfraction : fraction < 2 ^ f.fractionBits)
    (hbits : bits % f.signBit = field * 2 ^ f.fractionBits + fraction) :
    f.decode bits =
      if field = 2 ^ f.exponentBits - 1 then
        if fraction = 0 then .infinity (bits / f.signBit % 2 == 1) else .nan
      else if field = 0 then .finite (bits / f.signBit % 2 == 1) fraction f.minExponent
      else .finite (bits / f.signBit % 2 == 1) (2 ^ f.fractionBits + fraction)
        (f.minExponent + (field - 1 : Nat)) := by
  have hpow : 0 < 2 ^ f.fractionBits := Nat.two_pow_pos _
  have hinfinity : f.infinityBits = (2 ^ f.exponentBits - 1) * 2 ^ f.fractionBits := rfl
  have hdiv : (field * 2 ^ f.fractionBits + fraction) / 2 ^ f.fractionBits = field := by
    rw [Nat.mul_comm, Nat.mul_add_div hpow, Nat.div_eq_of_lt hfraction, Nat.add_zero]
  have hmod : (field * 2 ^ f.fractionBits + fraction) % 2 ^ f.fractionBits = fraction := by
    rw [Nat.mul_comm, Nat.mul_add_mod, Nat.mod_eq_of_lt hfraction]
  simp only [decode, hbits, beq_iff_eq, twoTo, Nat.pow_eq, hdiv, hmod, hinfinity]
  rcases Nat.lt_or_ge field (2 ^ f.exponentBits - 1) with hless | hall
  · have hlt : field * 2 ^ f.fractionBits + fraction <
        (2 ^ f.exponentBits - 1) * 2 ^ f.fractionBits := by
      refine Nat.lt_of_lt_of_le ?_ (Nat.mul_le_mul_right _ hless)
      rw [Nat.succ_mul]
      omega
    rw [if_neg hlt.ne, if_neg (Nat.lt_asymm hlt), if_neg hless.ne]
  · have htop : field = 2 ^ f.exponentBits - 1 := by omega
    rw [htop, if_pos rfl]
    by_cases hzero : fraction = 0
    · rw [if_pos (by omega), if_pos hzero]
    · rw [if_neg (by omega), if_pos (by omega), if_neg hzero]

theorem decode_withSign_infinity (f : BinaryFormat) (negative : Bool) :
    f.decode (f.withSign negative f.infinityBits) = .infinity negative := by
  obtain ⟨hsign, hmagnitude⟩ := withSign_parts (f := f) negative (infinityBits_lt f)
  simp only [decode, hsign, hmagnitude, beq_self_eq_true, if_true]

theorem eq_of_decode_infinity {bits : Nat} {negative : Bool} (hbits : bits < 2 * f.signBit)
    (h : f.decode bits = .infinity negative) : bits = f.withSign negative f.infinityBits := by
  simp only [decode, beq_iff_eq] at h
  split at h
  · next hmagnitude =>
    injection h with h
    rw [← h, ← hmagnitude, withSign_div_mod hbits]
  · split at h
    · cases h
    · split at h <;> cases h

/-- The pattern of a canonical number is read as that number. -/
theorem decode_pattern (negative : Bool) (h : f.Canonical m e)
    (hfits : f.pattern m e < f.infinityBits) :
    f.decode (f.withSign negative (f.pattern m e)) = .finite negative m e := by
  obtain ⟨hlt, hleast, hfull⟩ := h
  obtain ⟨hsign, hmagnitude⟩ :=
    withSign_parts negative (hfits.trans (infinityBits_lt f))
  have hpow : 0 < 2 ^ f.fractionBits := Nat.two_pow_pos _
  rw [Nat.pow_succ] at hlt
  simp only [decode, hsign, hmagnitude, beq_iff_eq, twoTo, Nat.pow_eq]
  rw [if_neg hfits.ne, if_neg (Nat.lt_asymm hfits)]
  rcases Nat.lt_or_ge m (2 ^ f.fractionBits) with hsmall | hlarge
  · have he : e = f.minExponent := hfull.resolve_left (Nat.not_le_of_lt hsmall)
    have hpattern : f.pattern m e = m := by simp [pattern, he]
    rw [hpattern, Nat.div_eq_of_lt hsmall, if_pos rfl, Nat.mod_eq_of_lt hsmall, he]
  · have hpattern : f.pattern m e =
        (m - 2 ^ f.fractionBits) + 2 ^ f.fractionBits * ((e - f.minExponent).toNat + 1) := by
      rw [pattern, Nat.mul_comm, Nat.mul_succ]
      omega
    rw [hpattern, Nat.add_mul_div_left _ _ hpow, Nat.add_mul_mod_self_left,
      Nat.div_eq_of_lt (by omega), Nat.mod_eq_of_lt (by omega), if_neg (by omega)]
    congr 1 <;> omega

theorem decode_nanBits (f : BinaryFormat) (hf : 0 < f.fractionBits) :
    f.decode f.nanBits = .nan := by
  have hlt : 2 ^ (f.fractionBits - 1) < 2 ^ f.fractionBits :=
    Nat.pow_lt_pow_right one_lt_two (Nat.sub_one_lt_of_lt hf)
  have hsum := infinityBits_add f
  have hmagnitude : f.nanBits % f.signBit =
      (2 ^ f.exponentBits - 1) * 2 ^ f.fractionBits + 2 ^ (f.fractionBits - 1) :=
    Nat.mod_eq_of_lt (show f.infinityBits + 2 ^ (f.fractionBits - 1) < f.signBit by omega)
  rw [decode_fields (Nat.sub_one_lt (Nat.two_pow_pos _).ne') hlt hmagnitude, if_pos rfl,
    if_neg (Nat.two_pow_pos _).ne']

/-- A pattern is below infinity if its exponent is below the last one. -/
theorem Canonical.pattern_lt_infinityBits_iff (hbits : 1 < f.exponentBits) (h : f.Canonical m e) :
    f.pattern m e < f.infinityBits ↔ (e - f.minExponent).toNat + 2 < 2 ^ f.exponentBits := by
  obtain ⟨hlt, -, hfull⟩ := h
  have hroom : 2 ^ 2 ≤ 2 ^ f.exponentBits := Nat.pow_le_pow_right two_pos hbits
  have hpow : 0 < 2 ^ f.fractionBits := Nat.two_pow_pos _
  have hfield : 2 ^ f.fractionBits ≤ m ∨ (e - f.minExponent).toNat = 0 := hfull.imp_right (by omega)
  rw [pattern, show f.infinityBits = (2 ^ f.exponentBits - 1) * 2 ^ f.fractionBits from rfl]
  rw [Nat.pow_succ] at hlt
  generalize (e - f.minExponent).toNat = k at *
  constructor
  · intro hfits
    by_contra hlarge
    have hle := Nat.mul_le_mul_right (2 ^ f.fractionBits)
      (show 2 ^ f.exponentBits - 1 ≤ k + 1 by omega)
    rw [Nat.succ_mul] at hle
    omega
  · intro hsmall
    have hle := Nat.mul_le_mul_right (2 ^ f.fractionBits)
      (show k + 1 + 1 ≤ 2 ^ f.exponentBits - 1 by omega)
    rw [Nat.succ_mul, Nat.succ_mul] at hle
    omega

/-- What is under the sign of a pattern that stands for a number. -/
theorem canonical_of_fields {field fraction : Nat} (hfraction : fraction < 2 ^ f.fractionBits)
    (hm : m = if field = 0 then fraction else 2 ^ f.fractionBits + fraction)
    (he : e = f.minExponent + (field - 1 : Nat)) :
    f.Canonical m e ∧ f.pattern m e = field * 2 ^ f.fractionBits + fraction := by
  have hexponent : (e - f.minExponent).toNat = field - 1 := by omega
  rw [pattern, hexponent]
  cases field with
  | zero =>
    rw [if_pos rfl] at hm
    refine ⟨⟨?_, by omega, .inr (by omega)⟩, by simp [hm]⟩
    rw [Nat.pow_succ]
    omega
  | succ field =>
    rw [if_neg (Nat.succ_ne_zero field)] at hm
    refine ⟨⟨?_, by omega, .inl (by omega)⟩, ?_⟩
    · rw [Nat.pow_succ]
      omega
    · rw [Nat.succ_mul, Nat.add_sub_cancel]
      omega

/-- What a pattern is read as is canonical, and there is no other pattern of it. -/
theorem exists_pattern_of_decode {bits : Nat} {negative : Bool} (hbits : bits < 2 * f.signBit)
    (h : f.decode bits = .finite negative m e) :
    f.Canonical m e ∧ f.pattern m e < f.infinityBits ∧
      bits = f.withSign negative (f.pattern m e) := by
  have hsigned := withSign_div_mod hbits
  have hwhole := Nat.div_add_mod' (bits % f.signBit) (2 ^ f.fractionBits)
  have hfraction := Nat.mod_lt (bits % f.signBit) (Nat.two_pow_pos f.fractionBits)
  simp only [decode, beq_iff_eq, twoTo, Nat.pow_eq] at h
  split at h
  · cases h
  split at h
  · cases h
  next hnot hle =>
  have hparts : (bits / f.signBit % 2 == 1) = negative ∧
      f.Canonical m e ∧ f.pattern m e = bits % f.signBit := by
    rw [← hwhole]
    split at h <;> (next hzero =>
      injection h with hnegative hm he
      refine ⟨hnegative, canonical_of_fields hfraction ?_ ?_⟩ <;> simp [hzero, ← hm, ← he])
  obtain ⟨hnegative, hcanonical, hpattern⟩ := hparts
  refine ⟨hcanonical, ?_, by rw [hpattern, ← hnegative, hsigned]⟩
  rw [hpattern]
  omega

end

/-- What a format has a pattern for. -/
def Has (f : BinaryFormat) : Binary → Prop
  | .finite _ m e => f.Canonical m e ∧ f.pattern m e < f.infinityBits
  | _ => True

theorem has_decode (f : BinaryFormat) {bits : Nat} (hbits : bits < 2 * f.signBit) :
    f.Has (f.decode bits) := by
  rcases hd : f.decode bits with _ | _ | _
  · trivial
  · trivial
  · obtain ⟨hcanonical, hfits, -⟩ := exists_pattern_of_decode hbits hd
    exact ⟨hcanonical, hfits⟩

/-! ### The order of numbers -/

section
variable {f : BinaryFormat} {m m' : Nat} {e e' : Int}

/-- A greater exponent comes with a full significand, so it makes the number greater. -/
theorem Canonical.lt_of_exponent_lt (h : f.Canonical m e) (h' : f.Canonical m' e') (he : e < e') :
    (m : ℚ) * 2 ^ e < m' * 2 ^ e' := by
  have hfull : 2 ^ f.fractionBits ≤ m' := h'.full.resolve_right (by have := h.least; omega)
  have hm : (m : ℚ) < 2 ^ f.fractionBits * 2 := by exact_mod_cast pow_succ 2 f.fractionBits ▸ h.lt
  have hm' : (2 : ℚ) ^ f.fractionBits ≤ m' := by exact_mod_cast hfull
  have hstep : (2 : ℚ) ^ (e + 1) ≤ 2 ^ e' := zpow_le_zpow_right₀ one_le_two he
  calc (m : ℚ) * 2 ^ e < 2 ^ f.fractionBits * 2 * 2 ^ e := by gcongr
    _ = 2 ^ f.fractionBits * 2 ^ (e + 1) := by rw [zpow_add_one₀ two_ne_zero]; ring
    _ ≤ m' * 2 ^ e' := by gcongr

/-- The order of the exponents, and then of the significands, is the order of the numbers. -/
theorem Canonical.compare_eq (h : f.Canonical m e) (h' : f.Canonical m' e') :
    (compare e e').then (compare m m') = compare ((m : ℚ) * 2 ^ e) (m' * 2 ^ e') := by
  rcases lt_trichotomy e e' with he | rfl | he
  · rw [Int.compare_eq_lt.2 he, compare_lt_iff_lt.2 (h.lt_of_exponent_lt h' he)]
    rfl
  · have hpos : (0 : ℚ) < 2 ^ e := by positivity
    rw [Int.compare_eq_eq.2 rfl, Ordering.eq_then]
    rcases lt_trichotomy m m' with hm | rfl | hm
    · rw [Nat.compare_eq_lt.2 hm, compare_lt_iff_lt.2]
      exact mul_lt_mul_of_pos_right (Nat.cast_lt.2 hm) hpos
    · rw [Nat.compare_eq_eq.2 rfl, compare_eq_iff_eq.2 rfl]
    · rw [Nat.compare_eq_gt.2 hm, compare_gt_iff_gt.2]
      exact mul_lt_mul_of_pos_right (Nat.cast_lt.2 hm) hpos
  · rw [Int.compare_eq_gt.2 he, compare_gt_iff_gt.2 (h'.lt_of_exponent_lt h he)]
    rfl

theorem Canonical.eq_of_value_eq (h : f.Canonical m e) (h' : f.Canonical m' e')
    (hvalue : (m : ℚ) * 2 ^ e = m' * 2 ^ e') : m = m' ∧ e = e' := by
  have horder := h.compare_eq h'
  rw [compare_eq_iff_eq.2 hvalue, Ordering.then_eq_eq] at horder
  exact ⟨Nat.compare_eq_eq.1 horder.2, Int.compare_eq_eq.1 horder.1⟩

/-- A greater number has a greater pattern. -/
theorem Canonical.pattern_lt (h : f.Canonical m e) (h' : f.Canonical m' e')
    (hvalue : (m : ℚ) * 2 ^ e < m' * 2 ^ e') : f.pattern m e < f.pattern m' e' := by
  have horder := h.compare_eq h'
  rw [compare_lt_iff_lt.2 hvalue, Ordering.then_eq_lt] at horder
  unfold pattern
  rcases horder with he | ⟨he, hm⟩
  · have he : e < e' := Int.compare_eq_lt.1 he
    have hfull : 2 ^ f.fractionBits ≤ m' := h'.full.resolve_right (by have := h.least; omega)
    have hlt := h.lt
    have hplace : (e - f.minExponent).toNat + 1 ≤ (e' - f.minExponent).toNat := by
      have := h.least
      omega
    have hplaces := Nat.mul_le_mul_right (2 ^ f.fractionBits) hplace
    rw [Nat.pow_succ] at hlt
    rw [Nat.succ_mul] at hplaces
    omega
  · rw [Int.compare_eq_eq.1 he]
    exact Nat.add_lt_add_left (Nat.compare_eq_lt.1 hm) _

theorem Canonical.pattern_lt_iff (h : f.Canonical m e) (h' : f.Canonical m' e') :
    f.pattern m e < f.pattern m' e' ↔ (m : ℚ) * 2 ^ e < m' * 2 ^ e' := by
  refine ⟨fun hlt => not_le.1 fun hle => ?_, h.pattern_lt h'⟩
  rcases hle.lt_or_eq with hvalue | hvalue
  · exact Nat.lt_asymm hlt (h'.pattern_lt h hvalue)
  · obtain ⟨rfl, rfl⟩ := h'.eq_of_value_eq h hvalue
    exact Nat.lt_irrefl _ hlt

/-- The power of two at which the range of a format ends. -/
def limit (f : BinaryFormat) : Nat := twoTo (twoTo (f.exponentBits - 1))

theorem lt_limit {n k : Nat} (h : n ≤ 2 ^ k) (hk : k < twoTo (f.exponentBits - 1)) : n < f.limit :=
  h.trans_lt (Nat.pow_lt_pow_right one_lt_two hk)

theorem limit_le_two_pow {k : Nat} (h : twoTo (f.exponentBits - 1) ≤ k) : f.limit ≤ 2 ^ k :=
  Nat.pow_le_pow_right two_pos h

theorem limit_le_limit {g : BinaryFormat} (h : f.exponentBits ≤ g.exponentBits) :
    f.limit ≤ g.limit :=
  Nat.pow_le_pow_right two_pos (Nat.pow_le_pow_right two_pos (Nat.sub_le_sub_right h 1))

/-- The pattern of infinity is the one after that of the greatest number. -/
theorem Canonical.pattern_lt_infinity_iff (hf : 0 < f.exponentBits) (h : f.Canonical m e) :
    f.pattern m e < f.infinityBits ↔ (m : ℚ) * 2 ^ e < f.limit := by
  have hhalf : 2 ^ f.exponentBits = 2 * 2 ^ (f.exponentBits - 1) := by
    rw [← Nat.pow_succ', Nat.succ_eq_add_one, Nat.sub_add_cancel hf]
  have hpos : 0 < 2 ^ (f.exponentBits - 1) := Nat.two_pow_pos _
  have hmin : f.minExponent = 2 - (2 ^ (f.exponentBits - 1) : Nat) - (f.fractionBits : Int) := rfl
  generalize htop : (2 ^ (f.exponentBits - 1) : Nat) - (f.fractionBits : Int) = top
  have hcanonical : f.Canonical (2 ^ f.fractionBits) top :=
    ⟨Nat.pow_lt_pow_succ one_lt_two, by omega, .inl (Nat.le_refl _)⟩
  have hpattern : f.pattern (2 ^ f.fractionBits) top = f.infinityBits := by
    have hplaces : (top - f.minExponent).toNat + 1 = 2 ^ f.exponentBits - 1 := by omega
    rw [pattern, ← Nat.succ_mul, Nat.succ_eq_add_one, hplaces]
    rfl
  have hvalue : ((2 ^ f.fractionBits : Nat) : ℚ) * 2 ^ top = f.limit := by
    rw [limit, twoTo, twoTo, Nat.pow_eq, Nat.pow_eq, Nat.cast_pow, Nat.cast_pow, Nat.cast_ofNat,
      ← zpow_natCast, ← zpow_natCast, ← zpow_add₀ two_ne_zero]
    congr 1
    omega
  rw [← hpattern, h.pattern_lt_iff hcanonical, hvalue]

end

/-! ### The nearest pattern -/

section
variable {num den : Nat}

/-- The exponent of the last place in which a number is rounded. -/
def unitExponent (f : BinaryFormat) (q : ℚ) : Int :=
  max (Int.log 2 q - f.fractionBits) f.minExponent

/-- A quotient counted in units of a power of two, rounded to whole units. -/
def units (num den : Nat) (e : Int) : Nat := divEven (num * 2 ^ (-e).toNat) (den * 2 ^ e.toNat)

theorem units_le {k : Nat} {e : Int} (hden : 0 < den) (h : (num : ℚ) / den ≤ k * 2 ^ e) :
    units num den e ≤ k :=
  divEven_le (by positivity) ((div_le_mul_zpow_iff k e hden).1 h)

theorem le_units {k : Nat} {e : Int} (hden : 0 < den) (h : (k : ℚ) * 2 ^ e ≤ num / den) :
    k ≤ units num den e :=
  le_divEven (by positivity) ((mul_zpow_le_div_iff k e hden).1 h)

theorem units_eq {k : Nat} {e : Int} (hden : 0 < den) (h : (num : ℚ) / den = k * 2 ^ e) :
    units num den e = k :=
  Nat.le_antisymm (units_le hden h.le) (le_units hden h.ge)

theorem ne_zero_of_div_eq {m : Nat} {e : Int} (hm : m ≠ 0) (hq : (num : ℚ) / den = m * 2 ^ e) :
    num ≠ 0 := by
  rintro rfl
  rw [Nat.cast_zero, zero_div, eq_comm, mul_eq_zero, Nat.cast_eq_zero] at hq
  exact hq.elim hm (by positivity)

theorem units_congr {num' den' : Nat} (e : Int) (hden : 0 < den) (hden' : 0 < den')
    (h : num * den' = num' * den) : units num den e = units num' den' e := by
  refine divEven_congr (by positivity) (by positivity) ?_
  calc num * 2 ^ (-e).toNat * (den' * 2 ^ e.toNat)
      = num * den' * (2 ^ (-e).toNat * 2 ^ e.toNat) := by ring
    _ = num' * 2 ^ (-e).toNat * (den * 2 ^ e.toNat) := by rw [h]; ring

/-- Units of the last place, counted of a number that has the place or a lower one. -/
theorem units_eq_divEven {m : Nat} {e t : Int} (hden : 0 < den) (hq : (num : ℚ) / den = m * 2 ^ e)
    (he : e ≤ t) : units num den t = divEven m (2 ^ (t - e).toNat) := by
  refine divEven_congr (by positivity) (by positivity) ?_
  have hden' : (den : ℚ) ≠ 0 := Nat.cast_ne_zero.2 hden.ne'
  have hshift : (2 : ℚ) ^ (t - e).toNat = 2 ^ t / 2 ^ e := by
    rw [← zpow_natCast, Int.toNat_of_nonneg (by omega), zpow_sub₀ two_ne_zero]
  have hpow : (2 : ℚ) ^ (-t).toNat * 2 ^ t = 2 ^ t.toNat := by
    rw [two_zpow_eq_div t, mul_div_cancel₀ _ (by positivity)]
  rw [← Nat.cast_inj (R := ℚ)]
  push_cast
  rw [hshift, ← hpow, (div_eq_iff hden').1 hq]
  field_simp

theorem log_mul_zpow {m : Nat} (e : Int) (hm : m ≠ 0) :
    Int.log 2 ((m : ℚ) * 2 ^ e) = Nat.log2 m + e := by
  have hq : (0 : ℚ) < m * 2 ^ e := mul_pos (Nat.cast_pos.2 (Nat.pos_of_ne_zero hm)) (by positivity)
  have hlow : Nat.log2 m + e ≤ Int.log 2 ((m : ℚ) * 2 ^ e) := by
    rw [← Int.zpow_le_iff_le_log one_lt_two hq, Nat.cast_ofNat, zpow_add₀ two_ne_zero, zpow_natCast]
    gcongr
    exact_mod_cast Nat.log2_self_le hm
  have hhigh : Int.log 2 ((m : ℚ) * 2 ^ e) < (Nat.log2 m + 1 : Nat) + e := by
    rw [← Int.lt_zpow_iff_log_lt one_lt_two hq, Nat.cast_ofNat, zpow_add₀ two_ne_zero, zpow_natCast]
    gcongr
    exact_mod_cast Nat.lt_log2_self
  push_cast at hhigh
  omega

/-- The leading place of a quotient, found from the lengths of its two parts and one comparison. -/
theorem log_div_eq (hnum : num ≠ 0) (hden : den ≠ 0) :
    Int.log 2 ((num : ℚ) / den) =
      if (2 : ℚ) ^ ((Nat.log2 num : Int) - Nat.log2 den) ≤ num / den then
        (Nat.log2 num : Int) - Nat.log2 den
      else (Nat.log2 num : Int) - Nat.log2 den - 1 := by
  have hnum' : (0 : ℚ) < num := Nat.cast_pos.2 (Nat.pos_of_ne_zero hnum)
  have hden' : (0 : ℚ) < den := Nat.cast_pos.2 (Nat.pos_of_ne_zero hden)
  have hq : (0 : ℚ) < num / den := div_pos hnum' hden'
  have htwo : (2 : ℚ) ≠ 0 := two_ne_zero
  have hlow : (2 : ℚ) ^ num.log2 ≤ num := by exact_mod_cast Nat.log2_self_le hnum
  have hhigh : (num : ℚ) < 2 ^ num.log2 * 2 := by
    exact_mod_cast pow_succ 2 num.log2 ▸ Nat.lt_log2_self (n := num)
  have hlow' : (2 : ℚ) ^ den.log2 ≤ den := by exact_mod_cast Nat.log2_self_le hden
  have hhigh' : (den : ℚ) < 2 ^ den.log2 * 2 := by
    exact_mod_cast pow_succ 2 den.log2 ▸ Nat.lt_log2_self (n := den)
  generalize hlead : (Nat.log2 num : Int) - Nat.log2 den = lead
  have hpow : (2 : ℚ) ^ lead = 2 ^ num.log2 / 2 ^ den.log2 := by
    rw [← hlead, zpow_sub₀ htwo, zpow_natCast, zpow_natCast]
  have hbelow : lead - 1 ≤ Int.log 2 ((num : ℚ) / den) := by
    rw [← Int.zpow_le_iff_le_log one_lt_two hq, Nat.cast_ofNat, zpow_sub_one₀ htwo, hpow,
      le_div_iff₀ hden', ← div_eq_mul_inv, div_div, div_mul_eq_mul_div,
      div_le_iff₀ (by positivity)]
    calc (2 : ℚ) ^ num.log2 * den ≤ num * (2 ^ den.log2 * 2) := by gcongr
      _ = _ := rfl
  have habove : Int.log 2 ((num : ℚ) / den) < lead + 1 := by
    rw [← Int.lt_zpow_iff_log_lt one_lt_two hq, Nat.cast_ofNat, zpow_add_one₀ htwo, hpow,
      div_lt_iff₀ hden', div_mul_eq_mul_div, div_mul_eq_mul_div, lt_div_iff₀ (by positivity)]
    calc (num : ℚ) * 2 ^ den.log2 ≤ num * den := by gcongr
      _ < 2 ^ num.log2 * 2 * den := by gcongr
  have hreach : (2 : ℚ) ^ lead ≤ num / den ↔ lead ≤ Int.log 2 ((num : ℚ) / den) := by
    rw [← Int.zpow_le_iff_le_log one_lt_two hq, Nat.cast_ofNat]
  split
  · next h => exact le_antisymm (by omega) (hreach.1 h)
  · next h => have := mt hreach.2 h; omega

/-- The nearest pattern counts the units of the last place and puts them on top of the exponent. -/
theorem nearest_eq (f : BinaryFormat) (hnum : num ≠ 0) (hden : den ≠ 0) :
    f.nearest num den =
      if f.pattern (units num den (f.unitExponent (num / den))) (f.unitExponent (num / den)) <
          f.infinityBits then
        some (f.pattern (units num den (f.unitExponent (num / den)))
          (f.unitExponent (num / den)))
      else none := by
  have hpos : 0 < den := Nat.pos_of_ne_zero hden
  -- the test for a power of two, in whole numbers and in rationals
  have hreach : ∀ e : Int, ((if 0 ≤ e then decide (den * twoTo e.toNat ≤ num)
      else decide (den ≤ num * twoTo (-e).toNat)) = true) = ((2 : ℚ) ^ e ≤ num / den) := by
    intro e
    have hiff := @mul_zpow_le_div_iff num den 1 e hpos
    rw [Nat.cast_one, one_mul, Nat.one_mul] at hiff
    rw [hiff]
    rcases Int.lt_or_le e 0 with he | he
    · rw [if_neg (Int.not_le.2 he), Int.toNat_of_nonpos he.le, pow_zero, Nat.mul_one,
        decide_eq_true_eq]
      rfl
    · rw [if_pos he, Int.toNat_of_nonpos (Int.neg_nonpos_of_nonneg he), pow_zero, Nat.mul_one,
        decide_eq_true_eq]
      rfl
  have hunits : ∀ e : Int, (if 0 ≤ e then divEven num (den * twoTo e.toNat)
      else divEven (num * twoTo (-e).toNat) den) = units num den e := by
    intro e
    unfold units
    rcases Int.lt_or_le e 0 with he | he
    · rw [if_neg (by omega), Int.toNat_of_nonpos (by omega : e ≤ 0), pow_zero, Nat.mul_one]
      rfl
    · rw [if_pos he, Int.toNat_of_nonpos (by omega : -e ≤ 0), pow_zero, Nat.mul_one]
      rfl
  simp only [nearest, beq_iff_eq, hnum, if_false, hreach, hunits, ← log_div_eq hnum hden]
  rfl

theorem nearest_zero (f : BinaryFormat) (den : Nat) : f.nearest 0 den = some 0 := rfl

/-- The nearest pattern depends on the quotient only. -/
theorem nearest_congr (f : BinaryFormat) {num' den' : Nat} (hden : den ≠ 0) (hden' : den' ≠ 0)
    (h : num * den' = num' * den) : f.nearest num den = f.nearest num' den' := by
  have hpos := Nat.pos_of_ne_zero hden
  have hpos' := Nat.pos_of_ne_zero hden'
  by_cases hnum : num = 0
  · have hnum' : num' = 0 := by
      rw [hnum, Nat.zero_mul] at h
      exact (Nat.mul_eq_zero.1 h.symm).resolve_right hden
    rw [hnum, hnum', nearest_zero, nearest_zero]
  · have hnum' : num' ≠ 0 := by
      rintro rfl
      rw [Nat.zero_mul] at h
      exact hnum ((Nat.mul_eq_zero.1 h).resolve_right hden')
    have hq : (num : ℚ) / den = num' / den' := by
      rw [div_eq_div_iff (Nat.cast_ne_zero.2 hden) (Nat.cast_ne_zero.2 hden')]
      exact_mod_cast h
    rw [nearest_eq f hnum hden, nearest_eq f hnum' hden', hq, units_congr _ hpos hpos' h]

/-- What is rounded fits the place that a pattern has for it, up to a carry. -/
theorem units_bounds (f : BinaryFormat) (hnum : num ≠ 0) (hden : den ≠ 0) :
    units num den (f.unitExponent (num / den)) ≤ 2 ^ (f.fractionBits + 1) ∧
      (2 ^ f.fractionBits ≤ units num den (f.unitExponent (num / den)) ∨
        f.unitExponent (num / den) = f.minExponent) := by
  have hpos : 0 < den := Nat.pos_of_ne_zero hden
  have hq : (0 : ℚ) < num / den :=
    div_pos (Nat.cast_pos.2 (Nat.pos_of_ne_zero hnum)) (Nat.cast_pos.2 hpos)
  generalize hlog : Int.log 2 ((num : ℚ) / den) = top
  have hlow : (2 : ℚ) ^ top ≤ num / den := hlog ▸ Int.zpow_log_le_self one_lt_two hq
  have hhigh : (num : ℚ) / den < 2 ^ (top + 1) := hlog ▸ Int.lt_zpow_succ_log_self one_lt_two _
  rw [unitExponent, hlog]
  constructor
  · refine units_le hpos (hhigh.le.trans ?_)
    rw [Nat.cast_pow, Nat.cast_ofNat, ← zpow_natCast, ← zpow_add₀ two_ne_zero]
    exact zpow_le_zpow_right₀ one_le_two (by push_cast; omega)
  · refine (le_or_gt (top - f.fractionBits) f.minExponent).symm.imp (fun hlarge => ?_) max_eq_right
    refine le_units hpos (le_of_eq_of_le ?_ hlow)
    rw [max_eq_left hlarge.le, Nat.cast_pow, Nat.cast_ofNat, ← zpow_natCast,
      ← zpow_add₀ two_ne_zero]
    congr 1
    omega

end

/-! ### The number that is nearest -/

section
variable {f : BinaryFormat} {num den : Nat}

/-- Units that have carried into the next place make the pattern of the next exponent. -/
theorem exists_canonical_of_units {n : Nat} {e : Int} (hn : n ≤ 2 ^ (f.fractionBits + 1))
    (hleast : f.minExponent ≤ e) (hfull : 2 ^ f.fractionBits ≤ n ∨ e = f.minExponent) :
    ∃ m e', f.Canonical m e' ∧ f.pattern m e' = f.pattern n e ∧ (m : ℚ) * 2 ^ e' = n * 2 ^ e := by
  rcases Nat.lt_or_eq_of_le hn with hlt | rfl
  · exact ⟨n, e, ⟨hlt, hleast, hfull⟩, rfl, rfl⟩
  · refine ⟨2 ^ f.fractionBits, e + 1, ⟨?_, by omega, .inl (Nat.le_refl _)⟩, ?_, ?_⟩
    · exact Nat.pow_lt_pow_succ one_lt_two
    · have hexponent : (e + 1 - f.minExponent).toNat = (e - f.minExponent).toNat + 1 := by omega
      rw [pattern, pattern, hexponent]
      ring
    · push_cast
      rw [zpow_add_one₀ two_ne_zero]
      ring

/-- The nearest pattern is that of the quotient in whole units of the last place. -/
theorem exists_nearest_eq (f : BinaryFormat) (hnum : num ≠ 0) (hden : den ≠ 0) :
    ∃ m e, f.Canonical m e ∧
      (m : ℚ) * 2 ^ e =
        units num den (f.unitExponent (num / den)) * 2 ^ f.unitExponent (num / den) ∧
      f.nearest num den =
        if f.pattern m e < f.infinityBits then some (f.pattern m e) else none := by
  obtain ⟨hbound, hfull⟩ := units_bounds f hnum hden
  have hleast : f.minExponent ≤ f.unitExponent (num / den) := le_max_right _ _
  obtain ⟨m, e, hcanonical, hpattern, hvalue⟩ := exists_canonical_of_units hbound hleast hfull
  exact ⟨m, e, hcanonical, hvalue, by rw [nearest_eq f hnum hden, hpattern]⟩

/-- The last place of a number of the format is that of its significand. -/
theorem Canonical.unitExponent_eq {m : Nat} {e : Int} (h : f.Canonical m e) (hm : m ≠ 0) :
    f.unitExponent (m * 2 ^ e) = e := by
  have hq : (0 : ℚ) < m * 2 ^ e := mul_pos (Nat.cast_pos.2 (Nat.pos_of_ne_zero hm)) (by positivity)
  have habove : Int.log 2 ((m : ℚ) * 2 ^ e) < f.fractionBits + 1 + e := by
    rw [← Int.lt_zpow_iff_log_lt one_lt_two hq, Nat.cast_ofNat, zpow_add₀ two_ne_zero]
    gcongr
    exact_mod_cast h.lt
  rw [unitExponent]
  rcases h.full with hfull | hleast
  · have hbelow : f.fractionBits + e ≤ Int.log 2 ((m : ℚ) * 2 ^ e) := by
      rw [← Int.zpow_le_iff_le_log one_lt_two hq, Nat.cast_ofNat, zpow_add₀ two_ne_zero]
      gcongr
      exact_mod_cast hfull
    have := h.least
    omega
  · omega

/-- A number of the format is its own nearest. -/
theorem nearest_of_canonical {m : Nat} {e : Int} (h : f.Canonical m e) (hm : m ≠ 0)
    (hfits : f.pattern m e < f.infinityBits) (hden : den ≠ 0) (hq : (num : ℚ) / den = m * 2 ^ e) :
    f.nearest num den = some (f.pattern m e) := by
  rw [nearest_eq f (ne_zero_of_div_eq hm hq) hden, hq, h.unitExponent_eq hm,
    units_eq (Nat.pos_of_ne_zero hden) hq, if_pos hfits]

/-- A number of a format is also one of a format with room for it. -/
theorem exists_nearest_of_wider {g : BinaryFormat} {m : Nat} {e : Int} (h : f.Canonical m e)
    (hm : m ≠ 0) (hfits : f.pattern m e < f.infinityBits) (hf : 0 < f.exponentBits)
    (hfraction : f.fractionBits ≤ g.fractionBits) (hexponent : f.exponentBits ≤ g.exponentBits)
    (hleast : g.minExponent ≤ f.minExponent) (hden : den ≠ 0)
    (hq : (num : ℚ) / den = m * 2 ^ e) :
    ∃ m' e', g.Canonical m' e' ∧ g.pattern m' e' < g.infinityBits ∧
      (m' : ℚ) * 2 ^ e' = m * 2 ^ e ∧ g.nearest num den = some (g.pattern m' e') := by
  have hplace : g.unitExponent (num / den) ≤ e := by
    have hlog : m.log2 ≤ f.fractionBits := Nat.le_of_lt_succ ((Nat.log2_lt hm).2 h.lt)
    have := h.least
    rw [hq, unitExponent, log_mul_zpow e hm]
    omega
  obtain ⟨m', e', hcanonical, hvalue, hnearest⟩ :=
    exists_nearest_eq g (ne_zero_of_div_eq hm hq) hden
  generalize g.unitExponent (num / den) = t at *
  have hunits : (num : ℚ) / den = (m * 2 ^ (e - t).toNat : Nat) * 2 ^ t := by
    rw [hq, Nat.cast_mul, Nat.cast_pow, Nat.cast_ofNat, ← zpow_natCast,
      Int.toNat_of_nonneg (by omega), mul_assoc, ← zpow_add₀ two_ne_zero, sub_add_cancel]
  rw [units_eq (Nat.pos_of_ne_zero hden) hunits, ← hunits, hq] at hvalue
  have hrange : g.pattern m' e' < g.infinityBits := by
    rw [hcanonical.pattern_lt_infinity_iff (hf.trans_le hexponent), hvalue]
    exact ((h.pattern_lt_infinity_iff hf).1 hfits).trans_le
      (Nat.cast_le.2 (limit_le_limit hexponent))
  exact ⟨m', e', hcanonical, hrange, hvalue, by rw [hnearest, if_pos hrange]⟩

end

end BinaryFormat

end FormBasic.Decimal
