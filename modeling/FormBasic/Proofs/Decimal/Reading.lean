import FormBasic.Decimal.Notation
import FormBasic.Decimal.Reader
import FormBasic.Proofs.Decimal.DoubleValue
import FormBasic.Text.Blank

/-!
# Reading decimal numbers

A decimal number is spelled with digits, and perhaps a point and an exponent. The reader of whole
numbers takes the digits alone, and is exact. The reader of doubles takes every spelling, and rounds
once. So a whole number that is spelled with a point or an exponent, or that the reader of whole
numbers has no room for, comes out as the nearest double.

## Main definitions

* `Numeral` — the spelling of a decimal number
* `Numeral.value` — the number

## Main results

* `readInt?_intText` — the decimal text of a whole number
* `Numeral.readInt?_chars` — the reader of whole numbers on every spelling
* `Numeral.exists_readDouble?_of_whole`, `Numeral.readDouble?_eq_none` — the reader of doubles on
  every spelling of a whole number
-/

namespace FormBasic.Decimal

/-! ### Digits -/

/-- One or more decimal digits. -/
def AreDigits (cs : List Char) : Prop := cs ≠ [] ∧ ∀ c ∈ cs, isDigit c = true

section
variable {c : Char} {cs : List Char}

theorem isDigit_eq (c : Char) : isDigit c = c.isDigit := by
  rw [isDigit, Char.isDigit, Bool.eq_iff_iff]
  simp only [Bool.and_eq_true, decide_eq_true_iff, Char.toNat, ge_iff_le, UInt32.le_iff_toNat_le]
  rfl

theorem digitOf?_ten (c : Char) :
    digitOf? 10 c = if isDigit c then some (c.toNat - 48) else none := by
  unfold digitOf? digitValue? isDigit
  generalize c.toNat = n
  simp only [Bool.and_eq_true, decide_eq_true_iff]
  split
  · rw [Option.filter_some, if_pos (decide_eq_true (by omega))]
  · -- a letter has a value from ten on
    split
    · rw [Option.filter_some, if_neg (by simp; omega)]
    · split
      · rw [Option.filter_some, if_neg (by simp; omega)]
      · rfl

theorem readDigits_of_isDigit (h : ∀ c ∈ cs, isDigit c = true) (acc : Nat) :
    readDigits 10 acc cs = some (Nat.ofDigitChars 10 cs acc) := by
  induction cs generalizing acc with
  | nil => rw [Nat.ofDigitChars_nil]; rfl
  | cons c cs ih =>
    rw [readDigits, digitOf?_ten, if_pos (h c List.mem_cons_self), Nat.ofDigitChars_cons,
      Nat.mul_comm]
    exact ih (fun d hd => h d (List.mem_cons_of_mem c hd)) _

theorem readDigits_of_not_isDigit (h : ∃ c ∈ cs, isDigit c = false) (acc : Nat) :
    readDigits 10 acc cs = none := by
  induction cs generalizing acc with
  | nil => simp at h
  | cons d cs ih =>
    rw [readDigits, digitOf?_ten]
    cases hd : isDigit d with
    | false => rfl
    | true =>
      obtain ⟨c, hc, hnot⟩ := h
      rcases List.mem_cons.1 hc with rfl | hc
      · rw [hd] at hnot
        cases hnot
      · exact ih ⟨c, hc, hnot⟩ _

theorem AreDigits.readNat? (h : AreDigits cs) :
    readNat? 10 cs = some (Nat.ofDigitChars 10 cs 0) := by
  cases cs with
  | nil => exact absurd rfl h.1
  | cons c cs => exact readDigits_of_isDigit h.2 0

theorem areDigits_digitChars (n : Nat) : AreDigits (digitChars n) :=
  ⟨Nat.toDigits_ne_nil, fun c hc => by
    rw [isDigit_eq]
    exact Nat.isDigit_of_mem_toDigits (by decide) (by decide) hc⟩

/-- The characters of a whole number. -/
theorem isDigit_or_eq_of_mem_intText {n : Int} (hc : c ∈ (intText n).toList) :
    isDigit c = true ∨ c = '-' := by
  unfold intText at hc
  split at hc <;> rw [String.toList_ofList] at hc
  · rcases List.mem_cons.1 hc with rfl | hc
    · exact .inr rfl
    · exact .inl ((areDigits_digitChars _).2 c hc)
  · exact .inl ((areDigits_digitChars _).2 c hc)

theorem not_mem_intText (hc : isDigit c = false) (hminus : c ≠ '-') (n : Int) :
    c ∉ (intText n).toList := by
  intro hmem
  rcases isDigit_or_eq_of_mem_intText hmem with h | h
  · rw [hc] at h
    cases h
  · exact hminus h

theorem ne_of_isDigit {d : Char} (h : isDigit c = true) (hd : isDigit d = false) : c ≠ d := by
  rintro rfl
  rw [h] at hd
  cases hd

theorem AreDigits.not_mem (h : AreDigits cs) (hc : isDigit c = false) : c ∉ cs :=
  fun hmem => ne_of_isDigit (h.2 c hmem) hc rfl

theorem AreDigits.readSign (h : AreDigits cs) (rest : List Char) :
    readSign (cs ++ rest) = (false, cs ++ rest) := by
  cases cs with
  | nil => exact absurd rfl h.1
  | cons c cs =>
    have hc := h.2 c List.mem_cons_self
    rw [List.cons_append, Decimal.readSign]
    · exact fun _ heq => ne_of_isDigit hc (d := '-') (by decide) (List.cons.inj heq).1
    · exact fun _ heq => ne_of_isDigit hc (d := '+') (by decide) (List.cons.inj heq).1

end

/-! ### Whole numbers -/

/-- A whole number with its sign. -/
def signed (negative : Bool) (n : Nat) : Int := if negative then -n else n

theorem signed_natAbs (n : Int) : signed (decide (n < 0)) n.natAbs = n := by
  by_cases hn : n < 0
  · rw [signed, decide_eq_true hn, if_pos rfl]
    omega
  · rw [signed, decide_eq_false hn, if_neg Bool.false_ne_true]
    omega

/-- A sign and digits are read as a whole number, if it lies inside the bounds. -/
theorem readInt?_of_digits {cs digits : List Char} {negative : Bool} (low high : Int)
    (hsign : readSign cs = (negative, digits)) (h : AreDigits digits) :
    readInt? low high cs =
      if low ≤ signed negative (Nat.ofDigitChars 10 digits 0) ∧
          signed negative (Nat.ofDigitChars 10 digits 0) ≤ high then
        some (signed negative (Nat.ofDigitChars 10 digits 0))
      else none := by
  simp only [readInt?, hsign, h.readNat?]
  rfl

/-- With anything but digits after the sign there is no whole number. -/
theorem readInt?_of_not_isDigit {cs rest : List Char} {negative : Bool} (low high : Int)
    (hsign : readSign cs = (negative, rest)) (h : ∃ c ∈ rest, isDigit c = false) :
    readInt? low high cs = none := by
  have hnone : readNat? 10 rest = none := by
    cases rest with
    | nil => rfl
    | cons c rest => exact readDigits_of_not_isDigit h 0
  simp only [readInt?, hsign, hnone]
  rfl

/-! ### Spellings -/

/-- The exponent of a decimal number: a letter, perhaps a sign, and digits. -/
structure Exponent where
  letter : Char
  sign : Option Char
  digits : List Char
  letter_mem : letter = 'e' ∨ letter = 'E'
  sign_mem : ∀ c ∈ sign, c = '-' ∨ c = '+'
  areDigits : AreDigits digits

/-- How a decimal number is spelled: perhaps a minus, digits, perhaps a point and more digits, and
perhaps an exponent. -/
structure Numeral where
  negative : Bool
  whole : List Char
  fraction : Option (List Char)
  exponent : Option Exponent
  areDigits_whole : AreDigits whole
  areDigits_fraction : ∀ ds ∈ fraction, AreDigits ds

namespace Exponent

/-- The characters after the letter. -/
def body (x : Exponent) : List Char := x.sign.toList ++ x.digits

/-- The power of ten. -/
def value (x : Exponent) : Int :=
  signed (x.sign == some '-') (Nat.ofDigitChars 10 x.digits 0)

theorem readExponentDigits_eq {cs : List Char} (h : ∀ c ∈ cs, isDigit c = true) (acc : Nat) :
    readExponentDigits acc cs = (Nat.ofDigitChars 10 cs acc, []) := by
  induction cs generalizing acc with
  | nil => rw [Nat.ofDigitChars_nil]; rfl
  | cons c cs ih =>
    have hc := h c List.mem_cons_self
    have hne : (c == '_') = false := beq_eq_false_iff_ne.2 (ne_of_isDigit hc (by decide))
    rw [readExponentDigits, hne, if_neg Bool.false_ne_true, if_pos hc, Nat.ofDigitChars_cons,
      Nat.mul_comm]
    exact ih (fun d hd => h d (List.mem_cons_of_mem c hd)) _

theorem readExponent?_body (x : Exponent) : readExponent? x.body = some (x.value, []) := by
  have hsign : readSign x.body = (x.sign == some '-', x.digits) := by
    have hnone := x.areDigits.readSign []
    rw [List.append_nil] at hnone
    unfold body
    rcases hs : x.sign with _ | c
    · exact hnone
    · rcases x.sign_mem c hs with rfl | rfl <;> rfl
  obtain ⟨c, cs, hcs⟩ := List.exists_cons_of_ne_nil x.areDigits.1
  have hc : isDigit c = true := x.areDigits.2 c (hcs ▸ List.mem_cons_self)
  have hdigits := readExponentDigits_eq x.areDigits.2 0
  rw [hcs] at hdigits
  simp only [readExponent?, hsign, hcs, hc, hdigits, if_true, value, signed]

end Exponent

namespace Numeral

/-- The exponent with its letter. -/
def tail (t : Numeral) : List Char := t.exponent.elim [] fun x => x.letter :: x.body

/-- The characters after the sign. -/
def body (t : Numeral) : List Char := t.whole ++ (t.fraction.elim [] ('.' :: ·) ++ t.tail)

/-- The characters of a number. -/
def chars (t : Numeral) : List Char := if t.negative then '-' :: t.body else t.body

/-- All digits before the exponent as one number. -/
def mantissa (t : Numeral) : Nat := Nat.ofDigitChars 10 (t.whole ++ t.fraction.getD []) 0

/-- The power of ten that the mantissa is counted in. -/
def scale (t : Numeral) : Int :=
  (t.exponent.elim 0 Exponent.value) - ((t.fraction.getD []).length : Nat)

/-- The number that is spelled. -/
def value (t : Numeral) : ℚ :=
  (if t.negative then -1 else 1) * (t.mantissa * 10 ^ t.scale)

/-- A number that is spelled with digits only. -/
def IsPlain (t : Numeral) : Prop := t.fraction = none ∧ t.exponent = none

instance (t : Numeral) : Decidable t.IsPlain :=
  decidable_of_iff (t.fraction.isNone ∧ t.exponent.isNone) (by simp [IsPlain])

theorem readSign_chars (t : Numeral) : readSign t.chars = (t.negative, t.body) := by
  unfold chars
  cases t.negative with
  | true => rfl
  | false => exact t.areDigits_whole.readSign _

/-! ### Whole numbers from a spelling -/

/-- The reader of whole numbers takes digits only, and inside the bounds it takes them exactly. -/
theorem readInt?_chars (low high : Int) (t : Numeral) :
    readInt? low high t.chars =
      if t.IsPlain ∧ low ≤ signed t.negative t.mantissa ∧ signed t.negative t.mantissa ≤ high then
        some (signed t.negative t.mantissa)
      else none := by
  by_cases hplain : t.IsPlain
  · have hbody : t.body = t.whole := by simp [body, tail, hplain.1, hplain.2]
    have hmantissa : t.mantissa = Nat.ofDigitChars 10 t.whole 0 := by simp [mantissa, hplain.1]
    rw [readInt?_of_digits low high (hbody ▸ t.readSign_chars) t.areDigits_whole, hmantissa]
    simp only [hplain, true_and]
  · rw [if_neg (fun h => hplain h.1)]
    refine readInt?_of_not_isDigit low high t.readSign_chars ?_
    rcases hf : t.fraction with _ | ds
    · rcases hx : t.exponent with _ | x
      · exact absurd ⟨hf, hx⟩ hplain
      · refine ⟨x.letter, by simp [body, tail, hx], ?_⟩
        rcases x.letter_mem with h | h <;> rw [h] <;> rfl
    · exact ⟨'.', by simp [body, hf], rfl⟩

/-! ### Doubles from a spelling -/

/-- Digits are added to a mantissa one after the other. -/
theorem readMantissa_append {cs : List Char} (h : ∀ c ∈ cs, isDigit c = true) (m : Mantissa)
    (rest : List Char) :
    readMantissa 10 m (cs ++ rest) =
      readMantissa 10
        { m with
          value := Nat.ofDigitChars 10 cs m.value
          places := if m.pointSeen then m.places + cs.length else m.places
          anyDigit := m.anyDigit || !cs.isEmpty } rest := by
  induction cs generalizing m with
  | nil => simp
  | cons c cs ih =>
    have hc := h c List.mem_cons_self
    have hseparator : (c == '_') = false := beq_eq_false_iff_ne.2 (ne_of_isDigit hc (by decide))
    have hpoint : (c == '.') = false := beq_eq_false_iff_ne.2 (ne_of_isDigit hc (by decide))
    rw [List.cons_append, readMantissa, hseparator, hpoint, digitOf?_ten, if_pos hc]
    simp only [Bool.false_eq_true, if_false]
    rw [ih (fun d hd => h d (List.mem_cons_of_mem c hd)), Nat.ofDigitChars_cons, Nat.mul_comm,
      List.length_cons, Nat.add_comm cs.length, ← Nat.add_assoc]
    cases m.pointSeen <;> simp

/-- Digits, and perhaps a point and more digits, are read as one number. -/
theorem readMantissa_digits {whole rest : List Char} {fraction : Option (List Char)}
    (hwhole : ∀ c ∈ whole, isDigit c = true)
    (hfraction : ∀ ds ∈ fraction, ∀ c ∈ ds, isDigit c = true)
    (hrest : ∀ m, readMantissa 10 m rest = (m, rest)) :
    readMantissa 10 {} (whole ++ (fraction.elim [] ('.' :: ·) ++ rest)) =
      ({ value := Nat.ofDigitChars 10 (whole ++ fraction.getD []) 0
         places := (fraction.getD []).length
         anyDigit := !(whole ++ fraction.getD []).isEmpty
         pointSeen := fraction.isSome }, rest) := by
  rw [readMantissa_append hwhole]
  rcases fraction with _ | ds
  · rw [show Option.elim none [] ('.' :: ·) ++ rest = rest from rfl, hrest]
    simp
  · rw [show Option.elim (some ds) [] ('.' :: ·) ++ rest = '.' :: (ds ++ rest) from rfl]
    have hpoint : ∀ m : Mantissa, m.pointSeen = false → readMantissa 10 m ('.' :: (ds ++ rest)) =
        readMantissa 10 { m with pointSeen := true } (ds ++ rest) := by
      intro m hm
      simp [readMantissa, hm]
    have hempty : (whole ++ ds).isEmpty = (whole.isEmpty && ds.isEmpty) := by cases whole <;> rfl
    rw [hpoint _ rfl, readMantissa_append (hfraction ds rfl), hrest]
    simp [Nat.ofDigitChars_append, hempty]

/-- A mantissa ends where the exponent begins. -/
theorem readMantissa_tail (t : Numeral) (m : Mantissa) :
    readMantissa 10 m t.tail = (m, t.tail) := by
  rcases hx : t.exponent with _ | x
  · simp [tail, hx, readMantissa]
  · rw [show t.tail = x.letter :: x.body by simp [tail, hx]]
    rcases x.letter_mem with h | h <;> rw [h] <;> rfl

theorem readMantissa_body (t : Numeral) :
    readMantissa 10 {} t.body =
      ({ value := t.mantissa, places := (t.fraction.getD []).length, anyDigit := true,
         pointSeen := t.fraction.isSome }, t.tail) := by
  have hany : (!(t.whole ++ t.fraction.getD []).isEmpty) = true := by simp [t.areDigits_whole.1]
  rw [body, readMantissa_digits t.areDigits_whole.2 (fun ds hds => (t.areDigits_fraction ds hds).2)
    t.readMantissa_tail, hany]
  rfl

/-- What has a digit and is spelled with the characters of decimal numbers is read as one. -/
theorem readMagnitude?_of_chars {cs : List Char}
    (hchars : ∀ c ∈ cs, isDigit c = true ∨ c ∈ ['.', 'e', 'E', '-', '+'])
    (hany : (readMantissa 10 {} cs).1.anyDigit = true) :
    readMagnitude? cs = match readMantissa 10 {} cs with
      | (m, []) => some (.number m.value 10 (-(m.places : Int)))
      | (m, c :: rest) =>
        if c == 'e' || c == 'E' then
          match readExponent? rest with
          | some (e, []) => some (.number m.value 10 (e - m.places))
          | _ => none
        else none := by
  have hne : ∀ {c d : Char}, c ∈ cs → isDigit d = false → d ∉ ['.', 'e', 'E', '-', '+'] →
      c ≠ d := by
    rintro c d hc hdigit hd rfl
    rcases hchars c hc with h | h
    · rw [h] at hdigit
      cases hdigit
    · exact hd h
  unfold readMagnitude?
  extract_lets hexBody separated
  have hhex : hexBody = none := by
    unfold hexBody
    split
    · next c d rest =>
      have hc : c ∈ '0' :: c :: d :: rest := List.mem_cons_of_mem _ List.mem_cons_self
      have hlower : (c == 'x') = false := beq_eq_false_iff_ne.2 (hne hc rfl (by decide))
      have hupper : (c == 'X') = false := beq_eq_false_iff_ne.2 (hne hc rfl (by decide))
      rw [hlower, hupper]
      rfl
    · rfl
  have hseparated : separated = false := by
    unfold separated
    rw [List.contains_eq_mem, decide_eq_false_iff_not]
    exact fun h => hne h (d := '_') (by decide) (by decide) rfl
  simp only [hhex, hseparated, hany, Bool.not_true, Bool.false_and, Bool.or_false,
    Bool.false_eq_true, if_false]
  rcases readMantissa 10 {} cs with ⟨m, _ | ⟨c, rest⟩⟩ <;> rfl

/-- The characters that a number is made of after its sign. -/
theorem isDigit_or_mem_of_mem_body (t : Numeral) {c : Char} (hc : c ∈ t.body) :
    isDigit c = true ∨ c ∈ ['.', 'e', 'E', '-', '+'] := by
  rcases List.mem_append.1 hc with hc | hc
  · exact .inl (t.areDigits_whole.2 c hc)
  rcases List.mem_append.1 hc with hc | hc
  · rcases hf : t.fraction with _ | ds <;> rw [hf] at hc
    · exact absurd hc List.not_mem_nil
    · rcases List.mem_cons.1 hc with rfl | hc
      · exact .inr (by decide)
      · exact .inl ((t.areDigits_fraction ds hf).2 c hc)
  · rcases hx : t.exponent with _ | x <;> rw [tail, hx] at hc
    · exact absurd hc List.not_mem_nil
    · rcases List.mem_cons.1 hc with rfl | hc
      · rcases x.letter_mem with h | h <;> rw [h] <;> exact .inr (by decide)
      rcases List.mem_append.1 hc with hc | hc
      · rcases x.sign_mem c (Option.mem_toList.1 hc) with rfl | rfl <;> exact .inr (by decide)
      · exact .inl (x.areDigits.2 c hc)

/-- A decimal number is read as its mantissa and its scale. -/
theorem readMagnitude?_body (t : Numeral) :
    readMagnitude? t.body = some (.number t.mantissa 10 t.scale) := by
  rw [readMagnitude?_of_chars (fun _ => t.isDigit_or_mem_of_mem_body) (by rw [t.readMantissa_body]),
    t.readMantissa_body]
  rcases hx : t.exponent with _ | x
  · rw [show t.tail = [] by simp [tail, hx]]
    simp [scale, hx]
  · rw [show t.tail = x.letter :: x.body by simp [tail, hx]]
    have hletter : (x.letter == 'e' || x.letter == 'E') = true := by
      rcases x.letter_mem with h | h <;> rw [h] <;> rfl
    simp [hletter, x.readExponent?_body, scale, hx]

theorem spelled_eq_false {word : String} {c : Char} {cs : List Char}
    (h : c.toLower ∉ word.toList) : spelled word (c :: cs) = false := by
  rw [spelled, beq_eq_false_iff_ne]
  intro heq
  exact h (heq ▸ List.mem_cons_self)

theorem toLower_of_isDigit {c : Char} (h : isDigit c = true) : c.toLower = c := by
  rw [isDigit, Bool.and_eq_true, decide_eq_true_iff, decide_eq_true_iff] at h
  rw [Char.toLower, dif_neg]
  exact fun hupper => absurd (UInt32.le_iff_toNat_le.1 hupper.1)
    (Nat.not_le.2 (Nat.lt_of_le_of_lt h.2 (by decide)))

/-- A decimal number with its sign. -/
theorem readSigned?_chars (t : Numeral) :
    readSigned? t.chars = some (t.negative, .number t.mantissa 10 t.scale) := by
  obtain ⟨c, cs, hcs⟩ := List.exists_cons_of_ne_nil t.areDigits_whole.1
  have hc : isDigit c = true := t.areDigits_whole.2 c (hcs ▸ List.mem_cons_self)
  have hbody : ∀ word : String, word.toList.any isDigit = false → spelled word t.body = false := by
    intro word hword
    rw [body, hcs]
    refine spelled_eq_false fun hmem => ?_
    rw [toLower_of_isDigit hc] at hmem
    exact Bool.false_ne_true (hword.symm.trans (List.any_eq_true.2 ⟨c, hmem, hc⟩))
  have hnan : spelled "nan" t.chars = false := by
    unfold chars
    cases t.negative with
    | true => exact spelled_eq_false (by decide)
    | false => exact hbody "nan" (by decide)
  simp only [readSigned?, hnan, t.readSign_chars, hbody "inf" (by decide),
    hbody "infinity" (by decide), t.readMagnitude?_body]
  rfl

end Numeral

/-! ### Rounding -/

open BinaryFormat

theorem lt_two_pow_exponentLimit (m : Nat) : m < 2 ^ exponentLimit m :=
  Nat.lt_log2_self.trans_le (Nat.pow_le_pow_right two_pos (by unfold exponentLimit; omega))

/-- A whole number with zeros at its end. What has more of them than a double can hold is out of
range. -/
theorem bits?_of_nonneg {m k : Nat} {e : Int} (hm : 0 < m) (he : 0 ≤ e)
    (hk : m * 10 ^ e.toNat = k) :
    (Magnitude.number m 10 e).bits? .double = double.nearest k 1 := by
  simp only [Magnitude.bits?, beq_iff_eq, hm.ne', if_false]
  rw [if_neg (by omega : ¬ e < -(exponentLimit m : Int)), if_pos he]
  split
  · next hlarge =>
    have hexponent : twoTo (double.exponentBits - 1) ≤ e.toNat := by
      have : twoTo (double.exponentBits - 1) = 1024 := by decide
      unfold exponentLimit at hlarge
      omega
    refine (nearest_whole_eq_none (limit_le_nearestWhole ?_)).symm
    calc double.limit ≤ 2 ^ e.toNat := limit_le_two_pow hexponent
      _ ≤ 10 ^ e.toNat := Nat.pow_le_pow_left (by decide) _
      _ ≤ m * 10 ^ e.toNat := Nat.le_mul_of_pos_left _ hm
      _ = k := hk
  · exact congrArg (double.nearest · 1) hk

/-- A whole number with a point, behind which there are only zeros. -/
theorem bits?_of_neg {m k : Nat} {e : Int} (hm : 0 < m) (he : e < 0)
    (hk : m = k * 10 ^ (-e).toNat) :
    (Magnitude.number m 10 e).bits? .double = double.nearest k 1 := by
  have hkpos : 0 < k := Nat.pos_of_mul_pos_right (hk ▸ hm)
  -- a multiple of so high a power of ten would be greater than the mantissa
  have hsmall : ¬ e < -(exponentLimit m : Int) := by
    intro hsmall
    refine absurd (lt_two_pow_exponentLimit m) (Nat.not_lt.2 ?_)
    calc 2 ^ exponentLimit m ≤ 2 ^ (-e).toNat := Nat.pow_le_pow_right two_pos (by omega)
      _ ≤ 10 ^ (-e).toNat := Nat.pow_le_pow_left (by decide) _
      _ ≤ k * 10 ^ (-e).toNat := Nat.le_mul_of_pos_left _ hkpos
      _ = m := hk.symm
  simp only [Magnitude.bits?, beq_iff_eq, hm.ne', if_false]
  rw [if_neg (by omega), if_neg hsmall, if_neg (Int.not_le.2 he)]
  exact nearest_congr double (Nat.pow_pos (by decide)).ne' one_ne_zero ((Nat.mul_one m).trans hk)

/-- A decimal number that is whole is rounded as that whole number. -/
theorem bits?_of_whole {m k : Nat} {e : Int} (h : (m : ℚ) * 10 ^ e = k) :
    (Magnitude.number m 10 e).bits? .double = double.nearest k 1 := by
  rcases Nat.eq_zero_or_pos m with rfl | hm
  · rw [Nat.cast_zero, zero_mul, eq_comm, Nat.cast_eq_zero] at h
    subst h
    rfl
  rcases Int.lt_or_le e 0 with he | he
  · refine bits?_of_neg hm he ?_
    rw [← Int.neg_neg e, ← Int.toNat_of_nonneg (Int.neg_nonneg_of_nonpos he.le), zpow_neg,
      zpow_natCast, ← div_eq_mul_inv, div_eq_iff (by positivity)] at h
    exact_mod_cast h
  · refine bits?_of_nonneg hm he ?_
    rw [← Int.toNat_of_nonneg he, zpow_natCast] at h
    exact_mod_cast h

namespace Numeral

/-- Where a spelled number is whole, so is its magnitude. -/
theorem mantissa_mul_scale {t : Numeral} {n : Int} (h : t.value = n) :
    (t.mantissa : ℚ) * 10 ^ t.scale = n.natAbs := by
  have hnonneg : (0 : ℚ) ≤ t.mantissa * 10 ^ t.scale := by positivity
  rw [Nat.cast_natAbs, Int.cast_abs, ← h, value, abs_mul, abs_of_nonneg hnonneg]
  cases t.negative <;> simp

/-- The pattern of a spelled whole number. -/
theorem readBits?_of_whole {t : Numeral} {n : Int} (h : t.value = n) :
    readBits? .double (String.ofList t.chars) =
      (double.nearest n.natAbs 1).map (double.withSign t.negative) := by
  simp only [readBits?, String.toList_ofList, t.readSigned?_chars, Option.bind_eq_bind,
    Option.bind_some, bits?_of_whole (mantissa_mul_scale h)]
  cases double.nearest n.natAbs 1 <;> rfl

/-- The sign of a spelled whole number is the sign of what it is rounded to. -/
theorem nearestInt_of_value (t : Numeral) {n : Int} (h : t.value = n) :
    (nearestInt n : ℚ) = if t.negative then -(double.nearestWhole n.natAbs : ℚ)
      else double.nearestWhole n.natAbs := by
  have hnonneg : (0 : ℚ) ≤ t.mantissa * 10 ^ t.scale := by positivity
  rw [value] at h
  cases hsign : t.negative <;> rw [hsign] at h
  · have hn : 0 ≤ n := by exact_mod_cast hnonneg.trans_eq ((one_mul _).symm.trans h)
    rw [nearestInt, if_neg (Int.not_lt.2 hn)]
    rfl
  · have hvalue : (n : ℚ) ≤ 0 := by
      rw [← h, if_pos rfl, neg_one_mul]
      exact neg_nonpos.2 hnonneg
    have hn : n ≤ 0 := by exact_mod_cast hvalue
    rcases Int.lt_or_eq_of_le hn with hlt | rfl
    · rw [nearestInt, if_pos hlt]
      simp
    · simp [nearestInt, nearestWhole_of_lt (f := double) (n := 0) (by decide)]

/-- A spelled whole number is read as the double nearest to it. -/
theorem exists_readDouble?_of_whole {t : Numeral} {n : Int} (h : t.value = n)
    (hrange : double.nearestWhole n.natAbs < double.limit) :
    ∃ x, readDouble? (String.ofList t.chars) = some x ∧ value? x = some (nearestInt n : ℚ) := by
  obtain ⟨m, e, hcanonical, hfits, hvalue, hnearest⟩ := exists_nearest_whole hrange
  refine ⟨doubleOfBits (double.withSign t.negative (double.pattern m e)), ?_, ?_⟩
  · rw [readDouble?, readBits?_of_whole h, hnearest]
    rfl
  · rw [value?, decodeDouble_doubleOfBits
      (withSign_lt t.negative (hfits.trans (infinityBits_lt double))),
      decode_pattern t.negative hcanonical hfits, Binary.value?, hvalue]
    exact congrArg some (t.nearestInt_of_value h).symm

/-- There is no double for a spelled whole number out of range. -/
theorem readDouble?_eq_none {t : Numeral} {n : Int} (h : t.value = n)
    (hrange : double.limit ≤ double.nearestWhole n.natAbs) :
    readDouble? (String.ofList t.chars) = none := by
  rw [readDouble?, readBits?_of_whole h, nearest_whole_eq_none hrange]
  rfl

/-! ### The decimal text of a whole number -/

/-- How the decimal text of a whole number is spelled. -/
def ofInt (n : Int) : Numeral where
  negative := n < 0
  whole := digitChars n.natAbs
  fraction := none
  exponent := none
  areDigits_whole := areDigits_digitChars _
  areDigits_fraction := nofun

theorem isPlain_ofInt (n : Int) : (ofInt n).IsPlain := ⟨rfl, rfl⟩

theorem chars_ofInt (n : Int) : (ofInt n).chars = (intText n).toList := by
  have hbody : (ofInt n).body = digitChars n.natAbs := List.append_nil _
  rw [chars, hbody, intText]
  by_cases hn : n < 0
  · have hsign : (ofInt n).negative = true := decide_eq_true hn
    rw [if_pos hn, if_pos hsign, String.toList_ofList]
  · have hsign : ¬ (ofInt n).negative = true := by simpa [ofInt] using hn
    rw [if_neg hn, if_neg hsign, String.toList_ofList]
    congr 1
    omega

theorem ofList_chars_ofInt (n : Int) : String.ofList (ofInt n).chars = intText n := by
  rw [chars_ofInt, String.ofList_toList]

/-- A number that is spelled with digits only is whole. -/
theorem value_of_isPlain {t : Numeral} (ht : t.IsPlain) :
    t.value = (signed t.negative t.mantissa : Int) := by
  have hscale : t.scale = 0 := by simp [scale, ht.1, ht.2]
  rw [value, hscale, zpow_zero, mul_one, signed]
  cases t.negative <;> simp

theorem mantissa_ofInt (n : Int) : (ofInt n).mantissa = n.natAbs := by
  show Nat.ofDigitChars 10 (digitChars n.natAbs ++ []) 0 = _
  rw [List.append_nil]
  exact Nat.ofDigitChars_ten_toDigits

theorem value_ofInt (n : Int) : (ofInt n).value = n := by
  rw [value_of_isPlain (isPlain_ofInt n), mantissa_ofInt]
  exact congrArg Int.cast (signed_natAbs n)

end Numeral

/-- The decimal text of a whole number is read as that number. -/
theorem readInt?_intText (low high n : Int) :
    readInt? low high (intText n).toList = if low ≤ n ∧ n ≤ high then some n else none := by
  have hsigned : signed (Numeral.ofInt n).negative (Numeral.ofInt n).mantissa = n := by
    rw [Numeral.mantissa_ofInt]
    exact signed_natAbs n
  rw [← Numeral.chars_ofInt, Numeral.readInt?_chars, hsigned]
  simp only [Numeral.isPlain_ofInt, true_and]

theorem intText_ne_empty (n : Int) : intText n ≠ "" := by
  intro hempty
  have hread := readInt?_intText n n n
  rw [hempty, if_pos ⟨Int.le_refl n, Int.le_refl n⟩] at hread
  cases hread

end FormBasic.Decimal
