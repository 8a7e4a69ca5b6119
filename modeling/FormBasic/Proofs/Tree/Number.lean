import FormBasic.Proofs.Decimal.Reading
import FormBasic.Tree.Json
import FormBasic.Tree.Yaml.Scalar

/-!
# Numbers in trees

JSON keeps a number as it is written, so that nothing is lost before it is decoded. YAML resolves
the text of a whole number to that number if it has at most 64 bits, and to a double otherwise. What
is said of decoding holds of every resolver that does so.

## Main definitions

* `Numeral.IsJson` — the spellings that JSON allows
* `Json.Passes` — the reader on a part of a text
* `Yaml.ResolvesWhole` — what is relied on of a resolver of YAML where it is given the decimal text
  of a whole number

## Main results

* `Json.read_numeral` — a number of JSON
* `Yaml.resolvesWhole_resolve` — a decimal whole number of YAML
-/

namespace FormBasic

open Decimal

/-- A number as JSON allows it: no zero stands in front of other digits. -/
def Decimal.Numeral.IsJson (t : Numeral) : Prop := t.whole = ['0'] ∨ t.whole.head? ≠ some '0'

/-- No zero stands in front of other digits in the text of a whole number. -/
theorem Decimal.head?_digitChars {n : Nat} (hn : n ≠ 0) : (digitChars n).head? ≠ some '0' := by
  have hdigit : ∀ k < 10, k ≠ 0 → [Nat.digitChar k].head? ≠ some '0' := by decide
  induction n using Nat.strongRecOn with
  | ind n ih =>
    rw [digitChars, Nat.toDigits_eq_if (by decide)]
    split
    · next hlt => exact hdigit n hlt hn
    · next hge =>
      rw [List.head?_append_of_ne_nil _ Nat.toDigits_ne_nil]
      exact ih (n / 10) (by omega) (by omega)

theorem Decimal.Numeral.isJson_ofInt (n : Int) : (Numeral.ofInt n).IsJson := by
  rcases Nat.eq_zero_or_pos n.natAbs with hzero | hpos
  · left
    show digitChars n.natAbs = ['0']
    rw [hzero]
    rfl
  · exact .inr (head?_digitChars hpos.ne')

namespace Tree

namespace Json

variable {s s' s'' : State} {c : Char} {cs cs' reversed : List Char} {stack : List Frame}
  {part : NumberPart}

/-! ### Parts of a text -/

/-- The reader goes on through some characters, whatever follows them. -/
def Passes (s : State) (cs : List Char) (s' : State) : Prop :=
  ∀ offset rest, ∃ offset', readFrom s offset (cs ++ rest) = readFrom s' offset' rest

theorem Passes.nil (s : State) : Passes s [] s := fun offset _ => ⟨offset, rfl⟩

theorem Passes.single (h : step s c = .next s') : Passes s [c] s' := fun offset rest =>
  ⟨offset + c.utf8Size, by simp only [List.singleton_append, readFrom, h]⟩

theorem Passes.append (h : Passes s cs s') (h' : Passes s' cs' s'') : Passes s (cs ++ cs') s'' := by
  intro offset rest
  obtain ⟨middle, hfirst⟩ := h offset (cs' ++ rest)
  obtain ⟨last, hsecond⟩ := h' middle rest
  exact ⟨last, by rw [List.append_assoc, hfirst, hsecond]⟩

/-! ### Numbers -/

theorem step_number {next : NumberPart} (h : part.next? c = some next) :
    step ⟨.number part reversed, stack⟩ c = .next ⟨.number next (c :: reversed), stack⟩ := by
  simp only [step, h]

/-- More digits of a part that has begun. -/
theorem passes_digits (hpart : ∀ c, isDigit c = true → part.next? c = some part)
    (h : ∀ c ∈ cs, isDigit c = true) (reversed : List Char) :
    Passes ⟨.number part reversed, stack⟩ cs ⟨.number part (cs.reverse ++ reversed), stack⟩ := by
  induction cs generalizing reversed with
  | nil => exact .nil _
  | cons c cs ih =>
    have hfirst : step ⟨.number part reversed, stack⟩ c =
        .next ⟨.number part (c :: reversed), stack⟩ :=
      step_number (hpart c (h c List.mem_cons_self))
    rw [List.reverse_cons, List.append_assoc]
    exact (Passes.single hfirst).append (ih (fun d hd => h d (List.mem_cons_of_mem c hd)) _)

/-- One or more digits of a part that begins with the first of them. -/
theorem passes_areDigits {first : NumberPart}
    (hfirst : ∀ c, isDigit c = true → first.next? c = some part)
    (hpart : ∀ c, isDigit c = true → part.next? c = some part) (h : AreDigits cs)
    (reversed : List Char) :
    Passes ⟨.number first reversed, stack⟩ cs ⟨.number part (cs.reverse ++ reversed), stack⟩ := by
  obtain ⟨c, ds, rfl⟩ := List.exists_cons_of_ne_nil h.1
  rw [List.reverse_cons, List.append_assoc]
  exact (Passes.single (step_number (hfirst c (h.2 c List.mem_cons_self)))).append
    (passes_digits hpart (fun d hd => h.2 d (List.mem_cons_of_mem c hd)) _)

theorem next?_of_isDigit (h : isDigit c = true) :
    NumberPart.whole.next? c = some .whole ∧ NumberPart.point.next? c = some .fraction ∧
      NumberPart.fraction.next? c = some .fraction ∧ NumberPart.mark.next? c = some .exponent ∧
      NumberPart.sign.next? c = some .exponent ∧ NumberPart.exponent.next? c = some .exponent := by
  have hplus : (c == '+') = false := beq_eq_false_iff_ne.2 (ne_of_isDigit h (by decide))
  have hminus : (c == '-') = false := beq_eq_false_iff_ne.2 (ne_of_isDigit h (by decide))
  rw [isDigit_eq] at h
  simp [NumberPart.next?, h, hplus, hminus]

/-- The part of a number that its first digit belongs to. -/
def firstPart (c : Char) : NumberPart := if c = '0' then .zero else .whole

/-- A value may begin with a digit. -/
theorem step_value_of_isDigit (h : isDigit c = true) :
    step ⟨.value, stack⟩ c = .next ⟨.number (firstPart c) [c], stack⟩ := by
  have hne : ∀ d : Char, isDigit d = false → c ≠ d := fun d hd => ne_of_isDigit h hd
  have hblank : isBlank c = false := by
    simp [isBlank, hne ' ' (by decide), hne '\t' (by decide), hne '\r' (by decide),
      hne '\n' (by decide)]
  simp only [step, hblank, Bool.false_eq_true, if_false]
  by_cases hzero : c = '0'
  · subst hzero
    rfl
  · rw [isDigit_eq] at h
    unfold beginValue
    split <;> first | exact absurd h (by decide) | skip
    · exact absurd rfl hzero
    · rw [if_pos h, firstPart, if_neg hzero]

/-- A digit may follow the minus. -/
theorem step_minus_of_isDigit (h : isDigit c = true) (reversed : List Char) :
    step ⟨.number .minus reversed, stack⟩ c =
      .next ⟨.number (firstPart c) (c :: reversed), stack⟩ := by
  refine step_number ?_
  rw [isDigit_eq] at h
  by_cases hzero : c = '0' <;> simp [NumberPart.next?, firstPart, h, hzero]

/-- The digits before the point, after a state in which a number may begin. -/
theorem passes_whole {t : Numeral} (ht : t.IsJson)
    (hstart : ∀ c, isDigit c = true →
      step s c = .next ⟨.number (firstPart c) (c :: reversed), stack⟩) :
    ∃ part, (part = .zero ∨ part = .whole) ∧
      Passes s t.whole ⟨.number part (t.whole.reverse ++ reversed), stack⟩ := by
  obtain ⟨c, cs, hcs⟩ := List.exists_cons_of_ne_nil t.areDigits_whole.1
  have hdigits := t.areDigits_whole.2
  have hfirst := hstart c (hdigits c (hcs ▸ List.mem_cons_self))
  rcases ht with hzero | hhead
  · refine ⟨.zero, .inl rfl, ?_⟩
    rw [hzero] at hcs ⊢
    cases hcs
    exact .single hfirst
  · refine ⟨.whole, .inr rfl, ?_⟩
    rw [hcs] at hhead hdigits ⊢
    have hne : c ≠ '0' := fun h => hhead (by rw [h]; rfl)
    rw [firstPart, if_neg hne] at hfirst
    rw [List.reverse_cons, List.append_assoc]
    exact (Passes.single hfirst).append (passes_digits (fun d hd => (next?_of_isDigit hd).1)
      (fun d hd => hdigits d (List.mem_cons_of_mem c hd)) _)

/-- The point and the digits after it. -/
theorem passes_fraction (t : Numeral) (hpart : part = .zero ∨ part = .whole)
    (reversed : List Char) (stack : List Frame) :
    ∃ part', (part' = .zero ∨ part' = .whole ∨ part' = .fraction) ∧
      Passes ⟨.number part reversed, stack⟩ (t.fraction.elim [] ('.' :: ·))
        ⟨.number part' ((t.fraction.elim [] ('.' :: ·)).reverse ++ reversed), stack⟩ := by
  rcases hf : t.fraction with _ | ds
  · exact ⟨part, by tauto, .nil _⟩
  · refine ⟨.fraction, .inr (.inr rfl), ?_⟩
    have hpoint : part.next? '.' = some .point := by rcases hpart with rfl | rfl <;> decide
    rw [Option.elim_some, List.reverse_cons, List.append_assoc]
    exact (Passes.single (step_number hpoint)).append
      (passes_areDigits (fun c hc => (next?_of_isDigit hc).2.1)
        (fun c hc => (next?_of_isDigit hc).2.2.1) (t.areDigits_fraction ds hf) _)

/-- The exponent. -/
theorem passes_tail (t : Numeral) (hpart : part = .zero ∨ part = .whole ∨ part = .fraction)
    (reversed : List Char) (stack : List Frame) :
    ∃ part', part'.complete = true ∧
      Passes ⟨.number part reversed, stack⟩ t.tail
        ⟨.number part' (t.tail.reverse ++ reversed), stack⟩ := by
  rcases hx : t.exponent with _ | x
  · rw [show t.tail = [] by simp [Numeral.tail, hx]]
    exact ⟨part, by rcases hpart with rfl | rfl | rfl <;> rfl, .nil _⟩
  · rw [show t.tail = [x.letter] ++ (x.sign.toList ++ x.digits) by
      simp [Numeral.tail, hx, Exponent.body]]
    refine ⟨.exponent, rfl, ?_⟩
    have hletter : part.next? x.letter = some .mark := by
      rcases x.letter_mem with h | h <;> rw [h] <;> rcases hpart with rfl | rfl | rfl <;> decide
    rw [List.reverse_append, List.append_assoc]
    refine (Passes.single (step_number hletter)).append ?_
    rcases hsign : x.sign with _ | c
    · exact passes_areDigits (fun c hc => (next?_of_isDigit hc).2.2.2.1)
        (fun c hc => (next?_of_isDigit hc).2.2.2.2.2) x.areDigits _
    · have hnext : NumberPart.mark.next? c = some .sign := by
        rcases x.sign_mem c hsign with rfl | rfl <;> decide
      rw [List.reverse_append, List.append_assoc]
      exact (Passes.single (step_number hnext)).append
        (passes_areDigits (fun c hc => (next?_of_isDigit hc).2.2.2.2.1)
          (fun c hc => (next?_of_isDigit hc).2.2.2.2.2) x.areDigits _)

/-- A number, wherever a value may stand. -/
theorem passes_chars {t : Numeral} (ht : t.IsJson) (stack : List Frame) :
    ∃ part, part.complete = true ∧
      Passes ⟨.value, stack⟩ t.chars ⟨.number part t.chars.reverse, stack⟩ := by
  have hbody : ∀ s reversed, (∀ c, isDigit c = true →
      step s c = .next ⟨.number (firstPart c) (c :: reversed), stack⟩) →
      ∃ part, part.complete = true ∧
        Passes s t.body ⟨.number part (t.body.reverse ++ reversed), stack⟩ := by
    intro s reversed hstart
    obtain ⟨part₁, h₁, hwhole⟩ := passes_whole ht hstart
    obtain ⟨part₂, h₂, hfraction⟩ := passes_fraction t h₁ _ stack
    obtain ⟨part₃, h₃, htail⟩ := passes_tail t h₂ _ stack
    refine ⟨part₃, h₃, ?_⟩
    have := hwhole.append (hfraction.append htail)
    rw [Numeral.body, List.reverse_append, List.reverse_append, List.append_assoc,
      List.append_assoc]
    exact this
  unfold Numeral.chars
  cases t.negative with
  | false =>
    obtain ⟨part, hpart, h⟩ := hbody ⟨.value, stack⟩ [] fun c hc => step_value_of_isDigit hc
    rw [List.append_nil] at h
    exact ⟨part, hpart, h⟩
  | true =>
    obtain ⟨part, hpart, h⟩ := hbody ⟨.number .minus ['-'], stack⟩ ['-'] fun c hc =>
      step_minus_of_isDigit hc _
    refine ⟨part, hpart, ?_⟩
    have hminus : step ⟨.value, stack⟩ '-' = .next ⟨.number .minus ['-'], stack⟩ := rfl
    rw [if_pos rfl, List.reverse_cons]
    exact (Passes.single hminus).append h

/-- A number is kept as it is written. -/
theorem read_numeral {t : Numeral} (ht : t.IsJson) :
    read (String.ofList t.chars) = .ok (.numeral (String.ofList t.chars)) := by
  obtain ⟨part, hpart, hpasses⟩ := passes_chars ht []
  obtain ⟨offset, hread⟩ := hpasses 0 []
  rw [List.append_nil] at hread
  rw [read, String.toList_ofList, hread]
  simp only [readFrom, finish, hpart, if_true, numeral, List.reverse_reverse]

end Json

namespace Yaml

/-! ### Whole numbers of YAML -/

theorem digitChars_ne_zero_cons (n : Nat) (c : Char) (rest : List Char) :
    digitChars n ≠ '0' :: c :: rest := by
  intro h
  rcases Nat.eq_zero_or_pos n with rfl | hn
  · cases h
  · exact head?_digitChars hn.ne' (by rw [h]; rfl)

/-- Only a text that begins with a sign has one bit less. -/
theorem signedText_intText (n : Int) :
    ((intText n).toList.head? == some '-' || (intText n).toList.head? == some '+') =
      decide (n < 0) := by
  by_cases hn : n < 0
  · rw [intText, if_pos hn, String.toList_ofList, decide_eq_true hn]
    rfl
  · rw [intText, if_neg hn, String.toList_ofList, decide_eq_false hn]
    obtain ⟨c, cs, hcs⟩ := List.exists_cons_of_ne_nil (areDigits_digitChars n.toNat).1
    have hc : isDigit c = true := (areDigits_digitChars n.toNat).2 c (hcs ▸ List.mem_cons_self)
    simp [hcs, ne_of_isDigit hc (d := '-') (by decide), ne_of_isDigit hc (d := '+') (by decide)]

theorem wholeNumber?_intText (n : Int) :
    wholeNumber? (intText n).toList = if minSigned 64 ≤ n ∧ n < twoTo 64 then some n else none := by
  have hsign := (Numeral.ofInt n).readSign_chars
  have hbody : (Numeral.ofInt n).body = digitChars n.natAbs := List.append_nil _
  have hnegative : (Numeral.ofInt n).negative = decide (n < 0) := rfl
  rw [hbody, Numeral.chars_ofInt, hnegative] at hsign
  have hvalue : readNat? 10 (digitChars n.natAbs) = some n.natAbs := by
    rw [(areDigits_digitChars _).readNat?]
    exact congrArg some Nat.ofDigitChars_ten_toDigits
  unfold wholeNumber?
  simp only [hsign, signedText_intText]
  split
  · next c rest heq => exact absurd heq (digitChars_ne_zero_cons _ _ _)
  · rw [hvalue]
    show (if minSigned 64 ≤ signed (decide (n < 0)) n.natAbs ∧
      signed (decide (n < 0)) n.natAbs < (twoTo (if decide (n < 0) then 63 else 64) : Nat) then
      some (signed (decide (n < 0)) n.natAbs) else none) = _
    rw [signed_natAbs]
    by_cases hn : n < 0
    · -- a negative number lies below both limits
      have hlimit : ∀ bits, n < (twoTo bits : Nat) := fun bits =>
        hn.trans_le (Int.natCast_nonneg _)
      simp only [hlimit]
    · rw [decide_eq_false hn, if_neg Bool.false_ne_true]

/-- A year is not empty. -/
theorem exists_of_read_year {cs rest : List Char} {r r' : Calendar.Reading}
    (h : Calendar.Field.read r cs .year = some (r', rest)) : ∃ ds, ds ≠ [] ∧ cs = ds ++ rest := by
  obtain ⟨⟨year, cs'⟩, hyear, h⟩ := Option.bind_eq_some_iff.1 h
  cases h
  unfold Calendar.readYear at hyear
  split at hyear
  · next c₁ c₂ c₃ c₄ cs =>
    split at hyear
    · cases hyear
      exact ⟨[c₁, c₂, c₃, c₄], nofun, rfl⟩
    · cases hyear
  · cases hyear

/-- After the year of a date there is a mark. -/
theorem readFields_dateFields {cs : List Char} (h : ∀ c ∈ cs.tail, isDigit c = true)
    (fields : List Calendar.Field) :
    Calendar.readFields (dateFields ++ fields) {} cs = none := by
  rw [dateFields, List.cons_append, Calendar.readFields]
  rcases hyear : Calendar.Field.read {} cs .year with _ | ⟨r, rest⟩
  · rfl
  · obtain ⟨ds, hds, rfl⟩ := exists_of_read_year hyear
    have hmark : Calendar.Field.read r rest (.mark '-') = none := by
      cases rest with
      | nil => rfl
      | cons c rest =>
        have hc : isDigit c = true := h c (by
          rw [List.tail_append_of_ne_nil hds]
          exact List.mem_append_right _ List.mem_cons_self)
        exact if_neg (by simpa using ne_of_isDigit hc (d := '-') (by decide))
    show Calendar.readFields (.mark '-' :: _) r rest = none
    rw [Calendar.readFields, hmark]
    rfl

theorem isDigit_of_mem_tail_intText {n : Int} {c : Char} (hc : c ∈ (intText n).toList.tail) :
    isDigit c = true := by
  unfold intText at hc
  split at hc <;> rw [String.toList_ofList] at hc
  · exact (areDigits_digitChars _).2 c hc
  · exact (areDigits_digitChars _).2 c (List.mem_of_mem_tail hc)

/-- A whole number is no moment. -/
theorem moment?_intText (n : Int) : moment? (intText n).toList = none := by
  have hfields := readFields_dateFields fun c (hc : c ∈ (intText n).toList.tail) =>
    isDigit_of_mem_tail_intText hc
  have hlayout : ∀ fields,
      Calendar.readLayout (dateFields ++ fields) (intText n).toList = none := by
    intro fields
    rw [Calendar.readLayout, hfields]
    rfl
  have hzoned : ∀ letter, zonedMoment? letter (intText n).toList = none := by
    intro letter
    rw [zonedMoment?, hfields]
    rfl
  have hdate := hlayout []
  rw [List.append_nil] at hdate
  unfold moment?
  simp only [hzoned, hlayout, hdate]
  rfl

theorem ungroup_intText (n : Int) : ungroup (intText n).toList = (intText n).toList := by
  refine List.filter_eq_self.2 fun c hc => ?_
  rcases isDigit_or_eq_of_mem_intText hc with h | rfl
  · exact bne_iff_ne.2 (ne_of_isDigit h (by decide))
  · decide

theorem isFloatSpelling_intText (n : Int) : isFloatSpelling (intText n).toList = true := by
  refine List.all_eq_true.2 fun c hc => ?_
  rcases isDigit_or_eq_of_mem_intText hc with h | rfl
  · simp [h]
  · decide

theorem markedNumber?_intText (n : Int) : markedNumber? (intText n).toList = none := by
  unfold markedNumber?
  split
  · next rest heq =>
    have hb : 'b' ∈ (intText n).toList := by simp [heq]
    exact absurd hb (not_mem_intText rfl (by decide) n)
  · next rest heq =>
    have ho : 'o' ∈ (intText n).toList := by simp [heq]
    exact absurd ho (not_mem_intText rfl (by decide) n)
  · rfl

/-- A word is no whole number if one of its characters does not belong to one. -/
theorem contains_intText {words : List String}
    (h : ∀ w ∈ words, w = "" ∨ w.toList.any (fun c => !isDigit c && c != '-') = true) (n : Int) :
    words.contains (intText n) = false := by
  rw [List.contains_eq_mem, decide_eq_false_iff_not]
  intro hmem
  rcases h _ hmem with hempty | hother
  · exact intText_ne_empty n hempty
  · obtain ⟨c, hc, hforeign⟩ := List.any_eq_true.1 hother
    rcases isDigit_or_eq_of_mem_intText hc with h | rfl
    · simp [h] at hforeign
    · exact absurd hforeign (by decide)

theorem number?_intText (n : Int) :
    number? (intText n).toList =
      if minSigned 64 ≤ n ∧ n < twoTo 64 then some (.integer n)
      else (readDouble? (intText n)).map .real := by
  rw [number?, ungroup_intText, wholeNumber?_intText, isFloatSpelling_intText,
    markedNumber?_intText, String.ofList_toList]
  by_cases hfits : minSigned 64 ≤ n ∧ n < twoTo 64
  · simp only [if_pos hfits]
  · simp only [if_neg hfits]
    cases readDouble? (intText n) <;> rfl

/-- What a resolver of plain scalars does with the decimal texts of whole numbers. -/
structure ResolvesWhole (resolve : String → Tree) : Prop where
  /-- A number of at most 64 bits, with its sign or without one, is an integer. -/
  word : ∀ n, minSigned 64 ≤ n → n < twoTo 64 → resolve (intText n) = .integer n
  /-- Any other one is a floating-point number, or remains a text if it is out of range. -/
  long : ∀ n, ¬ (minSigned 64 ≤ n ∧ n < twoTo 64) →
    resolve (intText n) = (readDouble? (intText n)).elim (.text (intText n)) .real

/-- A whole number of at most 64 bits is resolved to itself. A longer one is resolved to a double,
or remains a text if there is none. -/
theorem resolve_intText (n : Int) :
    resolve (intText n) =
      if minSigned 64 ≤ n ∧ n < twoTo 64 then .integer n
      else (readDouble? (intText n)).elim (.text (intText n)) .real := by
  obtain ⟨c, cs, hcs⟩ := List.exists_cons_of_ne_nil (l := (intText n).toList)
    (by simpa using intText_ne_empty n)
  have hc := isDigit_or_eq_of_mem_intText (n := n) (c := c) (hcs ▸ List.mem_cons_self)
  have hfirst : (isDigit c || c == '+' || c == '-') = true := by
    rcases hc with h | rfl
    · simp [h]
    · decide
  unfold resolve
  rw [contains_intText (by decide), contains_intText (by decide), contains_intText (by decide),
    contains_intText (by decide), contains_intText (by decide), contains_intText (by decide)]
  simp only [Bool.false_eq_true, if_false]
  split
  · next heq =>
    rw [hcs] at heq
    cases heq
    rcases hc with h | h <;> cases h
  · next heq =>
    rw [hcs] at heq
    cases heq
    rw [hfirst, ← hcs, moment?_intText, number?_intText]
    by_cases hfits : minSigned 64 ≤ n ∧ n < twoTo 64
    · rw [if_pos hfits, if_pos hfits]
      rfl
    · rw [if_neg hfits, if_neg hfits]
      cases readDouble? (intText n) <;> rfl
  · next heq =>
    rw [hcs] at heq
    cases heq

theorem resolvesWhole_resolve : ResolvesWhole resolve where
  word n hlow hhigh := by rw [resolve_intText, if_pos ⟨hlow, hhigh⟩]
  long n hshort := by rw [resolve_intText, if_neg hshort]

end Yaml

end Tree

end FormBasic
