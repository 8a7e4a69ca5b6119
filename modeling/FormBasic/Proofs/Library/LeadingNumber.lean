import FormBasic.Library.Function
import FormBasic.Proofs.Decimal.Overflow
import FormBasic.Proofs.Text.Search

/-!
# The number at the start of a text

`Val` takes from the start of a text, its blanks left out, what can be read as a number, and reads
it. A point counts only with a digit behind it, and a sign only with a number behind it, so the scan
has to look ahead: what it goes past is given back if no digit follows. What it ends with is the
longest start of the text that has the form of a number. Every text of this form is read as a
number, unless the number is too large for a double.

## Main definitions

* `Library.IsNumber` — the form of a number
* `Library.IsLongestPrefix` — the longest start of a list with a property
* `Library.unsignedValue` — the number that a text of this form stands for, without its sign

## Main results

* `Library.isLongestPrefix_digitLead`, `Library.numberLead_spec` — what the scan ends with
* `Library.IsNumber.readDouble?_eq_none_iff` — the numbers that are not read
* `Library.val_reads_longest_number` — the function
-/

namespace FormBasic.Library

open Decimal

/-! ### The form of a number -/

/-- Digits with at most so many points among them. The last character is a digit, if there is
any. -/
structure Digital (points : Nat) (cs : List Char) : Prop where
  isDigit_or_point : ∀ c ∈ cs, isDigit c = true ∨ c = '.'
  count_le : cs.count '.' ≤ points
  isDigit_last : ∀ c ∈ cs.getLast?, isDigit c = true

/-- A number: an optional sign, then digits with at most one point among them, of which there is at
least one digit, and the last character is a digit. -/
def IsNumber (cs : List Char) : Prop :=
  ∃ sign ∈ [[], ['-'], ['+']], ∃ body, cs = sign ++ body ∧ Digital 1 body ∧
    ∃ c ∈ body, isDigit c = true

variable {c : Char} {cs : List Char} {n : Nat}

theorem Digital.nil (n : Nat) : Digital n [] := ⟨by simp, by simp, by simp⟩

theorem digital_cons_iff_of_isDigit (hc : isDigit c = true) :
    Digital n (c :: cs) ↔ Digital n cs := by
  have hcount : (c :: cs).count '.' = cs.count '.' :=
    List.count_cons_of_ne (ne_of_isDigit hc (by decide))
  have hlast : (∀ d ∈ (c :: cs).getLast?, isDigit d = true) ↔
      ∀ d ∈ cs.getLast?, isDigit d = true := by
    cases cs with
    | nil => simp [hc]
    | cons d ds => rw [List.getLast?_cons_cons]
  constructor
  · rintro ⟨hchars, hpoints, hend⟩
    exact ⟨(List.forall_mem_cons.1 hchars).2, hcount ▸ hpoints, hlast.1 hend⟩
  · rintro ⟨hchars, hpoints, hend⟩
    exact ⟨List.forall_mem_cons.2 ⟨.inl hc, hchars⟩, hcount ▸ hpoints, hlast.2 hend⟩

/-- A point uses up one of the points, and there has to be something behind it. -/
theorem digital_cons_point_iff :
    Digital n ('.' :: cs) ↔ 0 < n ∧ Digital (n - 1) cs ∧ cs ≠ [] := by
  have hcount : ('.' :: cs).count '.' = cs.count '.' + 1 := List.count_cons_self
  cases cs with
  | nil => exact iff_of_false (fun h => absurd (h.isDigit_last '.' rfl) (by decide)) (by simp)
  | cons d ds =>
    constructor
    · rintro ⟨hchars, hpoints, hend⟩
      exact ⟨by omega, ⟨(List.forall_mem_cons.1 hchars).2, by omega, hend⟩, List.cons_ne_nil d ds⟩
    · rintro ⟨hn, ⟨hchars, hpoints, hend⟩, -⟩
      exact ⟨List.forall_mem_cons.2 ⟨.inr rfl, hchars⟩, by omega, hend⟩

theorem Digital.ne_of_mem (h : Digital n cs) {d : Char} (hdigit : isDigit d = false) (hd : d ≠ '.')
    (hc : c ∈ cs) : c ≠ d := by
  rcases h.isDigit_or_point c hc with hc | rfl
  · exact ne_of_isDigit hc hdigit
  · exact hd.symm

/-- What ends in a digit has one. -/
theorem Digital.exists_isDigit_iff (h : Digital n cs) : (∃ c ∈ cs, isDigit c = true) ↔ cs ≠ [] := by
  constructor
  · rintro ⟨c, hc, -⟩
    exact List.ne_nil_of_mem hc
  · intro hcs
    exact ⟨cs.getLast hcs, List.getLast_mem hcs,
      h.isDigit_last _ (List.getLast?_eq_some_getLast hcs)⟩

theorem Digital.readSign (h : Digital n cs) : readSign cs = (false, cs) := by
  unfold Decimal.readSign
  split
  · exact absurd rfl (h.ne_of_mem (d := '-') (by decide) (by decide) List.mem_cons_self)
  · exact absurd rfl (h.ne_of_mem (d := '+') (by decide) (by decide) List.mem_cons_self)
  · rfl

theorem isNumber_iff : IsNumber cs ↔ Digital 1 (readSign cs).2 ∧ (readSign cs).2 ≠ [] := by
  constructor
  · rintro ⟨sign, hsign, body, rfl, hbody, hdigit⟩
    have hrest : (readSign (sign ++ body)).2 = body := by
      simp only [List.mem_cons, List.not_mem_nil, or_false] at hsign
      rcases hsign with rfl | rfl | rfl
      · exact congrArg Prod.snd hbody.readSign
      · rfl
      · rfl
    rw [hrest]
    exact ⟨hbody, hbody.exists_isDigit_iff.1 hdigit⟩
  · rintro ⟨hbody, hne⟩
    have hsplit : ∃ sign ∈ [[], ['-'], ['+']], cs = sign ++ (readSign cs).2 := by
      unfold Decimal.readSign
      split <;> simp
    obtain ⟨sign, hsign, hcs⟩ := hsplit
    exact ⟨sign, hsign, _, hcs, hbody, hbody.exists_isDigit_iff.2 hne⟩

theorem isNumber_cons_sign_iff (hc : c = '-' ∨ c = '+') :
    IsNumber (c :: cs) ↔ Digital 1 cs ∧ cs ≠ [] := by
  rw [isNumber_iff]
  rcases hc with rfl | rfl <;> rfl

theorem isNumber_cons_iff (hminus : c ≠ '-') (hplus : c ≠ '+') :
    IsNumber (c :: cs) ↔ Digital 1 (c :: cs) := by
  have hrest : readSign (c :: cs) = (false, c :: cs) := by
    rw [Decimal.readSign]
    · exact fun _ heq => hminus (List.cons.inj heq).1
    · exact fun _ heq => hplus (List.cons.inj heq).1
  rw [isNumber_iff, hrest]
  exact and_iff_left (List.cons_ne_nil c cs)

theorem not_isNumber_nil : ¬ IsNumber [] := fun h => (isNumber_iff.1 h).2 rfl

/-! ### The longest start -/

/-- A list is the longest of the starts of another one that have a property. -/
structure IsLongestPrefix (P : List Char → Prop) (lead cs : List Char) : Prop where
  isPrefix : lead <+: cs
  holds : P lead
  longest : ∀ p, p <+: cs → P p → p.length ≤ lead.length

namespace IsLongestPrefix

variable {P Q : List Char → Prop} {lead : List Char}

/-- A first character that every start with the property has in front of one with another
property. -/
theorem cons (h : IsLongestPrefix Q lead cs) (hP : ∀ p, P (c :: p) ↔ Q p) :
    IsLongestPrefix P (c :: lead) (c :: cs) where
  isPrefix := List.cons_prefix_cons.2 ⟨rfl, h.isPrefix⟩
  holds := (hP lead).2 h.holds
  longest := by
    intro p hp hprop
    rcases List.prefix_cons_iff.1 hp with rfl | ⟨q, rfl, hq⟩
    · exact Nat.zero_le _
    · exact Nat.succ_le_succ (h.longest q hq ((hP q).1 hprop))

theorem nil_cons (hnil : P []) (hcons : ∀ p, p <+: cs → ¬ P (c :: p)) :
    IsLongestPrefix P [] (c :: cs) where
  isPrefix := List.nil_prefix
  holds := hnil
  longest := by
    intro p hp hprop
    rcases List.prefix_cons_iff.1 hp with rfl | ⟨q, rfl, hq⟩
    · exact Nat.le_refl _
    · exact absurd hprop (hcons q hq)

/-- The longest start is also the longest one that is not empty, if it is not. -/
theorem and_ne_nil (h : IsLongestPrefix P lead cs) (hlead : lead ≠ []) :
    IsLongestPrefix (fun p => P p ∧ p ≠ []) lead cs :=
  ⟨h.isPrefix, ⟨h.holds, hlead⟩, fun p hp hprop => h.longest p hp hprop.1⟩

theorem not_of_nil (h : IsLongestPrefix P [] cs) {p : List Char} (hp : p <+: cs) :
    ¬ (P p ∧ p ≠ []) :=
  fun hprop => hprop.2 (List.eq_nil_of_length_eq_zero (Nat.le_zero.1 (h.longest p hp hprop.1)))

end IsLongestPrefix

/-- The scan of digits ends with the longest start that is made of digits, with a point among them
if none has been seen, and ends in a digit. -/
theorem isLongestPrefix_digitLead (pointSeen : Bool) (cs : List Char) :
    IsLongestPrefix (Digital (!pointSeen).toNat) (digitLead pointSeen cs) cs := by
  induction cs generalizing pointSeen with
  | nil => exact ⟨List.prefix_rfl, .nil _, fun p hp _ => hp.length_le⟩
  | cons c cs ih =>
    rw [digitLead]
    split
    · next hdigit => exact (ih pointSeen).cons fun p => digital_cons_iff_of_isDigit hdigit
    · next hdigit =>
      split
      · next hpoint =>
        obtain ⟨hc, hseen⟩ := Bool.and_eq_true_iff.1 hpoint
        obtain rfl := eq_of_beq hc
        obtain rfl : pointSeen = false := by simpa using hseen
        have hiff : ∀ p, Digital 1 ('.' :: p) ↔ Digital 0 p ∧ p ≠ [] := fun p =>
          digital_cons_point_iff.trans (and_iff_right Nat.one_pos)
        -- the point is kept only in front of digits
        cases hlead : digitLead true cs with
        | nil =>
          have hrest : IsLongestPrefix (Digital 0) [] cs := hlead ▸ ih true
          exact .nil_cons (.nil 1) fun p hp h => hrest.not_of_nil hp ((hiff p).1 h)
        | cons d ds =>
          have hrest : IsLongestPrefix (Digital 0) (d :: ds) cs := hlead ▸ ih true
          exact (hrest.and_ne_nil (List.cons_ne_nil d ds)).cons hiff
      · next hpoint =>
        refine .nil_cons (.nil _) fun p _ h => ?_
        rcases h.isDigit_or_point c List.mem_cons_self with hc | rfl
        · exact hdigit hc
        · obtain ⟨hn, -⟩ := digital_cons_point_iff.1 h
          cases pointSeen
          · exact hpoint rfl
          · exact absurd hn (by decide)

/-- The scan ends with the longest start that is a number, or with nothing if no start is one. -/
theorem numberLead_spec (cs : List Char) :
    (numberLead cs = [] ∧ ∀ p, p <+: cs → ¬ IsNumber p) ∨
      IsLongestPrefix IsNumber (numberLead cs) cs := by
  cases cs with
  | nil =>
    refine .inl ⟨rfl, fun p hp => ?_⟩
    rw [List.prefix_nil.1 hp]
    exact not_isNumber_nil
  | cons c cs =>
    rw [numberLead]
    split
    · next hsign =>
      have hsign : c = '-' ∨ c = '+' := by simpa using hsign
      have hrest := isLongestPrefix_digitLead false cs
      split
      · next hlead =>
        rw [hlead] at hrest
        refine .inl ⟨rfl, fun p hp h => ?_⟩
        rcases List.prefix_cons_iff.1 hp with rfl | ⟨q, rfl, hq⟩
        · exact not_isNumber_nil h
        · exact hrest.not_of_nil hq ((isNumber_cons_sign_iff hsign).1 h)
      · next hlead =>
        exact .inr ((hrest.and_ne_nil hlead).cons fun p => isNumber_cons_sign_iff hsign)
    · next hsign =>
      obtain ⟨hminus, hplus⟩ : c ≠ '-' ∧ c ≠ '+' := by simpa using hsign
      have hwhole := isLongestPrefix_digitLead false (c :: cs)
      -- a start that is not empty is a number exactly if it has the form without a sign
      have hiff : ∀ p, p <+: c :: cs → (IsNumber p ↔ Digital 1 p ∧ p ≠ []) := by
        intro p hp
        rcases List.prefix_cons_iff.1 hp with rfl | ⟨q, rfl, -⟩
        · exact iff_of_false not_isNumber_nil fun h => h.2 rfl
        · rw [isNumber_cons_iff hminus hplus, and_iff_left (List.cons_ne_nil c q)]
      rcases eq_or_ne (digitLead false (c :: cs)) [] with hlead | hlead
      · rw [hlead] at hwhole ⊢
        exact .inl ⟨rfl, fun p hp h => hwhole.not_of_nil hp ((hiff p hp).1 h)⟩
      · exact .inr ⟨hwhole.isPrefix, (hiff _ hwhole.isPrefix).2 ⟨hwhole.holds, hlead⟩,
          fun p hp h => hwhole.longest p hp ((hiff p hp).1 h).1⟩

/-! ### Reading -/

/-- The number that a decimal text stands for, without its sign: all digits as one number, divided
by ten for every one of them behind the point. -/
def unsignedValue (cs : List Char) : ℚ :=
  let (whole, fraction) := Text.cut '.' (readSign cs).2
  Nat.ofDigitChars 10 (whole ++ fraction.getD []) 0 / 10 ^ (fraction.getD []).length

/-- A point, if there is one, has nothing but digits on its two sides. -/
theorem Digital.exists_parts (h : Digital 1 cs) :
    ∃ (whole : List Char) (fraction : Option (List Char)),
      cs = whole ++ fraction.elim [] ('.' :: ·) ∧ (∀ c ∈ whole, isDigit c = true) ∧
        ∀ ds ∈ fraction, ∀ c ∈ ds, isDigit c = true := by
  have hdigit : ∀ {c}, c ∈ cs → c ≠ '.' → isDigit c = true := fun hc hne =>
    (h.isDigit_or_point _ hc).resolve_right hne
  by_cases hpoint : '.' ∈ cs
  · obtain ⟨whole, fraction, hcs, hwhole⟩ := List.eq_append_cons_of_mem hpoint
    have hfraction : '.' ∉ fraction := by
      have hcount := h.count_le
      rw [hcs, List.count_append, List.count_cons_self] at hcount
      exact List.count_eq_zero.1 (by omega)
    refine ⟨whole, some fraction, hcs, fun c hc => ?_, ?_⟩
    · exact hdigit (hcs ▸ List.mem_append_left _ hc) (ne_of_mem_of_not_mem hc hwhole)
    · rintro _ ⟨⟩ c hc
      exact hdigit (hcs ▸ List.mem_append_right _ (List.mem_cons_of_mem _ hc))
        (ne_of_mem_of_not_mem hc hfraction)
  · exact ⟨cs, none, (List.append_nil cs).symm,
      fun c hc => hdigit hc (ne_of_mem_of_not_mem hc hpoint),
      fun ds hds => absurd hds (Option.not_mem_none ds)⟩

/-- The form without a sign is read, to the number that it stands for. -/
theorem Digital.readMagnitude? (h : Digital 1 cs) (hne : cs ≠ []) : ∃ m places : Nat,
    Decimal.readMagnitude? cs = some (.number m 10 (-(places : Int))) ∧
      (m : ℚ) * 10 ^ (-(places : Int)) = unsignedValue cs := by
  obtain ⟨whole, fraction, hcs, hwhole, hfraction⟩ := h.exists_parts
  have hcut : Text.cut '.' cs = (whole, fraction) := by
    rw [hcs]
    exact Text.cut_append_elim (fun hmem => absurd (hwhole '.' hmem) (by decide)) fraction
  have hmantissa := @Numeral.readMantissa_digits whole [] fraction hwhole hfraction fun _ => rfl
  rw [List.append_nil, ← hcs] at hmantissa
  have hany : (!(whole ++ fraction.getD []).isEmpty) = true := by
    obtain ⟨c, hc, hdigit⟩ := h.exists_isDigit_iff.2 hne
    have hpoint : c ≠ '.' := ne_of_isDigit hdigit (by decide)
    have hmem : c ∈ whole ++ fraction.getD [] := by
      rw [hcs] at hc
      cases fraction <;> simpa [hpoint] using hc
    rw [Bool.not_eq_true', List.isEmpty_eq_false_iff]
    exact List.ne_nil_of_mem hmem
  have hchars : ∀ c ∈ cs, isDigit c = true ∨ c ∈ ['.', 'e', 'E', '-', '+'] := fun c hc =>
    (h.isDigit_or_point c hc).imp_right fun hpoint => by simp [hpoint]
  refine ⟨Nat.ofDigitChars 10 (whole ++ fraction.getD []) 0, (fraction.getD []).length, ?_, ?_⟩
  · rw [Numeral.readMagnitude?_of_chars hchars (by rw [hmantissa]; exact hany), hmantissa]
  · rw [unsignedValue, h.readSign, hcut, zpow_neg, zpow_natCast]
    exact (div_eq_mul_inv _ _).symm

/-- Whether a character is one that a number can begin with. -/
def beginsNumber (c : Char) : Bool := isDigit c || c == '.' || c == '-' || c == '+'

theorem beginsNumber_of_digital (h : Digital n cs) (hc : c ∈ cs) : beginsNumber c = true := by
  rcases h.isDigit_or_point c hc with hc | rfl
  · simp [beginsNumber, hc]
  · rfl

theorem IsNumber.beginsNumber (h : IsNumber (c :: cs)) : beginsNumber c = true := by
  obtain ⟨sign, hsign, body, hcs, hbody, -⟩ := h
  simp only [List.mem_cons, List.not_mem_nil, or_false] at hsign
  rcases hsign with rfl | rfl | rfl
  · rw [List.nil_append] at hcs
    exact beginsNumber_of_digital hbody (hcs ▸ List.mem_cons_self)
  · rw [(List.cons.inj hcs).1]
    rfl
  · rw [(List.cons.inj hcs).1]
    rfl

/-- No word is spelled with what a number begins with. -/
theorem spelled_eq_false_of_beginsNumber {word : String} (hc : beginsNumber c = true)
    (hword : word.toList.any beginsNumber = false) : spelled word (c :: cs) = false := by
  have hlower : c.toLower = c := by
    simp only [beginsNumber, Bool.or_eq_true, beq_iff_eq] at hc
    rcases hc with ((hc | rfl) | rfl) | rfl
    · exact Numeral.toLower_of_isDigit hc
    · rfl
    · rfl
    · rfl
  refine Numeral.spelled_eq_false fun hmem => ?_
  rw [hlower] at hmem
  exact Bool.false_ne_true (hword.symm.trans (List.any_eq_true.2 ⟨c, hmem, hc⟩))

/-- Every number is read, to the number that it stands for. -/
theorem IsNumber.readSigned? (h : IsNumber cs) : ∃ m places : Nat,
    Decimal.readSigned? cs = some ((readSign cs).1, .number m 10 (-(places : Int))) ∧
      (m : ℚ) * 10 ^ (-(places : Int)) = unsignedValue cs := by
  obtain ⟨hbody, hne⟩ := isNumber_iff.1 h
  obtain ⟨m, places, hread, hvalue⟩ := hbody.readMagnitude? hne
  have hnan : spelled "nan" cs = false := by
    cases cs with
    | nil => rfl
    | cons c cs => exact spelled_eq_false_of_beginsNumber h.beginsNumber (by decide)
  have hword : ∀ word : String, word.toList.any Library.beginsNumber = false →
      spelled word (readSign cs).2 = false := by
    intro word hword
    obtain ⟨c, rest, hrest⟩ := List.exists_cons_of_ne_nil hne
    rw [hrest] at hbody ⊢
    exact spelled_eq_false_of_beginsNumber (beginsNumber_of_digital hbody List.mem_cons_self) hword
  refine ⟨m, places, ?_, ?_⟩
  · simp [Decimal.readSigned?, hnan, hword "inf" (by decide), hword "infinity" (by decide), hread]
  · rw [hvalue, unsignedValue, hbody.readSign]
    rfl

/-- The only numbers that are not read are those that are too large. -/
theorem IsNumber.readDouble?_eq_none_iff (h : IsNumber cs) :
    readDouble? (String.ofList cs) = none ↔
      BinaryFormat.double.roundingLimit ≤ unsignedValue cs := by
  obtain ⟨m, places, hread, hvalue⟩ := h.readSigned?
  have hbits : readBits? .double (String.ofList cs) =
      ((Magnitude.number m 10 (-(places : Int))).bits? .double).map
        (BinaryFormat.double.withSign (readSign cs).1) := by
    simp only [readBits?, String.toList_ofList, hread, Option.bind_eq_bind, Option.bind_some]
    cases (Magnitude.number m 10 (-(places : Int))).bits? .double <;> rfl
  rw [← hvalue, ← bits?_eq_none_iff, readDouble?, hbits, Option.map_map, Option.map_eq_none_iff]

/-! ### The function -/

/-- What `Val` reads is the longest start of the text, without its blanks, that has the form of a
number. If no start has it, `Val` gives zero without reading anything; what has it is read, unless
it is too large. -/
theorem val_reads_longest_number (v : Value) :
    let text := v.toText.toList.filter (· != ' ')
    let piece := numberLead text
    val [v] = .ok (.double
      (if piece = [] then 0 else (readDouble? (String.ofList piece)).getD 0)) ∧
    (piece = [] ↔ ∀ p, p <+: text → ¬ IsNumber p) ∧
    (piece ≠ [] → IsLongestPrefix IsNumber piece text ∧
      (readDouble? (String.ofList piece) = none ↔
        BinaryFormat.double.roundingLimit ≤ unsignedValue piece)) := by
  intro text piece
  have hval : val [v] = .ok (.double
      (if piece = [] then 0 else (readDouble? (String.ofList piece)).getD 0)) := by
    show Except.ok (Value.double (leadingNumber v.toText)) = _
    simp only [leadingNumber, List.isEmpty_iff]
    rfl
  rcases numberLead_spec text with ⟨hnil, hnone⟩ | hlongest
  · exact ⟨hval, iff_of_true hnil hnone, fun hne => absurd hnil hne⟩
  · have hne : piece ≠ [] := fun hnil => not_isNumber_nil (hnil ▸ hlongest.holds)
    exact ⟨hval, iff_of_false hne fun hnone => hnone piece hlongest.isPrefix hlongest.holds,
      fun _ => ⟨hlongest, hlongest.holds.readDouble?_eq_none_iff⟩⟩

/-- A sign and a point in front of a digit are read, and a second point is not. -/
theorem val_reads_longest_number_half :
    IsLongestPrefix IsNumber "-.5".toList "-.5.7km".toList ∧ readDouble? "-.5" ≠ none := by
  obtain ⟨-, -, hpiece⟩ := val_reads_longest_number (.text "- .5.7 km")
  obtain ⟨hlongest, hrange⟩ := hpiece (by decide)
  have hvalue : unsignedValue "-.5".toList = (5 : Nat) / 10 ^ 1 := rfl
  refine ⟨hlongest, mt hrange.1 (not_le.2 ?_)⟩
  exact lt_trans (hvalue.trans_lt (by norm_num)) one_lt_roundingLimit_double

end FormBasic.Library
