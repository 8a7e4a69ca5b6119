import FormBasic.Library.Number
import FormBasic.Proofs.Decimal.Reading
import FormBasic.Proofs.Text.Search

/-!
# Digits in groups of three

The digits of a number before its point are counted from the right, and a comma stands before every
third one but the first of all. The digits are put out from the left, where the number of digits
still to come decides on a comma. So the groups are complete one after the other when they are read
from the right, and only the first one can be short.

## Main definitions

* `Library.plainText` — a number without exponent and without groups
* `Library.IsGrouping` — digits cut into a first group and groups of three

## Main results

* `Library.exists_groupDigits_eq` — the groups of digits
* `Library.groupThousands_in_threes` — the groups of a number
-/

namespace FormBasic.Library

open Decimal

/-- A number in plain notation: perhaps a minus, digits, and perhaps a point and more digits. -/
def plainText (negative : Bool) (whole : List Char) (fraction : Option (List Char)) : List Char :=
  (if negative then ['-'] else []) ++ (whole ++ fraction.elim [] ('.' :: ·))

/-! ### Groups -/

/-- Digits cut into a first group of up to three, which is not empty, and groups of three. -/
structure IsGrouping (digits lead : List Char) (groups : List (List Char)) : Prop where
  append_flatten : lead ++ groups.flatten = digits
  lead_ne_nil : lead ≠ []
  length_lead_le : lead.length ≤ 3
  length_eq : ∀ g ∈ groups, g.length = 3

variable {c : Char} {digits whole lead : List Char} {groups : List (List Char)}

namespace IsGrouping

theorem length_digits (h : IsGrouping digits lead groups) :
    digits.length = lead.length + groups.length * 3 := by
  rw [← h.append_flatten, List.length_append, List.length_flatten,
    List.eq_replicate_of_mem (List.forall_mem_map.2 h.length_eq), List.sum_replicate_nat,
    List.length_map]

/-- One more digit goes to a first group that is short. -/
theorem cons_lead (h : IsGrouping digits lead groups) (hrest : digits.length % 3 ≠ 0) (c : Char) :
    IsGrouping (c :: digits) (c :: lead) groups where
  append_flatten := congrArg (c :: ·) h.append_flatten
  lead_ne_nil := List.cons_ne_nil c lead
  length_lead_le := by
    have hlead := h.length_lead_le
    have hdigits := h.length_digits
    rw [List.length_cons]
    omega
  length_eq := h.length_eq

/-- In front of complete groups it begins a new one. -/
theorem cons_group (h : IsGrouping digits lead groups) (hrest : digits.length % 3 = 0) (c : Char) :
    IsGrouping (c :: digits) [c] (lead :: groups) where
  append_flatten := congrArg (c :: ·) h.append_flatten
  lead_ne_nil := List.cons_ne_nil c []
  length_lead_le := List.length_singleton.trans_le (by decide)
  length_eq := by
    have hlead := h.length_lead_le
    have hpos := List.length_pos_iff.2 h.lead_ne_nil
    have hdigits := h.length_digits
    exact List.forall_mem_cons.2 ⟨by omega, h.length_eq⟩

theorem mem_digits {g : List Char} (h : IsGrouping digits lead groups) (hg : g ∈ lead :: groups)
    (hc : c ∈ g) : c ∈ digits := by
  rw [← h.append_flatten, List.mem_append]
  rcases List.mem_cons.1 hg with rfl | hg
  · exact .inl hc
  · exact .inr (List.mem_flatten.2 ⟨g, hg, hc⟩)

end IsGrouping

/-- Digits are put out in groups with commas between them. -/
theorem exists_groupDigits_eq (hdigits : digits ≠ []) : ∃ lead groups,
    IsGrouping digits lead groups ∧ groupDigits digits = Text.joinWith [','] (lead :: groups) := by
  induction digits with
  | nil => exact absurd rfl hdigits
  | cons c cs ih =>
    rw [groupDigits]
    rcases eq_or_ne cs [] with rfl | hcs
    · have hshort : [c].length ≤ 3 := List.length_singleton.trans_le (by decide)
      exact ⟨[c], [], ⟨rfl, List.cons_ne_nil c [], hshort, List.forall_mem_nil _⟩, rfl⟩
    · obtain ⟨lead, groups, hgroups, hjoin⟩ := ih hcs
      rw [List.isEmpty_eq_false_iff.2 hcs, hjoin]
      by_cases hrest : cs.length % 3 = 0
      · refine ⟨[c], lead :: groups, hgroups.cons_group hrest c, ?_⟩
        rw [beq_iff_eq.2 hrest]
        rfl
      · refine ⟨c :: lead, groups, hgroups.cons_lead hrest c, ?_⟩
        rw [beq_eq_false_iff_ne.2 hrest]
        cases groups <;> rfl

/-- Without the commas the digits are what they were. -/
theorem filter_groupDigits (cs : List Char) :
    (groupDigits cs).filter (· != ',') = cs.filter (· != ',') := by
  induction cs with
  | nil => rfl
  | cons c cs ih =>
    rw [groupDigits]
    split <;> simp [List.filter_cons, ih]

theorem mem_groupDigits {cs : List Char} (hc : c ∈ groupDigits cs) : c ∈ cs ∨ c = ',' := by
  rcases eq_or_ne c ',' with rfl | hne
  · exact .inr rfl
  · have hmem : c ∈ (groupDigits cs).filter (· != ',') := List.mem_filter.2 ⟨hc, bne_iff_ne.2 hne⟩
    rw [filter_groupDigits] at hmem
    exact .inl (List.mem_filter.1 hmem).1

/-! ### Numbers -/

theorem readSign_groupDigits_append (hwhole : AreDigits whole) (rest : List Char) :
    readSign (groupDigits whole ++ rest) = (false, groupDigits whole ++ rest) := by
  cases whole with
  | nil => exact absurd rfl hwhole.1
  | cons c cs =>
    have hc : AreDigits [c] :=
      ⟨List.cons_ne_nil c [], by simpa using hwhole.2 c List.mem_cons_self⟩
    have htail : ∃ tail, groupDigits (c :: cs) = [c] ++ tail := by
      rw [groupDigits]
      split <;> exact ⟨_, rfl⟩
    obtain ⟨tail, htail⟩ := htail
    rw [htail, List.append_assoc]
    exact hc.readSign _

theorem groupThousands_of_ne {cs : List Char} (h : ∀ ds, cs ≠ '-' :: ds) :
    groupThousands cs = groupUnsigned cs := by
  unfold groupThousands
  split
  · exact absurd rfl (h _)
  · rfl

/-- Only the digits before the point are grouped. -/
theorem groupThousands_plainText (negative : Bool) (hwhole : AreDigits whole)
    (fraction : Option (List Char)) :
    groupThousands (plainText negative whole fraction) =
      plainText negative (groupDigits whole) fraction := by
  have hunsigned : groupUnsigned (whole ++ fraction.elim [] ('.' :: ·)) =
      groupDigits whole ++ fraction.elim [] ('.' :: ·) := by
    rw [groupUnsigned, Text.cut_append_elim (hwhole.not_mem (by decide))]
    cases fraction with
    | none => exact (List.append_nil _).symm
    | some ds => rfl
  cases negative with
  | true => exact congrArg ('-' :: ·) hunsigned
  | false =>
    have hsign := hwhole.readSign (fraction.elim [] ('.' :: ·))
    refine (groupThousands_of_ne fun cs hcs => ?_).trans hunsigned
    rw [show whole ++ fraction.elim [] ('.' :: ·) = '-' :: cs from hcs] at hsign
    cases hsign

/-- Without the commas a number is the text that it was. -/
theorem filter_groupThousands (negative : Bool) {fraction : Option (List Char)}
    (hwhole : AreDigits whole) (hfraction : ∀ ds ∈ fraction, ∀ c ∈ ds, isDigit c = true) :
    (groupThousands (plainText negative whole fraction)).filter (· != ',') =
      plainText negative whole fraction := by
  have hself : ∀ {cs : List Char}, ',' ∉ cs → cs.filter (· != ',') = cs := fun hcs =>
    List.filter_eq_self.2 fun c hc => bne_iff_ne.2 (ne_of_mem_of_not_mem hc hcs)
  have hsign : ',' ∉ (if negative then ['-'] else []) := by cases negative <;> decide
  have hrest : ',' ∉ fraction.elim [] ('.' :: ·) := by
    cases fraction with
    | none => exact List.not_mem_nil
    | some ds =>
      exact List.not_mem_cons_of_ne_of_not_mem (by decide) fun hmem =>
        absurd (hfraction ds rfl ',' hmem) (by decide)
  rw [groupThousands_plainText negative hwhole, plainText, List.filter_append, List.filter_append,
    filter_groupDigits, hself hsign, hself (hwhole.not_mem (by decide)), hself hrest]
  rfl

/-- Grouping a number puts commas before its point, which cut the digits there into a first group of
one to three and groups of three. Without the commas it is the text that it was. -/
theorem groupThousands_in_threes (negative : Bool) {whole : List Char}
    {fraction : Option (List Char)} (hwhole : AreDigits whole)
    (hfraction : ∀ ds ∈ fraction, ∀ c ∈ ds, isDigit c = true) :
    let text := plainText negative whole fraction
    let parts := Text.cut '.' (readSign (groupThousands text)).2
    (groupThousands text).filter (· != ',') = text ∧
    (∃ lead groups, Text.splitOn [','] parts.1 = lead :: groups ∧
      AreDigits lead ∧ lead.length ≤ 3 ∧ ∀ g ∈ groups, AreDigits g ∧ g.length = 3) ∧
    parts.2 = fraction ∧ ∀ ds ∈ parts.2, ',' ∉ ds := by
  intro text parts
  have hparts : parts = (groupDigits whole, fraction) := by
    have hsign : (readSign (plainText negative (groupDigits whole) fraction)).2 =
        groupDigits whole ++ fraction.elim [] ('.' :: ·) := by
      cases negative with
      | true => rfl
      | false => exact congrArg Prod.snd (readSign_groupDigits_append hwhole _)
    have hpoint : '.' ∉ groupDigits whole := fun hmem =>
      (mem_groupDigits hmem).elim (hwhole.not_mem (by decide)) (by decide)
    show Text.cut '.' (readSign (groupThousands (plainText negative whole fraction))).2 = _
    rw [groupThousands_plainText negative hwhole, hsign, Text.cut_append_elim hpoint]
  rw [hparts]
  refine ⟨filter_groupThousands negative hwhole hfraction, ?_, rfl, fun ds hds hmem =>
    absurd (hfraction ds hds ',' hmem) (by decide)⟩
  obtain ⟨lead, groups, hgroups, hjoin⟩ := exists_groupDigits_eq hwhole.1
  have hdigits : ∀ g ∈ lead :: groups, ∀ c ∈ g, isDigit c = true := fun g hg c hc =>
    hwhole.2 c (hgroups.mem_digits hg hc)
  have hsplit : Text.splitOn [','] (Text.joinWith [','] (lead :: groups)) = lead :: groups :=
    Text.splitOn_joinWith (List.cons_ne_nil lead groups) fun g hg hmem =>
      absurd (hdigits g hg ',' hmem) (by decide)
  refine ⟨lead, groups, by rw [hjoin, hsplit],
    ⟨hgroups.lead_ne_nil, hdigits lead List.mem_cons_self⟩, hgroups.length_lead_le, ?_⟩
  intro g hg
  have hlength := hgroups.length_eq g hg
  refine ⟨⟨?_, hdigits g (List.mem_cons_of_mem lead hg)⟩, hlength⟩
  rintro rfl
  cases hlength

/-- Seven digits make a first group of one, and the places behind the point make none. -/
theorem groupThousands_in_threes_seven :
    (groupThousands "-1234567.8900".toList).filter (· != ',') = "-1234567.8900".toList ∧
    ∃ lead groups, Text.splitOn [','] "1,234,567".toList = lead :: groups ∧
      AreDigits lead ∧ lead.length ≤ 3 ∧ ∀ g ∈ groups, AreDigits g ∧ g.length = 3 := by
  obtain ⟨hfilter, hgroups, -⟩ := @groupThousands_in_threes true "1234567".toList
    (some "8900".toList) ⟨by decide, List.all_eq_true.1 (by decide)⟩
    (by rintro _ ⟨⟩; exact List.all_eq_true.1 (by decide))
  exact ⟨hfilter, hgroups⟩

end FormBasic.Library
