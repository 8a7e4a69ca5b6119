import FormBasic.Text.Blank
import FormBasic.Text.Case
import Mathlib.Data.List.Basic
import Mathlib.Tactic.ByContra

/-!
# Lower case

What lower case does to the characters that are no letters. They stay, and nothing else becomes one
of them: the small letters of the case table all stand behind the capital letters of ASCII. So a
mark such as a point or a semicolon is in a text exactly if it is in its lower case form, and blanks
are the same in lower case.

## Main results

* `Text.lowerChar_eq_iff`, `Text.mem_lower_iff` — marks in lower case
* `Text.lowerChar_of_isBlank` — blanks in lower case
-/

namespace FormBasic.Text

theorem toNat_toLower (c : Char) :
    c.toLower.toNat = if 65 ≤ c.toNat ∧ c.toNat ≤ 90 then c.toNat + 32 else c.toNat := by
  by_cases h : c.val ≥ 'A'.val ∧ c.val ≤ 'Z'.val
  · have hupper : 65 ≤ c.toNat ∧ c.toNat ≤ 90 :=
      h.imp UInt32.le_iff_toNat_le.1 UInt32.le_iff_toNat_le.1
    have hlower : c.toLower.val = c.val + ('a'.val - 'A'.val) := congrArg Char.val (dif_pos h)
    have hdistance : ('a'.val - 'A'.val).toNat = 32 := rfl
    have hsmall : c.val.toNat ≤ 90 := hupper.2
    rw [if_pos hupper]
    show c.toLower.val.toNat = c.val.toNat + 32
    rw [hlower, UInt32.toNat_add, hdistance]
    omega
  · have hlower : c.toLower = c := dif_neg h
    rw [hlower, if_neg fun hupper => h ?_]
    exact hupper.imp UInt32.le_iff_toNat_le.2 UInt32.le_iff_toNat_le.2

theorem toLower_toLower (c : Char) : c.toLower.toLower = c.toLower := by
  rw [← Char.toNat_inj, toNat_toLower c.toLower, toNat_toLower c]
  grind

theorem toLower_of_le {c : Char} (h : 128 ≤ c.toNat) : c.toLower = c := by
  rw [← Char.toNat_inj, toNat_toLower, if_neg (by omega)]

/-! ### Marks -/

/-- No letter outside ASCII has a small letter that stands before the letters of ASCII. -/
theorem le_of_mem_lowerTable : ∀ r ∈ lowerTable, (65 : Int) ≤ r.first + r.shift := by
  decide +kernel

/-- What is no code stands for the first character, so every other character has its code. -/
theorem eq_toNat_of_ofNat_eq {n : Nat} {x : Char} (hx : 0 < x.toNat) (h : Char.ofNat n = x) :
    n = x.toNat := by
  by_cases hvalid : n.isValidChar
  · rw [Char.ofNat, dif_pos hvalid] at h
    exact congrArg Char.toNat h
  · rw [Char.ofNat, dif_neg hvalid] at h
    rw [← h] at hx
    exact absurd hx (by decide)

/-- The characters that stand before the letters of ASCII, but for the first one. -/
def IsMark (x : Char) : Prop := 0 < x.toNat ∧ x.toNat < 65

instance (x : Char) : Decidable (IsMark x) := inferInstanceAs (Decidable (_ ∧ _))

variable {x : Char}

theorem mapByRuns_lowerTable_ne (hx : IsMark x) {c : Char} (hc : c ≠ x) :
    mapByRuns lowerTable c ≠ x := by
  unfold mapByRuns
  split
  · next r hr =>
    have hrun := le_of_mem_lowerTable r (List.mem_of_find?_eq_some hr)
    have hfirst : r.first ≤ c.toNat := by
      have hcontains := List.find?_some hr
      simp only [CaseRun.contains, Bool.and_eq_true, decide_eq_true_eq] at hcontains
      exact hcontains.1.1
    intro hmark
    have hcode := eq_toNat_of_ofNat_eq hx.1 hmark
    have hsmall := hx.2
    omega
  · exact hc

/-- A character is a mark in lower case exactly if it is this mark. -/
theorem lowerChar_eq_iff (hx : IsMark x) (c : Char) : lowerChar c = x ↔ c = x := by
  obtain ⟨hpos, hsmall⟩ := hx
  constructor
  · intro h
    by_contra hc
    unfold lowerChar at h
    split at h
    · have hcode := congrArg Char.toNat h
      have hne : c.toNat ≠ x.toNat := fun heq => hc (Char.toNat_inj.1 heq)
      rw [toNat_toLower] at hcode
      split at hcode <;> omega
    · exact mapByRuns_lowerTable_ne ⟨hpos, hsmall⟩ hc h
  · rintro rfl
    rw [lowerChar, if_pos (by omega), ← Char.toNat_inj, toNat_toLower, if_neg (by omega)]

/-- A text with a mark in it has it in lower case, and no other text has. -/
theorem mem_lower_iff (hx : IsMark x) (s : String) : x ∈ (lower s).toList ↔ x ∈ s.toList := by
  simp only [lower, String.toList_ofList, List.mem_map, lowerChar_eq_iff hx, exists_eq_right]

/-! ### Blanks -/

/-- The blanks outside ASCII are no letters. -/
theorem find?_lowerTable_of_blank :
    ∀ n ∈ [0x85, 0xa0, 0x1680, 0x2000, 0x2001, 0x2002, 0x2003, 0x2004, 0x2005, 0x2006, 0x2007,
      0x2008, 0x2009, 0x200a, 0x2028, 0x2029, 0x202f, 0x205f, 0x3000],
    (lowerTable.find? (·.contains n)).isNone = true := by
  decide +kernel

/-- A blank is its own lower case form. -/
theorem lowerChar_of_isBlank {c : Char} (h : isBlank c = true) : lowerChar c = c := by
  simp only [isBlank, Bool.or_eq_true, Bool.and_eq_true, decide_eq_true_eq, beq_iff_eq] at h
  unfold lowerChar
  split
  · rw [← Char.toNat_inj, toNat_toLower, if_neg (by omega)]
  · next hlarge =>
    have hnone := find?_lowerTable_of_blank c.toNat (by
      simp only [List.mem_cons, List.not_mem_nil, or_false]
      omega)
    rw [mapByRuns, Option.isNone_iff_eq_none.1 hnone]

end FormBasic.Text
