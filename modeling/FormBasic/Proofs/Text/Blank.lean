import FormBasic.Proofs.Text.Search
import FormBasic.Text.Blank
import Mathlib.Data.List.DropRight

/-!
# Trimming

Trimming takes away what a test holds of at both ends of a text, so what is put there first makes no
difference. A character of which the test does not hold stays, and it divides the text: what stands
before it is trimmed at the start only, and what stands behind it at the end only.

The same holds of the pieces of a text that is cut at such a character. Trimming the text first
trims its first piece and its last one, which are trimmed again.

## Main results

* `Text.trimChars_append_left`, `Text.trimChars_append_right` — more to trim
* `Text.trimChars_append_cons` — a text with a character that stays
* `Text.map_trimChars_splitOn` — the pieces of a trimmed text
-/

namespace FormBasic.Text

variable {p : Char → Bool} {x : Char} {bs cs ds : List Char}

/-! ### Both ends -/

theorem not_mem_of_forall (hx : p x = false) (h : ∀ c ∈ bs, p c = true) : x ∉ bs := by
  intro hmem
  rw [h x hmem] at hx
  cases hx

theorem dropEndWhile_append (h : ∀ c ∈ bs, p c = true) :
    dropEndWhile p (cs ++ bs) = dropEndWhile p cs := by
  rw [dropEndWhile, dropEndWhile, List.reverse_append,
    List.dropWhile_append_of_pos fun c hc => h c (List.mem_reverse.1 hc)]

theorem dropEndWhile_append_cons (hx : p x = false) :
    dropEndWhile p (cs ++ x :: ds) = cs ++ x :: dropEndWhile p ds := by
  simp only [dropEndWhile, List.reverse_append, List.reverse_cons, List.append_assoc,
    List.dropWhile_append]
  split
  · next hempty => simp [hx, List.isEmpty_iff.1 hempty]
  · simp

theorem dropWhile_append_cons (hx : p x = false) :
    (cs ++ x :: ds).dropWhile p = cs.dropWhile p ++ x :: ds := by
  rw [List.dropWhile_append]
  split
  · next hempty => simp [hx, List.isEmpty_iff.1 hempty]
  · rfl

theorem trimChars_append_left (h : ∀ c ∈ bs, p c = true) :
    trimChars p (bs ++ cs) = trimChars p cs := by
  rw [trimChars, trimChars, List.dropWhile_append_of_pos h]

theorem trimChars_append_right (h : ∀ c ∈ bs, p c = true) :
    trimChars p (cs ++ bs) = trimChars p cs := by
  rw [trimChars, trimChars, List.dropWhile_append]
  split
  · next hempty =>
    rw [List.isEmpty_iff.1 hempty, ← List.append_nil bs, List.dropWhile_append_of_pos h,
      List.dropWhile_nil]
  · exact dropEndWhile_append h

/-- A character that stays divides a text. -/
theorem trimChars_append_cons (hx : p x = false) :
    trimChars p (cs ++ x :: ds) = cs.dropWhile p ++ x :: dropEndWhile p ds := by
  rw [trimChars, dropWhile_append_cons hx, dropEndWhile_append_cons hx]

/-- What is trimmed, and what has been taken away at its ends. -/
theorem exists_trimmed (p : Char → Bool) (cs : List Char) : ∃ lead trail,
    (∀ c ∈ lead, p c = true) ∧ (∀ c ∈ trail, p c = true) ∧
      cs = lead ++ trimChars p cs ++ trail := by
  refine ⟨cs.takeWhile p, (cs.dropWhile p).rtakeWhile p, fun c hc => ?_, fun c hc => ?_, ?_⟩
  · exact List.mem_takeWhile_imp hc
  · exact List.mem_rtakeWhile_imp hc
  · have hend : trimChars p cs ++ (cs.dropWhile p).rtakeWhile p = cs.dropWhile p :=
      List.rdropWhile_append_rtakeWhile
    rw [List.append_assoc, hend, List.takeWhile_append_dropWhile]

theorem trimChars_dropWhile (cs : List Char) : trimChars p (cs.dropWhile p) = trimChars p cs := by
  rw [trimChars, List.dropWhile_idempotent, ← trimChars]

theorem trimChars_dropEndWhile (cs : List Char) :
    trimChars p (dropEndWhile p cs) = trimChars p cs := by
  have hend : dropEndWhile p cs ++ cs.rtakeWhile p = cs := List.rdropWhile_append_rtakeWhile
  conv_rhs => rw [← hend]
  exact (trimChars_append_right fun c hc => List.mem_rtakeWhile_imp hc).symm

/-- Trimming keeps a character of which the test does not hold. -/
theorem mem_trimChars (hx : p x = false) : x ∈ trimChars p cs ↔ x ∈ cs := by
  obtain ⟨lead, trail, hlead, htrail, hcs⟩ := exists_trimmed p cs
  conv_rhs => rw [hcs]
  simp only [List.mem_append, not_mem_of_forall hx hlead, not_mem_of_forall hx htrail, false_or,
    or_false]

/-! ### Pieces -/

theorem splitOn_append_left (hx : x ∉ bs) :
    splitOn [x] (bs ++ cs) = (splitOn [x] cs).modifyHead (bs ++ ·) := by
  simp only [splitOn_singleton]
  induction bs with
  | nil => exact (modifyHead_nil_append _).symm
  | cons b bs ih =>
    obtain ⟨hb, hbs⟩ := not_or.1 (mt List.mem_cons.2 hx)
    rw [List.cons_append, List.splitOn_cons_eq_if_modifyHead, if_neg (by simpa using Ne.symm hb),
      ih hbs, List.modifyHead_modifyHead]
    rfl

theorem splitOn_append_right (cs : List Char) (hx : x ∉ bs) :
    ∃ pieces last, splitOn [x] cs = pieces ++ [last] ∧
      splitOn [x] (cs ++ bs) = pieces ++ [last ++ bs] := by
  simp only [splitOn_singleton]
  induction cs with
  | nil =>
    have hwhole : bs.splitOn x = [bs] := by
      have happend : splitOn [x] (bs ++ []) = _ := splitOn_append_left hx
      rwa [List.append_nil, splitOn_singleton, splitOn_singleton, List.splitOn_nil,
        List.modifyHead_cons, List.append_nil] at happend
    exact ⟨[], [], List.splitOn_nil x, hwhole⟩
  | cons c cs ih =>
    obtain ⟨pieces, last, hcs, hbs⟩ := ih
    rw [List.cons_append, List.splitOn_cons_eq_if_modifyHead, List.splitOn_cons_eq_if_modifyHead,
      hcs, hbs]
    split
    · exact ⟨[] :: pieces, last, rfl, rfl⟩
    · cases pieces with
      | nil => exact ⟨[], c :: last, rfl, rfl⟩
      | cons piece pieces => exact ⟨(c :: piece) :: pieces, last, rfl, rfl⟩

/-- Trimming a text makes no difference to its pieces when these are trimmed. -/
theorem map_trimChars_splitOn (hx : p x = false) (cs : List Char) :
    (splitOn [x] (trimChars p cs)).map (trimChars p) = (splitOn [x] cs).map (trimChars p) := by
  obtain ⟨lead, trail, hlead, htrail, hcs⟩ := exists_trimmed p cs
  obtain ⟨pieces, last, hleft, hright⟩ :=
    splitOn_append_right (trimChars p cs) (not_mem_of_forall hx htrail)
  conv_rhs => rw [hcs]
  rw [List.append_assoc, splitOn_append_left (not_mem_of_forall hx hlead), hright, hleft]
  cases pieces with
  | nil => simp [trimChars_append_left hlead, trimChars_append_right htrail]
  | cons piece pieces => simp [trimChars_append_left hlead, trimChars_append_right htrail]

end FormBasic.Text
