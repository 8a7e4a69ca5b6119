import FormBasic.Text.Search
import Mathlib.Data.List.Basic

/-!
# Searching, splitting and joining

A pattern occurs at a place of a text if the text goes on with the pattern from there. A search
finds the first such place, and a separator cuts the text at the places where it is found from the
left. Putting the separator back between the pieces gives the text again, whatever the separator is.
The other way round, pieces come back from the text that joins them if the separator is a single
character that none of them has.

## Main definitions

* `Text.OccursAt` — a pattern occurs at a place of a text

## Main results

* `Text.indexOf?_eq_some_iff`, `Text.indexOf?_eq_none_iff` — what a search finds
* `Text.joinWith_splitOn` — joining the pieces of a text
* `Text.splitOn_joinWith` — splitting what has been joined
-/

namespace FormBasic.Text

variable {pat cs : List Char}

/-! ### The start and the end of a text -/

theorem stripLead?_eq_some_iff {pat cs rest : List Char} :
    stripLead? pat cs = some rest ↔ cs = pat ++ rest := by
  induction pat generalizing cs with
  | nil => simp [stripLead?, eq_comm]
  | cons p pat ih =>
    cases cs with
    | nil => simp [stripLead?]
    | cons c cs =>
      rw [stripLead?]
      split
      · next hp =>
        obtain rfl := eq_of_beq hp
        simp [ih]
      · next hp =>
        have hp : ¬ p = c := fun h => hp (beq_iff_eq.2 h)
        simp [Ne.symm hp]

theorem startsWith_iff : startsWith pat cs = true ↔ pat <+: cs := by
  rw [startsWith, Option.isSome_iff_exists]
  simp only [stripLead?_eq_some_iff]
  exact exists_congr fun _ => eq_comm

theorem endsWith_iff {pat cs : List Char} : endsWith pat cs = true ↔ ∃ lead, cs = lead ++ pat := by
  rw [endsWith, startsWith_iff, List.reverse_prefix]
  exact exists_congr fun _ => eq_comm

theorem startsWith_singleton (sep c : Char) (cs : List Char) :
    startsWith [sep] (c :: cs) = (sep == c) := by
  by_cases h : sep == c <;> simp [startsWith, stripLead?, h]

theorem cut_eq_iff {sep : Char} {cs left right : List Char} :
    cut sep cs = (left, some right) ↔ cs = left ++ sep :: right ∧ sep ∉ left := by
  induction cs generalizing left with
  | nil => simp [cut]
  | cons c cs ih =>
    rw [cut]
    split
    · next hc =>
      obtain rfl := eq_of_beq hc
      cases left with
      | nil => simp
      | cons d left => simp; grind
    · next hc =>
      have hc : ¬ c = sep := fun h => hc (beq_iff_eq.2 h)
      cases left with
      | nil => simp [hc]
      | cons d left =>
        have := @ih left
        simp; grind

theorem cut_of_not_mem {sep : Char} {cs : List Char} (h : sep ∉ cs) : cut sep cs = (cs, none) := by
  induction cs with
  | nil => rfl
  | cons c cs ih =>
    obtain ⟨hc, hcs⟩ := not_or.1 (mt List.mem_cons.2 h)
    rw [cut, if_neg (by simpa using Ne.symm hc), ih hcs]

theorem cut_append_elim {sep : Char} {left : List Char} (h : sep ∉ left)
    (right : Option (List Char)) : cut sep (left ++ right.elim [] (sep :: ·)) = (left, right) := by
  cases right with
  | none => rw [Option.elim_none, List.append_nil, cut_of_not_mem h]
  | some cs => exact cut_eq_iff.2 ⟨rfl, h⟩

/-! ### The first occurrence -/

/-- A pattern occurs behind so many characters of a text. -/
def OccursAt (pat cs : List Char) (i : Nat) : Prop := i ≤ cs.length ∧ pat <+: cs.drop i

theorem occursAt_zero : OccursAt pat cs 0 ↔ pat <+: cs := by simp [OccursAt]

theorem occursAt_succ {c : Char} {i : Nat} :
    OccursAt pat (c :: cs) (i + 1) ↔ OccursAt pat cs i := by
  simp [OccursAt]

theorem not_occursAt_nil_succ {i : Nat} : ¬ OccursAt pat [] (i + 1) := by simp [OccursAt]

/-- Nothing is found exactly if the pattern occurs nowhere. -/
theorem indexOf?_eq_none_iff : indexOf? pat cs = none ↔ ∀ i, ¬ OccursAt pat cs i := by
  induction cs with
  | nil =>
    rw [← Nat.and_forall_add_one]
    simp [indexOf?, occursAt_zero, not_occursAt_nil_succ]
  | cons c cs ih =>
    rw [← Nat.and_forall_add_one, indexOf?]
    simp only [occursAt_succ, occursAt_zero, ← startsWith_iff]
    split
    · next h => simp [h]
    · next h => simp [h, ih]

/-- What is found is the first place at which the pattern occurs. -/
theorem indexOf?_eq_some_iff {i : Nat} :
    indexOf? pat cs = some i ↔ OccursAt pat cs i ∧ ∀ j < i, ¬ OccursAt pat cs j := by
  induction cs generalizing i with
  | nil =>
    cases i with
    | zero => simp [indexOf?, occursAt_zero]
    | succ i => simp [indexOf?, not_occursAt_nil_succ]
  | cons c cs ih =>
    rw [indexOf?]
    split
    · next h =>
      have hzero : OccursAt pat (c :: cs) 0 := occursAt_zero.2 (startsWith_iff.1 h)
      cases i with
      | zero => simp [hzero]
      | succ i =>
        refine iff_of_false (by simp) fun hi => ?_
        exact hi.2 0 (Nat.succ_pos i) hzero
    · next h =>
      have hzero : ¬ OccursAt pat (c :: cs) 0 := fun h' => h (startsWith_iff.2 (occursAt_zero.1 h'))
      cases i with
      | zero => simp [hzero]
      | succ i =>
        rw [Option.map_eq_some_iff]
        simp only [Nat.add_right_cancel_iff, exists_eq_right, ih, occursAt_succ,
          Nat.forall_lt_succ_left, hzero, not_false_eq_true, true_and]

/-! ### The last occurrence -/

section
variable {x : Char}

/-- A character that is searched from the end is found if it is there. -/
theorem lastIndexOf?_eq_none_iff : lastIndexOf? [x] cs = none ↔ x ∉ cs := by
  induction cs with
  | nil => simp [lastIndexOf?]
  | cons c cs ih =>
    rw [lastIndexOf?, List.mem_cons, not_or, ← ih]
    cases lastIndexOf? [x] cs with
    | none => simp [startsWith_singleton]
    | some i => simp

/-- A character that is searched from the end is found where nothing behind it is the same. -/
theorem lastIndexOf?_eq_some_iff {i : Nat} :
    lastIndexOf? [x] cs = some i ↔
      ∃ before after, cs = before ++ x :: after ∧ before.length = i ∧ x ∉ after := by
  induction cs generalizing i with
  | nil => simp [lastIndexOf?]
  | cons c cs ih =>
    rw [lastIndexOf?]
    cases hcs : lastIndexOf? [x] cs with
    | none =>
      have hfree := lastIndexOf?_eq_none_iff.1 hcs
      dsimp only
      rw [startsWith_singleton]
      constructor
      · intro h
        split at h
        · next hx =>
          exact ⟨[], cs, by rw [eq_of_beq hx]; rfl, Option.some.inj h, hfree⟩
        · cases h
      · rintro ⟨_ | ⟨d, before⟩, after, heq, rfl, -⟩
        · rw [(List.cons.inj heq).1, beq_self_eq_true, if_pos rfl]
          rfl
        · exact absurd ((List.cons.inj heq).2 ▸ by simp) hfree
    | some j =>
      obtain ⟨before, after, rfl, rfl, hafter⟩ := ih.1 hcs
      constructor
      · intro h
        exact ⟨c :: before, after, rfl, Option.some.inj h, hafter⟩
      · rintro ⟨_ | ⟨d, lead⟩, rest, heq, rfl, hrest⟩
        · exact absurd ((List.cons.inj heq).2 ▸ by simp) hrest
        · rw [ih.2 ⟨lead, rest, (List.cons.inj heq).2, rfl, hrest⟩] at hcs
          exact congrArg (some <| · + 1) (Option.some.inj hcs).symm

/-- Behind the place at which it is found it does not come again. -/
theorem not_mem_drop_of_lastIndexOf? {i : Nat} (h : lastIndexOf? [x] cs = some i) :
    x ∉ cs.drop (i + 1) := by
  obtain ⟨before, after, rfl, rfl, hafter⟩ := lastIndexOf?_eq_some_iff.1 h
  rwa [List.drop_length_add_append, List.drop_one, List.tail_cons]

end

/-! ### Splitting and joining -/

theorem joinWith_cons (sep p : List Char) {parts : List (List Char)} (h : parts ≠ []) :
    joinWith sep (p :: parts) = p ++ sep ++ joinWith sep parts := by
  cases parts with
  | nil => exact absurd rfl h
  | cons q parts => rfl

theorem splitAux_ne_nil (s : Char) (sep : List Char) (skip : Nat) (acc cs : List Char) :
    splitAux s sep skip acc cs ≠ [] := by
  induction cs generalizing skip acc with
  | nil => simp [splitAux]
  | cons c cs ih =>
    cases skip with
    | zero =>
      rw [splitAux]
      split
      · simp
      · exact ih 0 (c :: acc)
    | succ skip => exact ih skip acc

/-- Joining gives back what has been read of the current piece and all that is still to be read, but
for the rest of a separator. -/
theorem joinWith_splitAux (s : Char) (sep : List Char) (skip : Nat) (acc cs : List Char) :
    joinWith (s :: sep) (splitAux s sep skip acc cs) = acc.reverse ++ cs.drop skip := by
  induction cs generalizing skip acc with
  | nil => simp [splitAux, joinWith]
  | cons c cs ih =>
    cases skip with
    | succ skip => rw [splitAux, ih, List.drop_succ_cons]
    | zero =>
      rw [splitAux]
      split
      · next h =>
        obtain ⟨rest, hrest⟩ := startsWith_iff.1 h
        obtain ⟨rfl, hcs⟩ := List.cons.inj hrest
        rw [joinWith_cons _ _ (splitAux_ne_nil _ _ _ _ _), ih, ← hcs]
        simp
      · rw [ih]
        simp

/-- The pieces of a text with the separator between them are the text. -/
theorem joinWith_splitOn {sep : List Char} (h : sep ≠ []) (cs : List Char) :
    joinWith sep (splitOn sep cs) = cs := by
  cases sep with
  | nil => exact absurd rfl h
  | cons s sep => exact joinWith_splitAux s sep 0 [] cs

theorem mem_joinWith {sep p : List Char} {parts : List (List Char)} {c : Char} (hp : p ∈ parts)
    (hc : c ∈ p) : c ∈ joinWith sep parts := by
  induction parts with
  | nil => cases hp
  | cons q parts ih =>
    cases parts with
    | nil => rwa [joinWith, ← List.mem_singleton.1 hp]
    | cons r parts =>
      rw [joinWith_cons _ _ (List.cons_ne_nil r parts), List.append_assoc, List.mem_append,
        List.mem_append]
      rcases List.mem_cons.1 hp with rfl | hp
      · exact .inl hc
      · exact .inr (.inr (ih hp))

/-- The pieces of a text have no other characters than the text. -/
theorem mem_of_mem_splitOn {x c : Char} {cs p : List Char} (hp : p ∈ splitOn [x] cs) (hc : c ∈ p) :
    c ∈ cs := by
  rw [← joinWith_splitOn (List.cons_ne_nil x []) cs]
  exact mem_joinWith hp hc

theorem joinWith_eq_intercalate (sep : List Char) (parts : List (List Char)) :
    joinWith sep parts = sep.intercalate parts := by
  induction parts with
  | nil => rfl
  | cons p parts ih =>
    cases parts with
    | nil => simp [joinWith]
    | cons q parts => rw [joinWith, ih, List.intercalate_cons_cons, List.append_assoc]

theorem modifyHead_nil_append (ps : List (List Char)) : ps.modifyHead ([] ++ ·) = ps := by
  cases ps <;> rfl

theorem splitAux_singleton (x : Char) (acc cs : List Char) :
    splitAux x [] 0 acc cs = (cs.splitOn x).modifyHead (acc.reverse ++ ·) := by
  induction cs generalizing acc with
  | nil => simp [splitAux]
  | cons c cs ih =>
    rw [splitAux, startsWith_singleton, List.splitOn_cons_eq_if_modifyHead, Bool.beq_comm]
    split
    · rw [List.length_nil, ih, List.reverse_nil, modifyHead_nil_append, List.modifyHead_cons,
        List.append_nil]
    · rw [ih, List.modifyHead_modifyHead]
      congr 1
      funext p
      simp

/-- A single character cuts a text as it cuts a list. -/
theorem splitOn_singleton (x : Char) (cs : List Char) : splitOn [x] cs = cs.splitOn x := by
  rw [splitOn, splitAux_singleton, List.reverse_nil, modifyHead_nil_append]

/-- Cutting at a character goes with a map that neither makes nor takes away that character. -/
theorem splitOn_map {f : Char → Char} {x : Char} (hf : ∀ c, f c = x ↔ c = x) (cs : List Char) :
    splitOn [x] (cs.map f) = (splitOn [x] cs).map (List.map f) := by
  rw [splitOn_singleton, splitOn_singleton]
  induction cs with
  | nil => rfl
  | cons c cs ih =>
    rw [List.map_cons, List.splitOn_cons_eq_if_modifyHead, List.splitOn_cons_eq_if_modifyHead, ih]
    by_cases hc : c = x
    · simp [hc, (hf x).2 rfl]
    · have hfc : f c ≠ x := fun h => hc ((hf c).1 h)
      cases cs.splitOn x <;> simp [hc, hfc]

/-- No piece has the character at which it is cut. -/
theorem not_mem_of_mem_splitOn {x : Char} {cs p : List Char} (hp : p ∈ splitOn [x] cs) : x ∉ p := by
  rw [splitOn_singleton] at hp
  induction cs generalizing p with
  | nil =>
    rw [List.mem_singleton.1 hp]
    exact List.not_mem_nil
  | cons c cs ih =>
    rw [List.splitOn_cons_eq_if_modifyHead] at hp
    split at hp
    · rcases List.mem_cons.1 hp with rfl | hp
      · exact List.not_mem_nil
      · exact ih hp
    · next hc =>
      cases hsplit : cs.splitOn x with
      | nil => exact absurd hsplit (List.splitOn_ne_nil x cs)
      | cons q qs =>
        rw [hsplit] at hp ih
        rcases List.mem_cons.1 hp with rfl | hp
        · have hne : x ≠ c := fun h => hc (beq_iff_eq.2 h.symm)
          exact List.not_mem_cons_of_ne_of_not_mem hne (ih List.mem_cons_self)
        · exact ih (List.mem_cons_of_mem _ hp)

/-- Pieces without the separator come back. -/
theorem splitOn_joinWith {x : Char} {parts : List (List Char)} (hparts : parts ≠ [])
    (hx : ∀ p ∈ parts, x ∉ p) : splitOn [x] (joinWith [x] parts) = parts := by
  rw [splitOn_singleton, joinWith_eq_intercalate, List.splitOn_intercalate x hx hparts]

end FormBasic.Text
