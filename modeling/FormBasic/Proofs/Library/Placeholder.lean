import FormBasic.Machine.Builtin
import FormBasic.Proofs.Coercion
import FormBasic.Proofs.Text.Search

/-!
# Formats with placeholders

A format is written from texts, whose braces are doubled, and from the indices of arguments. Its
expansion undoes the opening braces and puts the arguments in their places; the closing braces are
undone last, all over the text that has come out of this, so that those of arguments are taken for
doubled ones as well. In a run of closing braces, those of the format come in pairs and are all
shown, wherever they stand in the run, and of those of arguments every second one is lost.

## Main definitions

* `Library.FormatPart` — the parts that a format is written from
* `Library.Glyph` — a character with its origin
* `Library.remaining` — what is left of the closing braces
* `Library.BracesMeet` — where one of them is lost

## Main results

* `Library.expand_written` — the expansion of a format
* `Library.unpairClosing_expanded` — what becomes of closing braces
* `Library.remaining_eq_iff` — when all of them are left
* `Library.arguments_shown_unless_braces_meet` — what a format shows
-/

namespace FormBasic.Library

/-! ### Formats -/

/-- A part of a format: a text that is shown as it is, or the place of an argument. -/
inductive FormatPart where
  | literal (text : List Char)
  | place (index : Nat)

/-- A text with its braces doubled. -/
def doubled (text : List Char) : List Char :=
  text.flatMap fun c => if c = '{' ∨ c = '}' then [c, c] else [c]

namespace FormatPart

/-- A part as it is written in a format. -/
def written : FormatPart → List Char
  | literal text => doubled text
  | place i => '{' :: ((Decimal.intText i).toList ++ ['}'])

/-- What a part is meant to show. -/
def meant (forms : List (List Char)) : FormatPart → List Char
  | literal text => text
  | place i => forms.getD i []

end FormatPart

/-- A character that is to be shown, and whether it comes from an argument. -/
structure Glyph where
  char : Char
  fromArgument : Bool

/-- What a part is meant to show, with the origin of each character. -/
def FormatPart.glyphs (forms : List (List Char)) : FormatPart → List Glyph
  | literal text => text.map (⟨·, false⟩)
  | place i => (forms.getD i []).map (⟨·, true⟩)

theorem FormatPart.map_char_glyphs (forms : List (List Char)) (part : FormatPart) :
    (part.glyphs forms).map Glyph.char = part.meant forms := by
  cases part <;> simp [glyphs, meant, Function.comp_def]

variable {forms : List (List Char)}

/-! ### The expansion -/

/-- A character behind the expansion, where the closing braces of the format are still doubled. -/
def Glyph.expanded (g : Glyph) : List Char :=
  if g.char = '}' ∧ g.fromArgument = false then ['}', '}'] else [g.char]

theorem expand_eq_expand_drop (skip : Nat) (cs : List Char) :
    expand forms skip cs = expand forms 0 (cs.drop skip) := by
  induction cs generalizing skip with
  | nil => simp [expand]
  | cons c cs ih =>
    cases skip with
    | zero => rfl
    | succ skip => exact ih skip

theorem expand_doubled (text rest : List Char) :
    expand forms 0 (doubled text ++ rest) =
      (text.map (⟨·, false⟩ : Char → Glyph)).flatMap Glyph.expanded ++ expand forms 0 rest := by
  induction text with
  | nil => rfl
  | cons c text ih =>
    have hcons : doubled (c :: text) =
        (if c = '{' ∨ c = '}' then [c, c] else [c]) ++ doubled text :=
      rfl
    rw [hcons, List.map_cons, List.flatMap_cons, List.append_assoc, List.append_assoc, ← ih]
    by_cases hopen : c = '{'
    · subst hopen
      simp [expand, Glyph.expanded]
    · by_cases hclose : c = '}'
      · subst hclose
        simp [expand, Glyph.expanded]
      · simp [expand, Glyph.expanded, hopen, hclose]

theorem placeholderIndex?_intText {i : Nat} (hi : (i : Int) ≤ maxSigned 64) :
    placeholderIndex? (Decimal.intText i).toList = some i := by
  have hcut : Text.cut ':' (Decimal.intText i).toList = ((Decimal.intText i).toList, none) :=
    Text.cut_of_not_mem (Decimal.not_mem_intText rfl (by decide) i)
  have hlow : minSigned 64 ≤ (i : Int) := Int.le_trans (by decide) (Int.natCast_nonneg i)
  rw [placeholderIndex?, hcut, Decimal.trimChars_intText, Decimal.readInt?_intText,
    if_pos ⟨hlow, hi⟩]
  simp

theorem expand_place {i : Nat} (hi : (i : Int) ≤ maxSigned 64) (hplace : i < forms.length)
    (rest : List Char) :
    expand forms 0 ((FormatPart.place i).written ++ rest) =
      forms.getD i [] ++ expand forms 0 rest := by
  have hne : (Decimal.intText i).toList ≠ [] := by
    simpa using Decimal.intText_ne_empty i
  have hhead : (((Decimal.intText i).toList ++ '}' :: rest).head? == some '{') = false := by
    rw [List.head?_append_of_ne_nil _ hne, beq_eq_false_iff_ne]
    exact fun h => Decimal.not_mem_intText rfl (by decide) i (List.mem_of_head? h)
  have hcut : Text.cut '}' ((Decimal.intText i).toList ++ '}' :: rest) =
      ((Decimal.intText i).toList, some rest) :=
    Text.cut_eq_iff.2 ⟨rfl, Decimal.not_mem_intText rfl (by decide) i⟩
  have hform : forms[i]? = some (forms.getD i []) := by
    rw [List.getD_eq_getElem _ _ hplace, List.getElem?_eq_getElem hplace]
  rw [FormatPart.written, List.cons_append, List.append_assoc, List.singleton_append, expand,
    if_neg (by simp), if_neg (Bool.eq_false_iff.1 hhead), hcut]
  simp only [placeholderIndex?_intText hi, Option.bind_some, hform]
  rw [expand_eq_expand_drop]
  simp

/-- The expansion leaves arguments as they are. -/
theorem flatMap_expanded_argument (form : List Char) :
    (form.map (⟨·, true⟩ : Char → Glyph)).flatMap Glyph.expanded = form := by
  simp [List.flatMap_map, Glyph.expanded]

/-- The placeholders are expanded as they are meant, and the opening braces are as well. -/
theorem expand_written {parts : List FormatPart} (hforms : (forms.length : Int) ≤ maxSigned 64)
    (hplaces : ∀ i, .place i ∈ parts → i < forms.length) :
    expand forms 0 (parts.flatMap FormatPart.written) =
      (parts.flatMap (FormatPart.glyphs forms)).flatMap Glyph.expanded := by
  induction parts with
  | nil => rfl
  | cons part parts ih =>
    rw [List.flatMap_cons, List.flatMap_cons, List.flatMap_append]
    have ih := ih fun i hi => hplaces i (List.mem_cons_of_mem _ hi)
    cases part with
    | literal text => rw [FormatPart.written, expand_doubled, ih, FormatPart.glyphs]
    | place i =>
      have hplace := hplaces i List.mem_cons_self
      rw [expand_place (by omega) hplace, ih, FormatPart.glyphs, flatMap_expanded_argument]

/-! ### Closing braces -/

/-- What is left of a text once its closing braces have been unpaired. In a run of closing braces
those of the format are all there; of those of arguments every second one is lost, and `odd` tells
whether the last one is still there. -/
def remaining : (odd : Bool) → List Glyph → List Char
  | _, [] => []
  | odd, g :: gs =>
    if g.char ≠ '}' then g.char :: remaining false gs
    else if g.fromArgument = false then '}' :: remaining odd gs
    else if odd then remaining false gs
    else '}' :: remaining true gs

/-- A character that is not the first of a pair of closing braces stays. -/
theorem unpairClosing_cons {c : Char} {cs : List Char} (h : c = '}' → ∀ ds, cs ≠ '}' :: ds) :
    unpairClosing (c :: cs) = c :: unpairClosing cs := by
  rw [unpairClosing]
  exact fun ds hc hcs => h hc ds hcs

/-- Where the first brace of a pair has been read, and where none has. -/
theorem unpairClosing_expanded (gs : List Glyph) :
    unpairClosing (gs.flatMap Glyph.expanded) = remaining false gs ∧
      unpairClosing ('}' :: gs.flatMap Glyph.expanded) = '}' :: remaining true gs := by
  induction gs with
  | nil => exact ⟨rfl, rfl⟩
  | cons g gs ih =>
    obtain ⟨ih, ih'⟩ := ih
    rw [List.flatMap_cons, remaining, remaining]
    by_cases hchar : g.char = '}'
    · by_cases horigin : g.fromArgument = false
      · simp [Glyph.expanded, hchar, horigin, unpairClosing, ih, ih']
      · simp [Glyph.expanded, hchar, horigin, unpairClosing, ih, ih']
    · have hstays : unpairClosing (g.char :: gs.flatMap Glyph.expanded) =
          g.char :: unpairClosing (gs.flatMap Glyph.expanded) :=
        unpairClosing_cons fun h => absurd h hchar
      have hstays' : unpairClosing ('}' :: g.char :: gs.flatMap Glyph.expanded) =
          '}' :: unpairClosing (g.char :: gs.flatMap Glyph.expanded) :=
        unpairClosing_cons fun _ ds h => hchar (List.cons.inj h).1
      simp [Glyph.expanded, hchar, hstays, hstays', ih]

/-- Only closing braces, and a closing brace of an argument behind them. -/
def LeadsToBrace (gs : List Glyph) : Prop :=
  ∃ run after, gs = run ++ ⟨'}', true⟩ :: after ∧ ∀ g ∈ run, g.char = '}'

/-- Two closing braces of arguments stand in one run of closing braces. -/
def BracesMeet (gs : List Glyph) : Prop :=
  ∃ before after, gs = before ++ ⟨'}', true⟩ :: after ∧ LeadsToBrace after

theorem leadsToBrace_cons {g : Glyph} {gs : List Glyph} :
    LeadsToBrace (g :: gs) ↔ g.char = '}' ∧ (g.fromArgument = true ∨ LeadsToBrace gs) := by
  constructor
  · rintro ⟨run, after, hgs, hrun⟩
    cases run with
    | nil =>
      obtain ⟨rfl, rfl⟩ := List.cons.inj hgs
      exact ⟨rfl, .inl rfl⟩
    | cons h run =>
      obtain ⟨rfl, rfl⟩ := List.cons.inj hgs
      exact ⟨hrun g List.mem_cons_self,
        .inr ⟨run, after, rfl, fun g' hg' => hrun g' (List.mem_cons_of_mem _ hg')⟩⟩
  · obtain ⟨char, fromArgument⟩ := g
    rintro ⟨hchar, horigin | ⟨run, after, rfl, hrun⟩⟩
    · cases hchar
      cases horigin
      exact ⟨[], gs, rfl, nofun⟩
    · exact ⟨_ :: run, after, rfl, List.forall_mem_cons.2 ⟨hchar, hrun⟩⟩

theorem bracesMeet_cons {g : Glyph} {gs : List Glyph} :
    BracesMeet (g :: gs) ↔
      (g.char = '}' ∧ g.fromArgument = true ∧ LeadsToBrace gs) ∨ BracesMeet gs := by
  constructor
  · rintro ⟨before, after, hgs, hafter⟩
    cases before with
    | nil =>
      obtain ⟨rfl, rfl⟩ := List.cons.inj hgs
      exact .inl ⟨rfl, rfl, hafter⟩
    | cons h before =>
      obtain ⟨rfl, rfl⟩ := List.cons.inj hgs
      exact .inr ⟨before, after, rfl, hafter⟩
  · obtain ⟨char, fromArgument⟩ := g
    rintro (⟨hchar, horigin, hleads⟩ | ⟨before, after, rfl, hafter⟩)
    · cases hchar
      cases horigin
      exact ⟨[], gs, rfl, hleads⟩
    · exact ⟨_ :: before, after, rfl, hafter⟩

theorem not_leadsToBrace_nil : ¬ LeadsToBrace [] := by
  rintro ⟨run, after, h, -⟩
  simp at h

theorem not_bracesMeet_nil : ¬ BracesMeet [] := by
  rintro ⟨before, after, h, -⟩
  simp at h

/-- Nothing is added or put in another order. -/
theorem remaining_sublist (odd : Bool) (gs : List Glyph) :
    (remaining odd gs).Sublist (gs.map Glyph.char) := by
  induction gs generalizing odd with
  | nil => exact List.Sublist.slnil
  | cons g gs ih =>
    rw [remaining, List.map_cons]
    by_cases hchar : g.char = '}'
    · rw [if_neg (not_not.2 hchar), hchar]
      split
      · exact (ih odd).cons_cons _
      · split
        · exact (ih false).cons _
        · exact (ih true).cons_cons _
    · rw [if_pos hchar]
      exact (ih false).cons_cons _

/-- Nothing is lost exactly if no two closing braces of arguments stand in one run. -/
theorem remaining_eq_iff (odd : Bool) (gs : List Glyph) :
    remaining odd gs = gs.map Glyph.char ↔
      ¬ BracesMeet gs ∧ (odd = true → ¬ LeadsToBrace gs) := by
  induction gs generalizing odd with
  | nil => simp [remaining, not_bracesMeet_nil, not_leadsToBrace_nil]
  | cons g gs ih =>
    rw [remaining, List.map_cons, bracesMeet_cons, leadsToBrace_cons]
    by_cases hchar : g.char = '}'
    · cases horigin : g.fromArgument with
      | false => simp [hchar, ih]
      | true =>
        cases odd with
        | false => simp [hchar, ih, and_comm]
        | true =>
          have hshort : remaining false gs ≠ '}' :: gs.map Glyph.char := by
            intro h
            have hle := (remaining_sublist false gs).length_le
            rw [h, List.length_cons] at hle
            omega
          simp [hchar, hshort]
    · simp [hchar, ih]

/-- What is shown of a format that is written from texts and from the places of arguments. Of the
closing braces of arguments in one run of closing braces every second one is lost, and nothing else
is. So the texts and the arguments are shown as they are exactly if no two closing braces of
arguments stand in one run. -/
theorem arguments_shown_unless_braces_meet (parts : List FormatPart) (args : List Value)
    (hargs : (args.length : Int) ≤ maxSigned 64)
    (hplaces : ∀ i, .place i ∈ parts → i < args.length) :
    let forms := args.map fun v => v.toText.toList
    let shown := compositeFormat (parts.flatMap FormatPart.written) forms
    shown = remaining false (parts.flatMap (FormatPart.glyphs forms)) ∧
    (shown = parts.flatMap (FormatPart.meant forms) ↔
      ¬ BracesMeet (parts.flatMap (FormatPart.glyphs forms))) := by
  intro forms shown
  have hshown : shown = remaining false (parts.flatMap (FormatPart.glyphs forms)) := by
    have hlength : forms.length = args.length := List.length_map _
    have hexpand : expand forms 0 (parts.flatMap FormatPart.written) =
        (parts.flatMap (FormatPart.glyphs forms)).flatMap Glyph.expanded :=
      expand_written (by rwa [hlength]) (by rwa [hlength])
    rw [← (unpairClosing_expanded _).1, ← hexpand]
    rfl
  have hmeant : (parts.flatMap (FormatPart.glyphs forms)).map Glyph.char =
      parts.flatMap (FormatPart.meant forms) := by
    simp only [List.map_flatMap, FormatPart.map_char_glyphs]
  refine ⟨hshown, ?_⟩
  rw [hshown, ← hmeant, remaining_eq_iff]
  simp

/-- An argument with two closing braces side by side loses one of them. -/
theorem arguments_shown_unless_braces_meet_doubled :
    Builtin.writtenText [.text "\x7b0\x7d", .text "a\x7d\x7db"] = "a\x7db" ∧
      compositeFormat "\x7b0\x7d".toList ["a\x7d\x7db".toList] ≠ "a\x7d\x7db".toList := by
  obtain ⟨hshown, hmeant⟩ :=
    arguments_shown_unless_braces_meet [.place 0] [.text "a\x7d\x7db"] (by decide) (by simp)
  refine ⟨congrArg String.ofList hshown, mt hmeant.1 (not_not.2 ?_)⟩
  exact ⟨[⟨'a', true⟩], [⟨'}', true⟩, ⟨'b', true⟩], rfl, [], [⟨'b', true⟩], rfl, nofun⟩

end FormBasic.Library
