import FormBasic.Source
import Mathlib.Data.List.DropRight

/-!
# The caret under a place

Lines and columns count characters, but the excerpt takes as many bytes of its marked line as there
are columns before the place, and it leaves out the carriage returns at the end of that line. So the
caret need not stand under the place that is meant. It does if all characters before the place have
one byte and are shown. If one of them has more bytes, the excerpt comes to its end before it has
passed all characters, and the caret stands too far to the left, unless the end is already reached
inside this character: each byte of a character that is cut counts as one, so that the count is
right again.

## Main definitions

* `Source.lastLine` — the part of a text behind its last line break
* `Source.LeadsBehind` — what is before the caret is as wide as a text
* `Source.BytesReach` — as many bytes as there are characters reach a place

## Main results

* `Source.placeAt_utf8ByteSize` — the place of a character
* `Source.getElem?_lines` — the line of a place
* `Source.caret_stands_under` — when the caret stands under the place
-/

namespace FormBasic.Source

/-! ### The last line -/

/-- The part of a text behind its last line break. -/
def lastLine (cs : List Char) : List Char := cs.rtakeWhile (· != '\n')

theorem lastLine_concat (cs : List Char) (c : Char) :
    lastLine (cs ++ [c]) = if c = '\n' then [] else lastLine cs ++ [c] := by
  rw [lastLine, List.rtakeWhile_concat]
  by_cases hc : c = '\n' <;> simp [hc, lastLine]

theorem not_mem_lastLine (cs : List Char) : '\n' ∉ lastLine cs := by
  intro h
  simpa using List.mem_rtakeWhile_imp h

theorem lastLine_append_cons (cs : List Char) {ds : List Char} (h : '\n' ∉ ds) :
    lastLine (cs ++ '\n' :: ds) = ds := by
  induction ds using List.reverseRecOn with
  | nil => simp [lastLine_concat]
  | append_singleton ds d ih =>
    rw [List.mem_append, not_or, List.mem_singleton] at h
    rw [← List.cons_append, ← List.append_assoc, lastLine_concat, if_neg (Ne.symm h.2), ih h.1]

/-- Before its last line, a text is empty or ends with a line break. -/
theorem eq_lastLine_or (cs : List Char) :
    '\n' ∉ cs ∧ lastLine cs = cs ∨ ∃ lines, cs = lines ++ '\n' :: lastLine cs := by
  induction cs using List.reverseRecOn with
  | nil => exact .inl ⟨List.not_mem_nil, rfl⟩
  | append_singleton cs c ih =>
    rw [lastLine_concat]
    by_cases hc : c = '\n'
    · rw [if_pos hc, hc]
      exact .inr ⟨cs, rfl⟩
    · rw [if_neg hc]
      obtain ⟨hcs, hlast⟩ | ⟨lines, hlines⟩ := ih
      · exact .inl ⟨by simp [hcs, Ne.symm hc], by rw [hlast]⟩
      · exact .inr ⟨lines, by rw [← List.cons_append, ← List.append_assoc, ← hlines]⟩

/-! ### Places -/

theorem foldl_after (cs : List Char) :
    cs.foldl Place.after {} = ⟨1 + cs.count '\n', 1 + (lastLine cs).length⟩ := by
  induction cs using List.reverseRecOn with
  | nil => rfl
  | append_singleton cs c ih =>
    rw [List.foldl_concat, ih, lastLine_concat, Place.after]
    by_cases hc : c = '\n'
    · simp [hc, Nat.add_assoc]
    · simp [hc, Nat.add_assoc]

/-- At the byte offset of a character, exactly the characters before it are counted. -/
theorem placeFrom_append (p : Place) (index : Nat) (before after : List Char) :
    placeFrom (index + (String.ofList before).utf8ByteSize : Nat) p index (before ++ after) =
      before.foldl Place.after p := by
  induction before generalizing p index with
  | nil => cases after <;> simp [placeFrom]
  | cons c before ih =>
    have hsize : (String.ofList (c :: before)).utf8ByteSize =
        c.utf8Size + (String.ofList before).utf8ByteSize := by
      rw [String.ofList_cons, String.utf8ByteSize_append, String.utf8ByteSize_singleton]
    have hpos := c.utf8Size_pos
    rw [List.cons_append, placeFrom, hsize, if_neg (by omega), ← Nat.add_assoc, ih, List.foldl_cons]

/-- The place of what stands behind a text: one line more than it has line breaks, and one column
more than its last line has characters. -/
theorem placeAt_utf8ByteSize (before after : String) :
    placeAt (before ++ after) before.utf8ByteSize =
      ⟨1 + before.toList.count '\n', 1 + (lastLine before.toList).length⟩ := by
  have h := placeFrom_append {} 0 before.toList after.toList
  rw [Nat.zero_add, String.ofList_toList, foldl_after] at h
  rw [placeAt, String.toList_append, h]

/-! ### Lines -/

theorem length_splitOn (x : Char) (cs : List Char) : (cs.splitOn x).length = cs.count x + 1 := by
  induction cs with
  | nil => rfl
  | cons c cs ih =>
    rw [List.splitOn_cons_eq_if_modifyHead]
    by_cases hc : c = x
    · simp [hc, ih]
    · simp [hc, ih]

theorem head_splitOn (x : Char) (cs : List Char) :
    (cs.splitOn x)[0]? = some (cs.takeWhile (· != x)) := by
  induction cs with
  | nil => rfl
  | cons c cs ih =>
    rw [List.splitOn_cons_eq_if_modifyHead]
    by_cases hc : c = x
    · simp [hc]
    · cases hsplit : cs.splitOn x with
      | nil => simp [hsplit] at ih
      | cons p ps => simp_all

/-- The line that a text goes on with, which has not come to its end. -/
theorem head_splitOn_append {lead : List Char} (h : '\n' ∉ lead) (after : List Char) :
    ((lead ++ after).splitOn '\n')[0]? = some (lead ++ after.takeWhile (· != '\n')) := by
  rw [head_splitOn, List.takeWhile_append_of_pos]
  exact fun c hc => bne_iff_ne.2 fun heq => h (heq ▸ hc)

/-- The line on which a text stands behind another one. -/
theorem getElem?_splitOn (before after : List Char) :
    ((before ++ after).splitOn '\n')[before.count '\n']? =
      some (lastLine before ++ after.takeWhile (· != '\n')) := by
  have hlead := head_splitOn_append (not_mem_lastLine before) after
  obtain ⟨hno, hlast⟩ | ⟨lines, hlines⟩ := eq_lastLine_or before
  · rw [List.count_eq_zero.2 hno]
    rwa [hlast] at hlead ⊢
  · have hcount : before.count '\n' = (lines.splitOn '\n').length := by
      rw [hlines, List.count_append, List.count_cons_self, length_splitOn,
        List.count_eq_zero.2 (not_mem_lastLine before)]
    have hsplit : (before ++ after).splitOn '\n' =
        lines.splitOn '\n' ++ (lastLine before ++ after).splitOn '\n' := by
      conv_lhs => rw [hlines, List.append_assoc, List.cons_append]
      exact List.splitOn_append_cons_self ..
    rw [hsplit, hcount, List.getElem?_append_right (Nat.le_refl _), Nat.sub_self, hlead]

/-- The line with the place between two texts, as it is shown. -/
def shownLine (before after : List Char) : List Char :=
  (lastLine before ++ after.takeWhile (· != '\n')).rdropWhile (· == '\r')

theorem getElem?_lines (before after : String) :
    (lines (before ++ after))[before.toList.count '\n']? =
      some (shownLine before.toList after.toList) := by
  rw [lines, List.getElem?_map, String.toList_append, getElem?_splitOn]
  rfl

/-! ### Blanks -/

/-- A text of blanks and tabs. -/
def IsBlanked (cs : List Char) : Prop := ∀ c ∈ cs, c = ' ' ∨ c = '\t'

theorem isBlanked_blanked (cs : List Char) : IsBlanked (blanked cs) := by
  intro c hc
  obtain ⟨d, -, rfl⟩ := List.mem_map.1 hc
  split
  · exact .inr rfl
  · exact .inl rfl

theorem isBlanked_blankedBytes (bytes : Nat) (cs : List Char) :
    IsBlanked (blankedBytes bytes cs) := by
  induction cs generalizing bytes with
  | nil => exact nofun
  | cons c cs ih =>
    rw [blankedBytes]
    split
    · refine List.forall_mem_cons.2 ⟨?_, ih _⟩
      split
      · exact .inr rfl
      · exact .inl rfl
    · exact fun d hd => .inl (List.eq_of_mem_replicate hd)

theorem IsBlanked.append {cs ds : List Char} (hcs : IsBlanked cs) (hds : IsBlanked ds) :
    IsBlanked (cs ++ ds) := List.forall_mem_append.2 ⟨hcs, hds⟩

theorem IsBlanked.not_mem {cs : List Char} (h : IsBlanked cs) : '\n' ∉ cs := fun hmem => by
  simpa using h _ hmem

/-- What stands before the caret is as wide as a text, with tabs at the same places. -/
def LeadsBehind (under cs : List Char) : Prop :=
  under.length = cs.length ∧ ∀ i : Nat, under[i]? = some '\t' ↔ cs[i]? = some '\t'

/-- Of blanks and tabs, this is what the text itself looks like as blanks and tabs. -/
theorem IsBlanked.leadsBehind_iff {under cs : List Char} (h : IsBlanked under) :
    LeadsBehind under cs ↔ under = blanked cs := by
  constructor
  · rintro ⟨hlength, htabs⟩
    refine List.ext_getElem (by rw [blanked, List.length_map, hlength]) fun i hi hi' => ?_
    have htab := htabs i
    have hi'' : i < cs.length := hlength ▸ hi
    rw [List.getElem?_eq_getElem hi, List.getElem?_eq_getElem hi'', Option.some.injEq,
      Option.some.injEq] at htab
    have hblank := h _ (List.getElem_mem hi)
    simp only [blanked, List.getElem_map]
    by_cases hc : cs[i] = '\t'
    · simp [hc, htab.2 hc]
    · simpa [hc, mt htab.1 hc] using hblank
  · rintro rfl
    refine ⟨List.length_map _, fun i => ?_⟩
    rw [blanked, List.getElem?_map]
    cases cs[i]? with
    | none => simp
    | some c => by_cases hc : c = '\t' <;> simp [hc]

theorem replicate_eq_blanked_iff {cs : List Char} :
    List.replicate cs.length ' ' = blanked cs ↔ '\t' ∉ cs := by
  rw [eq_comm, List.eq_replicate_iff, blanked, List.length_map, List.forall_mem_map]
  constructor
  · rintro ⟨-, h⟩ htab
    simpa using h _ htab
  · refine fun h => ⟨rfl, fun c hc => ?_⟩
    have hne : c ≠ '\t' := fun heq => h (heq ▸ hc)
    simp [hne]

/-! ### Bytes -/

theorem length_blankedBytes_le (bytes : Nat) (cs : List Char) :
    (blankedBytes bytes cs).length ≤ bytes := by
  induction cs generalizing bytes with
  | nil => exact Nat.zero_le _
  | cons c cs ih =>
    rw [blankedBytes]
    split
    · have hpos := c.utf8Size_pos
      have hle := ih (bytes - c.utf8Size)
      rw [List.length_cons]
      omega
    · rw [List.length_replicate]

/-- A start of a line is shown as far as carriage returns follow it to the end. -/
def StartsLine (lead shown : List Char) : Prop :=
  lead <+: shown ∨ ∃ returns, lead = shown ++ returns ∧ ∀ c ∈ returns, c = '\r'

theorem startsLine_rdropWhile (lead rest : List Char) :
    StartsLine lead ((lead ++ rest).rdropWhile (· == '\r')) := by
  have hreturns := List.rdropWhile_append_rtakeWhile (p := (· == '\r')) (l := lead ++ rest)
  obtain ⟨as, hlead, htake⟩ | ⟨bs, hshown, -⟩ := List.append_eq_append_iff.1 hreturns
  · refine .inr ⟨as, hlead, fun c hc => ?_⟩
    have hmem : c ∈ (lead ++ rest).rtakeWhile (· == '\r') := htake ▸ List.mem_append_left _ hc
    simpa using List.mem_rtakeWhile_imp hmem
  · exact .inl ⟨bs, hshown.symm⟩

theorem StartsLine.tail {c d : Char} {lead shown : List Char}
    (h : StartsLine (c :: lead) (d :: shown)) : c = d ∧ StartsLine lead shown := by
  obtain hbegins | ⟨returns, hlead, hreturns⟩ := h
  · obtain ⟨hc, hbegins⟩ := List.cons_prefix_cons.1 hbegins
    exact ⟨hc, .inl hbegins⟩
  · obtain ⟨hc, hlead⟩ := List.cons.inj hlead
    exact ⟨hc, .inr ⟨returns, hlead, hreturns⟩⟩

/-- So many bytes of a shown line as a text at its start has characters reach behind this text: all
of these have one byte and are shown, or the last of the bytes are in the first character that has
more, and no tab is behind it. -/
def BytesReach (lead shown : List Char) : Prop :=
  (lead <+: shown ∧ ∀ c ∈ lead, c.utf8Size = 1) ∨
    ∃ start c rest, lead = start ++ c :: rest ∧ (∀ d ∈ start, d.utf8Size = 1) ∧
      rest.length + 1 < c.utf8Size ∧ '\t' ∉ rest

variable {lead shown : List Char} {c : Char}

theorem bytesReach_nil : BytesReach [] shown := .inl ⟨List.nil_prefix, nofun⟩

/-- A character of one byte takes one column and one byte. -/
theorem bytesReach_cons_cons (hc : c.utf8Size = 1) :
    BytesReach (c :: lead) (c :: shown) ↔ BytesReach lead shown := by
  constructor
  · rintro (⟨hbegins, hsizes⟩ | ⟨start, d, rest, hlead, hsizes, hd, htab⟩)
    · exact .inl ⟨(List.cons_prefix_cons.1 hbegins).2, (List.forall_mem_cons.1 hsizes).2⟩
    · cases start with
      | nil =>
        obtain ⟨rfl, rfl⟩ := List.cons.inj hlead
        omega
      | cons e start =>
        obtain ⟨rfl, rfl⟩ := List.cons.inj hlead
        exact .inr ⟨start, d, rest, rfl, (List.forall_mem_cons.1 hsizes).2, hd, htab⟩
  · rintro (⟨hbegins, hsizes⟩ | ⟨start, d, rest, rfl, hsizes, hd, htab⟩)
    · exact .inl ⟨List.cons_prefix_cons.2 ⟨rfl, hbegins⟩, List.forall_mem_cons.2 ⟨hc, hsizes⟩⟩
    · exact .inr ⟨c :: start, d, rest, rfl, List.forall_mem_cons.2 ⟨hc, hsizes⟩, hd, htab⟩

/-- A character of several bytes has to be cut. -/
theorem bytesReach_cons_of_lt (hc : 1 < c.utf8Size) :
    BytesReach (c :: lead) shown ↔ lead.length + 1 < c.utf8Size ∧ '\t' ∉ lead := by
  constructor
  · rintro (⟨-, hsizes⟩ | ⟨start, d, rest, hlead, hsizes, hd, htab⟩)
    · have := hsizes c List.mem_cons_self
      omega
    · cases start with
      | nil =>
        obtain ⟨rfl, rfl⟩ := List.cons.inj hlead
        exact ⟨hd, htab⟩
      | cons e start =>
        obtain ⟨rfl, rfl⟩ := List.cons.inj hlead
        have := hsizes c List.mem_cons_self
        omega
  · exact fun ⟨hlt, htab⟩ => .inr ⟨[], c, lead, rfl, nofun, hlt, htab⟩

/-- Carriage returns that are not shown are not reached. -/
theorem not_bytesReach_returns (h : ∀ d ∈ c :: lead, d = '\r') : ¬ BytesReach (c :: lead) [] := by
  rintro (⟨hbegins, -⟩ | ⟨start, d, rest, hlead, -, hd, -⟩)
  · simp at hbegins
  · have hreturn : d = '\r' := h d (by simp [hlead])
    rw [hreturn] at hd
    exact absurd hd (by simp [Char.utf8Size])

theorem blankedBytes_eq_blanked_iff (h : StartsLine lead shown) :
    blankedBytes lead.length shown = blanked lead ↔ BytesReach lead shown := by
  induction lead generalizing shown with
  | nil =>
    have hnone : blankedBytes 0 shown = [] := List.length_eq_zero_iff.1
      (Nat.le_zero.1 (length_blankedBytes_le 0 shown))
    exact iff_of_true hnone bytesReach_nil
  | cons c lead ih =>
    cases shown with
    | nil =>
      refine iff_of_false (by simp [blankedBytes, blanked]) (not_bytesReach_returns fun d hd => ?_)
      obtain hbegins | ⟨returns, hlead, hreturns⟩ := h
      · simp at hbegins
      · rw [hlead] at hd
        exact hreturns d hd
    | cons d shown =>
      obtain ⟨rfl, htail⟩ := h.tail
      have hpos := c.utf8Size_pos
      have hblanked : blanked (c :: lead) = (if c == '\t' then '\t' else ' ') :: blanked lead := rfl
      rw [List.length_cons, blankedBytes, hblanked]
      by_cases hone : c.utf8Size = 1
      · rw [bytesReach_cons_cons hone, ← ih htail, if_pos (by omega), hone, Nat.add_sub_cancel,
          List.cons.injEq]
        exact and_iff_right rfl
      · rw [bytesReach_cons_of_lt (by omega)]
        split
        · next hle =>
          -- the bytes are used up before all characters have been passed
          refine iff_of_false (fun heq => ?_) (by omega)
          have hlength := congrArg List.length heq
          have hshort := length_blankedBytes_le (lead.length + 1 - c.utf8Size) shown
          simp only [List.length_cons, blanked, List.length_map] at hlength
          omega
        · next hlt =>
          have htab : (c == '\t') = false := by
            refine beq_eq_false_iff_ne.2 ?_
            rintro rfl
            exact hone (by decide)
          rw [htab, List.replicate_succ, List.cons.injEq, replicate_eq_blanked_iff]
          exact and_congr_left fun _ => iff_of_true rfl (by omega)

/-! ### The excerpt -/

/-- The last line of an excerpt has the caret behind blanks. -/
theorem lastLine_excerpt (text : String) {place : Place} {content : List Char}
    (hcontent : (lines text)[place.line - 1]? = some content) (hline : 1 ≤ place.line) :
    lastLine (excerpt text place.line place.column).toList =
      blanked (margin place.line) ++ blankedBytes (place.column - 1) content ++ ['^'] := by
  obtain ⟨hlt, -⟩ := List.getElem?_eq_some_iff.1 hcontent
  have hcolumn : ((place.column : Int) - 1).toNat = place.column - 1 := by omega
  have hfree : '\n' ∉
      blanked (margin place.line) ++ blankedBytes (place.column - 1) content ++ ['^'] := by
    refine mt List.mem_append.1 (not_or.2 ⟨?_, by decide⟩)
    exact ((isBlanked_blanked _).append (isBlanked_blankedBytes _ _)).not_mem
  have hexcerpt : ∃ front, (excerpt text place.line place.column).toList = front ++ '\n' ::
      (blanked (margin place.line) ++ blankedBytes (place.column - 1) content ++ ['^']) := by
    have hout : ¬ ((place.line : Int) < 1 ∨ ((lines text).length : Int) < place.line) := by omega
    have hgetD : (lines text).getD (place.line - 1) [] = content := by
      rw [List.getD_eq_getElem?_getD, hcontent, Option.getD_some]
    simp only [excerpt, if_neg hout, Int.toNat_natCast, hgetD, String.toList_ofList, markedLine,
      hcolumn]
    rw [← List.append_assoc]
    exact ⟨_, rfl⟩
  obtain ⟨front, hfront⟩ := hexcerpt
  rw [hfront, lastLine_append_cons front hfree]

/-- The place of a character, and the last line of the excerpt at this place. The caret stands under
the character, as far as the characters before it on its line are counted and tabs are tabs, exactly
if as many bytes of the shown line reach the place. -/
theorem caret_stands_under (before : String) (c : Char) (after : String) :
    let text := before ++ (String.singleton c ++ after)
    let place := placeAt text before.utf8ByteSize
    let lead := lastLine before.toList
    place = ⟨1 + before.toList.count '\n', 1 + lead.length⟩ ∧
    ∃ under, lastLine (excerpt text place.line place.column).toList = under ++ ['^'] ∧
      IsBlanked under ∧
      (LeadsBehind under (margin place.line ++ lead) ↔
        BytesReach lead (shownLine before.toList (c :: after.toList))) := by
  intro text place lead
  have hplace : place = ⟨1 + before.toList.count '\n', 1 + lead.length⟩ :=
    placeAt_utf8ByteSize before (String.singleton c ++ after)
  have hcontent : (lines text)[place.line - 1]? =
      some (shownLine before.toList (c :: after.toList)) := by
    rw [hplace, Nat.add_sub_cancel_left, getElem?_lines, String.toList_append,
      String.toList_singleton]
    rfl
  have hlast := lastLine_excerpt text hcontent (by rw [hplace]; exact Nat.le_add_right 1 _)
  have hlength : place.column - 1 = lead.length := by rw [hplace, Nat.add_sub_cancel_left]
  have hblanked := (isBlanked_blanked (margin place.line)).append
    (isBlanked_blankedBytes (place.column - 1) (shownLine before.toList (c :: after.toList)))
  refine ⟨hplace, _, hlast, hblanked, ?_⟩
  have happend :
      blanked (margin place.line ++ lead) = blanked (margin place.line) ++ blanked lead :=
    List.map_append
  rw [hblanked.leadsBehind_iff, happend, List.append_cancel_left_eq, hlength]
  exact blankedBytes_eq_blanked_iff (startsLine_rdropWhile _ _)

/-- Behind a character of two bytes, the caret stands too far to the left. -/
theorem caret_stands_under_accented : ∃ under,
    lastLine (excerpt "é x" (placeAt "é x" 3).line (placeAt "é x" 3).column).toList =
      under ++ ['^'] ∧
    ¬ LeadsBehind under (margin 1 ++ ['é', ' ']) := by
  obtain ⟨hplace, under, hunder, -, hcaret⟩ := caret_stands_under "é " 'x' ""
  have hlead : lastLine "é ".toList = ['é', ' '] := by decide
  have hline : (placeAt "é x" 3).line = 1 := congrArg Place.line hplace
  refine ⟨under, hunder, fun hleads => ?_⟩
  rw [hlead] at hcaret
  obtain ⟨hcut, -⟩ := (bytesReach_cons_of_lt (by decide)).1 (hcaret.1 (hline ▸ hleads))
  exact absurd hcut (by decide)

end FormBasic.Source
