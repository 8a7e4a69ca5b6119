import FormBasic.Host.Poller
import FormBasic.Proofs.Palette

/-!
# Text on a terminal

A terminal that is told to write text writes whole lines at once and holds the rest back, since the
rest may be the beginning of a prompt. Whatever it is told, short of being cleared, no character is
lost, doubled or moved: what is seen so far, in the order of time, and what is held back make up the
text that it has been told to write. What is seen is what has been written, without the sequences
that set colours, and the prompts.

Every write leaves the terminal without colours and breaks lines only without them, so this holds of
all that is written. The step lemmas carry `Terminal.Orderly` along what a terminal is told.

## Main definitions

* `Terminal.shownText`, `Terminal.heldText` — what is seen, and what is held back
* `Terminal.Orderly` — all of a text has come to a terminal

## Main results

* `Terminal.Orderly.perform`, `Terminal.Orderly.foldl_perform` — steps and runs
* `Terminal.text_accounted` — what a terminal makes of text
-/

namespace FormBasic

open Palette

/-- What has been written to a terminal. -/
def Shown.out : Shown → List Char
  | .output text => text.toList
  | .prompt _ => []

/-- What is seen of it. A prompt comes from the line reader as it is. -/
def Shown.seen : Shown → List Char
  | .output text => visible (read text.toList)
  | .prompt text => text.toList

/-- The text that a view is told to write. -/
def ViewCall.text : ViewCall → List Char
  | .write text _ _ => text.toList
  | _ => []

namespace Terminal

/-- What is seen on a terminal and in the prompts, in the order of time. -/
def shownText (t : Terminal) : List Char := t.shown.reverse.flatMap Shown.seen

/-- The text that is held back. -/
def heldText (t : Terminal) : List Char := t.held.flatMap (·.text.toList)

/-- All of a text has come to a terminal. -/
structure Orderly (t : Terminal) (text : List Char) : Prop where
  /-- Everything that has been written left the terminal as it was. -/
  clean : ∀ s ∈ t.shown, Clean s.out
  /-- Only parts of a line are held back. -/
  held : ∀ s ∈ t.held, escape ∉ s.text.toList ∧ '\n' ∉ s.text.toList
  text : t.shownText ++ t.heldText = text

variable {t : Terminal} {text : List Char} {s : Segment}

/-- Nothing has come to a fresh terminal. -/
theorem orderly_fresh (color : Bool) : Orderly { color } [] where
  clean := nofun
  held := nofun
  text := rfl

/-! ### Writing -/

/-- What a write puts on a terminal shows the text that is written. -/
theorem exists_write (hs : escape ∉ s.text.toList) : ∃ out : String,
    t.write s = { t with shown := .output out :: t.shown } ∧
      Clean out.toList ∧ visible (read out.toList) = s.text.toList := by
  cases hcolor : t.color with
  | true =>
    refine ⟨paint s.text s.foreground s.background, ?_, clean_paint hs s.foreground s.background⟩
    rw [write, hcolor]
    rfl
  | false =>
    refine ⟨s.text, ?_, clean_of_free hs, visible_read_of_free hs⟩
    rw [write, hcolor]
    rfl

/-- Text is written behind all that has come before if nothing is held back. -/
theorem Orderly.write (h : t.Orderly text) (hheld : t.held = []) (hs : escape ∉ s.text.toList) :
    (t.write s).Orderly (text ++ s.text.toList) := by
  obtain ⟨out, hwrite, hclean, hvisible⟩ := exists_write hs
  have htext : t.shownText = text := by
    rw [← h.text, heldText, hheld, List.flatMap_nil, List.append_nil]
  rw [hwrite]
  refine ⟨List.forall_mem_cons.2 ⟨hclean, h.clean⟩, h.held, ?_⟩
  rw [shownText, heldText, hheld, List.reverse_cons, List.flatMap_append, ← shownText, htext]
  simp [Shown.seen, hvisible]

theorem Orderly.foldl_write {ss : List Segment} (h : t.Orderly text) (hheld : t.held = [])
    (hss : ∀ s ∈ ss, escape ∉ s.text.toList) :
    (ss.foldl Terminal.write t).Orderly (text ++ ss.flatMap (·.text.toList)) ∧
      (ss.foldl Terminal.write t).held = [] := by
  induction ss generalizing t text with
  | nil =>
    rw [List.flatMap_nil, List.append_nil]
    exact ⟨h, hheld⟩
  | cons s ss ih =>
    rw [List.forall_mem_cons] at hss
    rw [List.foldl_cons, List.flatMap_cons, ← List.append_assoc]
    exact ih (h.write hheld hss.1) hheld hss.2

/-- What is held back is written in its order. -/
theorem Orderly.flush (h : t.Orderly text) : t.flush.Orderly text ∧ t.flush.held = [] := by
  -- What is held back is set aside first, so only what has been shown has come to the terminal.
  have hshown : ({ t with held := [] } : Terminal).Orderly t.shownText :=
    ⟨h.clean, nofun, List.append_nil _⟩
  have hflush := hshown.foldl_write rfl fun s hs => (h.held s hs).1
  rwa [← heldText, h.text] at hflush

/-! ### Holding back -/

theorem Orderly.hold (h : t.Orderly text) (hescape : escape ∉ s.text.toList)
    (hbreak : '\n' ∉ s.text.toList) :
    ({ t with held := t.held ++ [s] } : Terminal).Orderly (text ++ s.text.toList) := by
  refine ⟨h.clean, fun r hr => ?_, ?_⟩
  · rcases List.mem_append.1 hr with hr | hr
    · exact h.held r hr
    · rw [List.mem_singleton.1 hr]
      exact ⟨hescape, hbreak⟩
  · rw [← h.text, heldText, List.flatMap_append, ← heldText, ← List.append_assoc]
    simp [shownText]

/-- A text without a line break has no whole lines. -/
theorem splitLines_none {text rest : String} (h : splitLines text = (none, rest)) :
    '\n' ∉ text.toList := by
  unfold splitLines at h
  split at h
  · cases h
  · next hnone => exact Text.lastIndexOf?_eq_none_iff.1 hnone

/-- A text is its whole lines and a part of a line. -/
theorem splitLines_some {text lines rest : String} (h : splitLines text = (some lines, rest)) :
    lines.toList ++ rest.toList = text.toList ∧ '\n' ∉ rest.toList := by
  unfold splitLines at h
  split at h
  · next i hi =>
    cases h
    rw [String.toList_ofList, String.toList_ofList]
    exact ⟨List.take_append_drop _ _, Text.not_mem_drop_of_lastIndexOf? hi⟩
  · cases h

/-- Whole lines are written behind what has been held back; a part of a line is held back. -/
theorem Orderly.showText (h : t.Orderly text) (hs : escape ∉ s.text.toList) :
    (t.showText s).Orderly (text ++ s.text.toList) := by
  unfold Terminal.showText
  split
  · next hsplit => exact h.hold hs (splitLines_none hsplit)
  · next lines rest hsplit =>
    obtain ⟨hparts, hbreak⟩ := splitLines_some hsplit
    have hescape : escape ∉ lines.toList ∧ escape ∉ rest.toList := by
      rwa [← hparts, List.mem_append, not_or] at hs
    obtain ⟨hflush, hheld⟩ := h.flush
    have hlines : (t.flush.write { s with text := lines }).Orderly (text ++ lines.toList) :=
      hflush.write hheld hescape.1
    rw [← hparts, ← List.append_assoc]
    dsimp only
    split
    · next hempty =>
      rw [eq_of_beq hempty, String.toList_empty, List.append_nil]
      exact hlines
    · exact hlines.hold hescape.2 hbreak

/-! ### Steps -/

/-- What is held back becomes the prompt. -/
theorem Orderly.requestInput (h : t.Orderly text) : t.requestInput.Orderly text := by
  refine ⟨List.forall_mem_cons.2 ⟨clean_nil, h.clean⟩, nofun, ?_⟩
  have hprompt : (String.join (t.held.map (·.text))).toList = t.heldText := by
    rw [String.toList_join, List.flatMap_map]
    rfl
  rw [← h.text, shownText, shownText]
  simp [Terminal.requestInput, Shown.seen, heldText, hprompt]

/-- What is still held back is shown at the end of the program. -/
theorem Orderly.finish (h : t.Orderly text) : t.finish.Orderly text :=
  ⟨h.flush.1.clean, h.flush.1.held, h.flush.1.text⟩

theorem Orderly.fail (h : t.Orderly text) (message : String) : (t.fail message).Orderly text :=
  ⟨h.flush.1.clean, h.flush.1.held, h.flush.1.text⟩

theorem Orderly.held_of_isTerminal (h : t.Orderly text) {c : ViewCall} (hc : c.isTerminal = true) :
    (t.perform c).held = [] := by
  cases c with
  | finished => exact h.flush.2
  | failed message => exact h.flush.2
  | _ => cases hc

/-- Whatever a terminal is told, short of being cleared, all of the text has come to it. -/
theorem Orderly.perform (h : t.Orderly text) {c : ViewCall} (hclear : c ≠ .clear)
    (hc : escape ∉ c.text) : (t.perform c).Orderly (text ++ c.text) := by
  cases c with
  | write text foreground background => exact h.showText hc
  | clear => exact absurd rfl hclear
  | requestInput => simpa [Terminal.perform, ViewCall.text] using h.requestInput
  | finished => simpa [Terminal.perform, ViewCall.text] using h.finish
  | failed message => simpa [Terminal.perform, ViewCall.text] using h.fail message

theorem Orderly.foldl_perform {calls : List ViewCall} (h : t.Orderly text)
    (hclear : .clear ∉ calls) (hcalls : ∀ c ∈ calls, escape ∉ c.text) :
    (calls.foldl Terminal.perform t).Orderly (text ++ calls.flatMap ViewCall.text) := by
  induction calls generalizing t text with
  | nil =>
    rw [List.flatMap_nil, List.append_nil]
    exact h
  | cons c calls ih =>
    obtain ⟨hc, hclear⟩ := not_or.1 (mt List.mem_cons.2 hclear)
    rw [List.forall_mem_cons] at hcalls
    rw [List.foldl_cons, List.flatMap_cons, ← List.append_assoc]
    exact ih (h.perform (Ne.symm hc) hcalls.1) hclear hcalls.2

/-! ### What has been written -/

theorem toList_written (t : Terminal) : t.written.toList = t.shown.reverse.flatMap Shown.out := by
  rw [written, String.toList_join, List.flatMap_map]
  refine List.flatMap_congr fun s _ => ?_
  cases s <;> rfl

/-- Clean texts are read one by one. -/
theorem read_flatMap {ss : List Shown} (h : ∀ s ∈ ss, Clean s.out) :
    read (ss.flatMap Shown.out) = ss.flatMap fun s => read s.out := by
  induction ss with
  | nil => rfl
  | cons s ss ih =>
    rw [List.forall_mem_cons] at h
    rw [List.flatMap_cons, List.flatMap_cons, h.1.read_append, ih h.2]

theorem Orderly.not_mem_heldText (h : t.Orderly text) : '\n' ∉ t.heldText := by
  intro hmem
  obtain ⟨s, hs, hbreak⟩ := List.mem_flatMap.1 hmem
  exact (h.held s hs).2 hbreak

/-- A terminal loses, doubles and moves no character of the text that it is told to write, as long
as it is not cleared and the text has no escapes: what is seen on it and in the prompts, with what
is held back behind it, is this text. No line break is held back, and at the end of the program
nothing is. Written text holds whole sequences only; no colours are left at the end of a write, nor
where a line ends. -/
theorem text_accounted (color : Bool) {calls : List ViewCall} (hclear : .clear ∉ calls)
    (hcalls : ∀ c ∈ calls, escape ∉ c.text) :
    let t := calls.foldl perform { color }
    t.shownText ++ t.heldText = calls.flatMap ViewCall.text ∧
      '\n' ∉ t.heldText ∧
      (∀ c : ViewCall, c.isTerminal = true → (t.perform c).held = []) ∧
      read t.written.toList = (t.shown.reverse.flatMap fun s => read s.out) ∧
      (∀ before, before <+: t.shown.reverse → isColored (read (before.flatMap Shown.out)) = false) ∧
      ∀ before after, read t.written.toList = before ++ .char '\n' :: after →
        isColored before = false := by
  intro t
  have h : t.Orderly (calls.flatMap ViewCall.text) :=
    (orderly_fresh color).foldl_perform hclear hcalls
  have hclean : ∀ s ∈ t.shown.reverse, Clean s.out := fun s hs => h.clean s (List.mem_reverse.1 hs)
  rw [toList_written]
  refine ⟨h.text, h.not_mem_heldText, fun c => h.held_of_isTerminal, read_flatMap hclean,
    fun before hbefore => ?_, (Clean.flatMap hclean).lines⟩
  exact (Clean.flatMap fun s hs => hclean s (hbefore.subset hs)).reset

/-- A line in colours, a prompt in two pieces, lines without colours, and the end of the program. -/
theorem text_accounted_prompt :
    let calls : List ViewCall := [.write "Hello\nName" 12 0, .write "? " 7 0, .requestInput,
      .write "Hi\n\n" (-1) 0, .write "bye" 7 0]
    let t := calls.foldl perform { color := true }
    t.written = "\x1b[91;40mHello\x1b[0m\nHi\n\n" ∧ t.prompts = ["Name? "] ∧
      t.shownText ++ t.heldText = "Hello\nName? Hi\n\nbye".toList ∧
      (t.perform .finished).written = "\x1b[91;40mHello\x1b[0m\nHi\n\n\x1b[37;40mbye\x1b[0m" ∧
      (t.perform .finished).held = [] := by
  intro calls t
  have hclear : .clear ∉ calls := by decide
  have hcalls : ∀ c ∈ calls, escape ∉ c.text := by decide +kernel
  obtain ⟨htext, -, hends, -⟩ := text_accounted true hclear hcalls
  exact ⟨by decide +kernel, by decide +kernel, htext.trans (by decide +kernel), by decide +kernel,
    hends .finished rfl⟩

end Terminal

end FormBasic
