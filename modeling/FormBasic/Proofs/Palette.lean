import FormBasic.Palette
import FormBasic.Proofs.Decimal.Reading
import FormBasic.Proofs.Text.Search

/-!
# What a terminal shows of coloured text

A terminal reads characters, and sequences that set colours: an escape, what is set, and the letter
that ends the sequence. A sequence that sets nothing gives up all colours. A text is clean for a
terminal if it ends outside of a sequence and without colours, and breaks its lines without colours
only. Clean texts can be written one after another; and painting a text makes it a clean one that
shows the same characters.

## Main definitions

* `Palette.read` — what a terminal reads
* `Palette.visible`, `Palette.isColored` — what it shows then, and whether colours are left
* `Palette.Clean` — the texts that leave a terminal as they have found it

## Main results

* `Palette.Clean.append` — texts one after another
* `Palette.clean_paint` — painted text
-/

namespace FormBasic.Palette

/-! ### Reading -/

/-- The character with which a sequence begins. -/
def escape : Char := '\x1b'

/-- What a terminal reads. -/
inductive Sign where
  | char (c : Char)
  /-- A sequence that sets colours, without its first and its last character. -/
  | colors (code : List Char)
deriving Repr, DecidableEq

/-- Read characters; inside of a sequence, `code?` is what has been read of it. -/
def readFrom : (code? : Option (List Char)) → List Char → List Sign
  | _, [] => []
  | none, c :: cs => if c = escape then readFrom (some []) cs else .char c :: readFrom none cs
  | some code, c :: cs =>
    if c = 'm' then .colors code :: readFrom none cs else readFrom (some (code ++ [c])) cs

/-- Read a text. -/
def read (cs : List Char) : List Sign := readFrom none cs

/-- The characters that are shown. -/
def visible (signs : List Sign) : List Char :=
  signs.filterMap fun
    | .char c => some c
    | .colors _ => none

/-- Whether colours are set by a sign, or else have been before. -/
def Sign.sets (colored : Bool) : Sign → Bool
  | .char _ => colored
  | .colors code => code != ['[', '0']

/-- Whether colours are left after some signs. -/
def isColored (signs : List Sign) : Bool := signs.foldl Sign.sets false

variable {as bs cs : List Char}

@[simp] theorem read_nil : read [] = [] := rfl

theorem read_cons {c : Char} (hc : c ≠ escape) (cs : List Char) :
    read (c :: cs) = .char c :: read cs := if_neg hc

theorem readFrom_code {code rest : List Char} (hcode : 'm' ∉ code) (cs : List Char) :
    readFrom (some rest) (code ++ 'm' :: cs) = .colors (rest ++ code) :: read cs := by
  induction code generalizing rest with
  | nil => simp [readFrom, read]
  | cons c code ih =>
    obtain ⟨hc, hcode⟩ := not_or.1 (mt List.mem_cons.2 hcode)
    rw [List.cons_append, readFrom, if_neg (Ne.symm hc), ih hcode, List.append_assoc]
    rfl

/-- A sequence is read as a whole. -/
theorem read_escape {code : List Char} (hcode : 'm' ∉ code) (cs : List Char) :
    read (escape :: code ++ 'm' :: cs) = .colors code :: read cs := by
  rw [List.cons_append, read, readFrom, if_pos rfl, readFrom_code hcode, List.nil_append]

@[simp] theorem visible_append (as bs : List Sign) :
    visible (as ++ bs) = visible as ++ visible bs :=
  List.filterMap_append

/-- Where no colours are left, signs begin as on a fresh terminal. -/
theorem isColored_append {as bs : List Sign} (h : isColored as = false) :
    isColored (as ++ bs) = isColored bs := by
  rw [isColored, List.foldl_append, ← isColored, h, ← isColored]

/-! ### Clean texts -/

/-- A text leaves a terminal without colours, and breaks its lines only where there are none. -/
structure Clean (cs : List Char) : Prop where
  /-- No sequence is open at the end. -/
  read_append : ∀ rest, read (cs ++ rest) = read cs ++ read rest
  /-- No colours are left at the end. -/
  reset : isColored (read cs) = false
  /-- No colours are left where a line ends. -/
  lines : ∀ before after, read cs = before ++ .char '\n' :: after → isColored before = false

theorem clean_nil : Clean [] where
  read_append _ := rfl
  reset := rfl
  lines before after h := by simp at h

/-- Clean texts can be written one after another. -/
theorem Clean.append (ha : Clean as) (hb : Clean bs) : Clean (as ++ bs) where
  read_append rest := by
    rw [List.append_assoc, ha.read_append, hb.read_append, ha.read_append, List.append_assoc]
  reset := by rw [ha.read_append, isColored_append ha.reset, hb.reset]
  lines before after h := by
    -- The line ends in the second text, or with its first sign, or in the first text.
    rw [ha.read_append, List.append_eq_append_iff] at h
    obtain ⟨between, rfl, h⟩ | ⟨between, hleft, hright⟩ := h
    · rw [isColored_append ha.reset]
      exact hb.lines between after h
    · cases between with
      | nil =>
        rw [List.append_nil] at hleft
        rw [← hleft]
        exact ha.reset
      | cons sign between =>
        rw [List.cons_append, List.cons.injEq] at hright
        rw [← hright.1] at hleft
        exact ha.lines before between hleft

theorem Clean.flatMap {α : Type} {f : α → List Char} {xs : List α} (h : ∀ x ∈ xs, Clean (f x)) :
    Clean (xs.flatMap f) := by
  induction xs with
  | nil => exact clean_nil
  | cons x xs ih =>
    rw [List.forall_mem_cons] at h
    exact h.1.append (ih h.2)

/-! ### Plain texts -/

theorem read_append_of_free (h : escape ∉ as) (bs : List Char) :
    read (as ++ bs) = as.map .char ++ read bs := by
  induction as with
  | nil => rfl
  | cons a as ih =>
    obtain ⟨ha, has⟩ := not_or.1 (mt List.mem_cons.2 h)
    rw [List.cons_append, read_cons (Ne.symm ha), ih has]
    rfl

theorem read_of_free (h : escape ∉ as) : read as = as.map .char := by
  rw [← List.append_nil as, read_append_of_free h, read_nil, List.append_nil, List.append_nil]

@[simp] theorem visible_map_char (cs : List Char) : visible (cs.map .char) = cs := by
  rw [visible, List.filterMap_map]
  exact List.filterMap_some

@[simp] theorem isColored_map_char (cs : List Char) : isColored (cs.map .char) = false := by
  rw [isColored, List.foldl_map]
  exact List.foldl_fixed cs

/-- A text without sequences is clean. -/
theorem clean_of_free (h : escape ∉ cs) : Clean cs where
  read_append rest := by rw [read_append_of_free h, read_of_free h]
  reset := by rw [read_of_free h, isColored_map_char]
  lines before after hread := by
    rw [read_of_free h, List.map_eq_append_iff] at hread
    obtain ⟨lead, trail, -, rfl, -⟩ := hread
    exact isColored_map_char lead

theorem visible_read_of_free (h : escape ∉ cs) : visible (read cs) = cs := by
  rw [read_of_free h, visible_map_char]

/-! ### Painted texts -/

/-- What the sequence that sets two colours holds. -/
def startCode (foreground background : Nat) : List Char :=
  '[' :: Decimal.digitChars foreground ++ ';' :: Decimal.digitChars (background + 10)

variable {f b : Nat} {line : List Char}

theorem toList_intText (n : Nat) : (Decimal.intText n).toList = Decimal.digitChars n := by
  rw [Decimal.intText, if_neg (by omega), String.toList_ofList, Int.toNat_natCast]

theorem start_eq (f b : Nat) : start f b = escape :: startCode f b ++ ['m'] := by
  have hbackground : (Decimal.intText (b + 10)).toList = Decimal.digitChars (b + 10) :=
    toList_intText (b + 10)
  simp [start, startCode, toList_intText, hbackground, escape]

theorem not_mem_startCode : 'm' ∉ startCode f b := by
  have hdigits (n : Nat) : 'm' ∉ Decimal.digitChars n := fun h =>
    absurd ((Decimal.areDigits_digitChars n).2 _ h) (by decide)
  simp [startCode, hdigits]

/-- What is read of a line in colours. -/
def lineSigns (f b : Nat) (line : List Char) : List Sign :=
  .colors (startCode f b) :: (line.map .char ++ [.colors ['[', '0']])

theorem read_painted_append (hline : escape ∉ line) (rest : List Char) :
    read (start f b ++ line ++ reset ++ rest) = lineSigns f b line ++ read rest := by
  have hreset : read (reset ++ rest) = .colors ['[', '0'] :: read rest := by
    have hcode : 'm' ∉ ['[', '0'] := by decide
    exact read_escape hcode rest
  rw [start_eq, List.append_assoc, List.append_assoc, List.append_assoc, List.singleton_append,
    read_escape not_mem_startCode, read_append_of_free hline, hreset, lineSigns]
  simp

theorem read_painted (hline : escape ∉ line) :
    read (start f b ++ line ++ reset) = lineSigns f b line := by
  rw [← List.append_nil (_ ++ reset), read_painted_append hline, read_nil, List.append_nil]

/-- The colours of a line end with it. -/
theorem clean_paintLine (hescape : escape ∉ line) (hbreak : '\n' ∉ line) :
    Clean (paintLine (start f b) line) := by
  unfold paintLine
  split
  · exact clean_nil
  · refine ⟨fun rest => ?_, ?_, fun before after h => ?_⟩
    · rw [read_painted_append hescape, read_painted hescape]
    · rw [read_painted hescape, isColored, lineSigns, List.foldl_cons, List.foldl_append]
      rfl
    · have hmem : Sign.char '\n' ∈ lineSigns f b line := by
        rw [← read_painted hescape, h]
        exact List.mem_append_right _ List.mem_cons_self
      exact absurd hmem (by simp [lineSigns, hbreak])

theorem visible_read_paintLine (hescape : escape ∉ line) :
    visible (read (paintLine (start f b) line)) = line := by
  unfold paintLine
  split
  · next hempty =>
    rw [List.isEmpty_iff.1 hempty]
    rfl
  · rw [read_painted hescape]
    simp [lineSigns, visible]

/-- Clean lines stay clean when they are put together, and show what they do alone. -/
theorem clean_joinWith {paintOne : List Char → List Char} {lines : List (List Char)}
    (h : ∀ line ∈ lines, Clean (paintOne line) ∧ visible (read (paintOne line)) = line) :
    Clean (Text.joinWith ['\n'] (lines.map paintOne)) ∧
      visible (read (Text.joinWith ['\n'] (lines.map paintOne))) = Text.joinWith ['\n'] lines := by
  have hbreak : escape ∉ ['\n'] := by decide
  induction lines with
  | nil => exact ⟨clean_nil, rfl⟩
  | cons line lines ih =>
    rw [List.forall_mem_cons] at h
    obtain ⟨⟨hclean, hvisible⟩, hlines⟩ := h
    obtain ⟨ihclean, ihvisible⟩ := ih hlines
    cases lines with
    | nil => exact ⟨hclean, hvisible⟩
    | cons next lines =>
      have hlead := hclean.append (clean_of_free hbreak)
      rw [List.map_cons, Text.joinWith_cons _ _ (by simp), Text.joinWith_cons _ _ (by simp),
        hlead.read_append, hclean.read_append, visible_append, visible_append, hvisible, ihvisible,
        visible_read_of_free hbreak]
      exact ⟨hlead.append ihclean, rfl⟩

/-- A painted text is clean, and shows the text. -/
theorem clean_paint {text : String} (h : escape ∉ text.toList) (foreground background : Int) :
    Clean (paint text foreground background).toList ∧
      visible (read (paint text foreground background).toList) = text.toList := by
  unfold paint
  split
  · next f b hf hb =>
    rw [String.toList_ofList]
    have hlines : ∀ line ∈ Text.splitOn ['\n'] text.toList, Clean (paintLine (start f b) line) ∧
        visible (read (paintLine (start f b) line)) = line := by
      intro line hline
      have hescape : escape ∉ line := fun hmem => h (Text.mem_of_mem_splitOn hline hmem)
      have hbreak : '\n' ∉ line := Text.not_mem_of_mem_splitOn hline
      exact ⟨clean_paintLine hescape hbreak, visible_read_paintLine hescape⟩
    have htext := clean_joinWith hlines
    rwa [Text.joinWith_splitOn (by decide)] at htext
  · exact ⟨clean_of_free h, visible_read_of_free h⟩

end FormBasic.Palette
