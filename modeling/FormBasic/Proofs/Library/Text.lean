import FormBasic.Machine.Builtin
import FormBasic.Proofs.Arithmetic
import FormBasic.Proofs.Text.Search
import Mathlib.Order.Bounds.Defs

/-!
# Positions and pieces of texts

`InStr` looks for a text in another one from a position on, and gives the first position at which it
stands there. What it is to stand at a position can be said of the characters, or by `Mid` and
`Len`; as long as the length of the text is an `Integer`, the two agree. The method `IndexOf` is a
search of its own, which counts from zero.

`Split` cuts a text into pieces, and `Join` puts a separator between pieces.

## Main definitions

* `Library.StandsAt`, `Library.ShownAt` — a text stands at a position, by its characters and by what
  `Mid` and `Len` give

## Main results

* `Library.inStr_eq_zero`, `Library.isLeast_inStr` — what is found from a position on
* `Library.shownAt_iff` — standing at a position by `Mid` and `Len`
* `Library.inStr_finds_first` — the two searches
* `Library.inStr_position_wraps` — what comes of a position that is no `Integer`
* `Library.joinTexts_splitText`, `Library.splitText_joinTexts` — pieces and what joins them
* `Library.pieces_come_back` — the two procedures
-/

namespace FormBasic

open Value

namespace Library

/-! ### Positions -/

/-- A text stands at a position of another one: so many characters of that from there on are the
text, and all of them are there. -/
def StandsAt (s t : List Char) (p : Int) : Prop :=
  midPart s p t.length = t ∧ p + t.length - 1 ≤ s.length

/-- There is nothing to be found from a position on. -/
def NothingFrom (s t : List Char) (start : Int) : Prop :=
  start < 1 ∨ (s.length : Int) + 1 < start ∨ ∀ p, start ≤ p → ¬ StandsAt s t p

variable {s t : List Char} {start p : Int}

/-- Positions count from one, and places from zero. -/
theorem standsAt_iff (hp : 1 ≤ p) : StandsAt s t p ↔ Text.OccursAt t s (p - 1).toNat := by
  have hmid : midPart s p t.length = t ↔ t <+: s.drop (p - 1).toNat := by
    rw [midPart, Int.toNat_natCast, List.prefix_iff_eq_take, eq_comm]
  rw [StandsAt, Text.OccursAt, hmid]
  constructor
  · rintro ⟨hbegins, hend⟩
    exact ⟨by omega, hbegins⟩
  · rintro ⟨hplace, hbegins⟩
    have hlength := hbegins.length_le
    rw [List.length_drop] at hlength
    exact ⟨hbegins, by omega⟩

/-- A search from a position on is one in the rest of the text. -/
theorem occursAt_drop {n i : Nat} (hn : n ≤ s.length) :
    Text.OccursAt t (s.drop n) i ↔ Text.OccursAt t s (n + i) := by
  simp only [Text.OccursAt, List.length_drop, List.drop_drop]
  exact and_congr_left fun _ => by omega

theorem inStr_eq_zero (h : NothingFrom s t start) : inStr start s t = 0 := by
  rw [inStr]
  split
  · rfl
  · next hstart =>
    obtain ⟨hlow, hhigh⟩ := not_or.1 hstart
    obtain h | h | hnone := h
    · exact absurd h hlow
    · exact absurd h hhigh
    · have hsearch : Text.indexOf? t (s.drop (start - 1).toNat) = none := by
        refine Text.indexOf?_eq_none_iff.2 fun i hi => hnone (start + i) (by omega) ?_
        rw [standsAt_iff (by omega)]
        rw [occursAt_drop (by omega)] at hi
        convert hi using 1
        omega
      rw [hsearch]

theorem isLeast_inStr (h : ¬ NothingFrom s t start) :
    IsLeast {p | start ≤ p ∧ StandsAt s t p} (inStr start s t) := by
  simp only [NothingFrom, not_or, not_forall, not_not] at h
  obtain ⟨hlow, hhigh, p, hp, hstands⟩ := h
  have hplace (q : Int) (hq : start ≤ q) :
      StandsAt s t q ↔ Text.OccursAt t (s.drop (start - 1).toNat) (q - start).toNat := by
    rw [standsAt_iff (by omega), occursAt_drop (by omega)]
    congr! 1
    omega
  rw [inStr, if_neg (by omega)]
  split
  · next i hi =>
    obtain ⟨hfound, hfirst⟩ := Text.indexOf?_eq_some_iff.1 hi
    refine ⟨⟨by omega, (hplace _ (by omega)).2 ?_⟩, fun q ⟨hq, hstands⟩ => ?_⟩
    · convert hfound using 1
      omega
    · by_contra hlt
      exact hfirst (q - start).toNat (by omega) ((hplace q hq).1 hstands)
  · next hnone =>
    exact absurd ((hplace p hp).1 hstands) (Text.indexOf?_eq_none_iff.1 hnone _)

/-- The count of the characters before the first occurrence is one less than its position. -/
theorem indexIn_eq (s t : List Char) : indexIn s t = inStr 1 s t - 1 := by
  rw [indexIn, inStr, if_neg (by omega), show s.drop (1 - 1 : Int).toNat = s from rfl]
  cases Text.indexOf? t s with
  | none => rfl
  | some i => show (i : Int) = 1 + i - 1; omega

/-! ### Positions as values -/

/-- A text stands at a position by what `Len` and `Mid` say. -/
def ShownAt (s t : String) (p : Int32) : Prop :=
  ∃ n m : Int32, len [.text t] = .ok (.integer n) ∧ len [.text s] = .ok (.integer m) ∧
    mid [.text s, .integer p, .integer n] = .ok (.text t) ∧ p.toInt + n.toInt - 1 ≤ m.toInt

/-- By what `Len` and `Mid` say, there is nothing to be found from a position on. -/
def NothingShownFrom (s t : String) (start : Int32) : Prop :=
  start.toInt < 1 ∨ (∃ m : Int32, len [.text s] = .ok (.integer m) ∧ m.toInt + 1 < start.toInt) ∨
    ∀ p, start ≤ p → ¬ ShownAt s t p

theorem len_text_eq_iff {s : String} {n : Int32} :
    len [.text s] = .ok (.integer n) ↔ Int32.ofInt s.length = n := by
  have hlen : len [.text s] = .ok (.integer (Int32.ofInt s.length)) := rfl
  rw [hlen, Except.ok.injEq, Value.integer.injEq]

theorem mid_text {p : Int32} (hp : 1 ≤ p.toInt) (n : Int32) (s : String) :
    mid [.text s, .integer p, .integer n] = .ok (ofChars (midPart s.toList p.toInt n.toInt)) := by
  show (if p.toInt < 1 then _ else _) = _
  rw [if_neg (by omega)]
  rfl

/-- A length that fits is the number that `Len` gives. -/
theorem toInt_ofInt_length {s : String} (hs : s.length ≤ maxInteger) :
    (Int32.ofInt s.length).toInt = s.length := by
  rw [Operation.maxInteger_eq] at hs
  exact Int32.toInt_ofInt_of_le (by omega) (by omega)

variable {s t : String}

/-- In a text whose length fits, what `Len` and `Mid` say is so. -/
theorem shownAt_iff {p : Int32} (hs : s.length ≤ maxInteger) (hp : 1 ≤ p.toInt) :
    ShownAt s t p ↔ StandsAt s.toList t.toList p.toInt := by
  have hlength (ht : t.length ≤ s.length) : (Int32.ofInt t.length).toInt = t.toList.length :=
    toInt_ofInt_length (by omega)
  have htext (cs : List Char) : ofChars cs = .text t ↔ cs = t.toList := by
    rw [ofChars, Value.text.injEq, ← String.toList_inj, String.toList_ofList]
  constructor
  · rintro ⟨n, m, hn, hm, hmid, hend⟩
    obtain rfl := len_text_eq_iff.1 hn
    obtain rfl := len_text_eq_iff.1 hm
    rw [mid_text hp, Except.ok.injEq, htext] at hmid
    have ht : t.length ≤ s.length := by
      have hle := congrArg List.length hmid
      rw [midPart, List.length_take, List.length_drop] at hle
      simp only [String.length_toList] at hle
      omega
    rw [hlength ht] at hmid hend
    rw [toInt_ofInt_length hs] at hend
    exact ⟨hmid, hend⟩
  · rintro ⟨hmid, hend⟩
    have ht : t.length ≤ s.length := by
      simp only [String.length_toList] at hend
      omega
    refine ⟨_, _, len_text_eq_iff.2 rfl, len_text_eq_iff.2 rfl, ?_, ?_⟩
    · rw [mid_text hp, hlength ht, hmid, (htext _).2 rfl]
    · rw [hlength ht, toInt_ofInt_length hs]
      exact hend

/-- The first position from an `Integer` on is an `Integer`. -/
theorem exists_word_of_isLeast {start : Int32} {p : Int} (hs : s.length ≤ maxInteger)
    (hstart : 1 ≤ start.toInt)
    (h : IsLeast {q | start.toInt ≤ q ∧ StandsAt s.toList t.toList q} p) :
    ∃ q : Int32, q.toInt = p := by
  obtain ⟨⟨hle, hmid, hend⟩, hleast⟩ := h
  rw [String.length_toList, String.length_toList] at hend
  by_cases ht : t.length = 0
  · -- the empty text stands everywhere, so it is found at the start
    have hempty : t.toList = [] := List.length_eq_zero_iff.1 ht
    have hp : p ≤ start.toInt := by
      refine hleast ⟨Int.le_refl _, ?_, ?_⟩
      · rw [hempty, midPart]
        rfl
      · rw [String.length_toList, String.length_toList]
        omega
    exact ⟨start, Int.le_antisymm hle hp⟩
  · rw [Operation.maxInteger_eq] at hs
    exact ⟨_, Int32.toInt_ofInt_of_le (by omega) (by omega)⟩

theorem nothingShownFrom_iff {start : Int32} (hs : s.length ≤ maxInteger) :
    NothingShownFrom s t start ↔ NothingFrom s.toList t.toList start.toInt := by
  have hend : (∃ m : Int32, len [.text s] = .ok (.integer m) ∧ m.toInt + 1 < start.toInt) ↔
      (s.toList.length : Int) + 1 < start.toInt := by
    simp only [len_text_eq_iff, exists_eq_left', toInt_ofInt_length hs, String.length_toList]
  rw [NothingShownFrom, hend]
  constructor
  · intro h
    by_contra hsome
    have hleast := isLeast_inStr hsome
    obtain ⟨hlow, hhigh, -⟩ := not_or.1 hsome |>.imp_right not_or.1
    obtain ⟨q, hq⟩ := exists_word_of_isLeast hs (by omega) hleast
    rw [← hq] at hleast
    obtain h | h | hnone := h
    · exact hlow h
    · exact hhigh h
    · exact hnone q (Int32.le_iff_toInt_le.2 hleast.1.1)
        ((shownAt_iff hs (by have := hleast.1.1; omega)).2 hleast.1.2)
  · intro h
    by_cases hlow : start.toInt < 1
    · exact .inl hlow
    · refine h.imp_right (Or.imp_right fun hnone q hq hshown => ?_)
      have hle := Int32.le_iff_toInt_le.1 hq
      exact hnone q.toInt hle ((shownAt_iff hs (by omega)).1 hshown)

/-- What a search finds is an `Integer`, and not negative. -/
theorem exists_word_inStr (hs : s.length ≤ maxInteger) (t : String) (start : Int32) :
    ∃ q : Int32, q.toInt = inStr start.toInt s.toList t.toList ∧ 0 ≤ q.toInt := by
  by_cases hnone : NothingFrom s.toList t.toList start.toInt
  · exact ⟨0, (inStr_eq_zero hnone).symm, Int.le_refl _⟩
  · have hleast := isLeast_inStr hnone
    have hlow : 1 ≤ start.toInt := Int.not_lt.1 (not_or.1 hnone).1
    obtain ⟨q, hq⟩ := exists_word_of_isLeast hs hlow hleast
    exact ⟨q, hq, by have := hleast.1.1; omega⟩

theorem ofInt_toInt (q : Int32) : ofInt q.toInt = .integer q := by rw [ofInt, Int32.ofInt_toInt]

/-- The method gives one less than the function. -/
theorem valueMethod_indexOf {method : String} (h : Text.lower method = "indexof") (s t : String) :
    valueMethod (.text s) method [.text t] = .ok (ofInt (inStr 1 s.toList t.toList - 1)) := by
  have hmethod : textMethod method s.toList [.text t] =
      .ok (ofInt (indexIn s.toList t.toList)) := by
    rw [textMethod, h]
    rfl
  rw [valueMethod, h, ← indexIn_eq]
  exact hmethod

/-- One less than a number that is not negative can be had by a subtraction. -/
theorem subtract_one {q : Int32} (hq : 0 ≤ q.toInt) :
    Operation.subtract (.integer q) (.integer 1) = .ok (ofInt (q.toInt - 1)) := by
  have hlt := q.toInt_lt
  have hone : (1 : Int32).toInt = 1 := rfl
  show Operation.onIntegers (· - ·) q 1 = _
  rw [Operation.onIntegers_subtract, Operation.fitInteger_eq_ok, hone]
  exact ⟨_, rfl, Int32.toInt_ofInt_of_le (by omega) (by omega)⟩

/-- `InStr` gives the first position from the start on at which the second text stands in the first
one, and zero if there is none or the start lies outside the text; the method `IndexOf` gives one
less than `InStr` without a start. As long as the length of the first text is an `Integer`, so it is
by what `Mid` and `Len` say; in a text that is longer, these numbers wrap around. -/
theorem inStr_finds_first (s t : String) :
    (∀ start : Int32, ∃ p : Int,
      inStrFunction [.integer start, .text s, .text t] = .ok (ofInt p) ∧
      (NothingFrom s.toList t.toList start.toInt → p = 0) ∧
      (¬ NothingFrom s.toList t.toList start.toInt →
        IsLeast {q | start.toInt ≤ q ∧ StandsAt s.toList t.toList q} p)) ∧
    (∃ p : Int, inStrFunction [.text s, .text t] = .ok (ofInt p) ∧
      inStrFunction [.integer 1, .text s, .text t] = .ok (ofInt p) ∧
      ∀ method, Text.lower method = "indexof" →
        valueMethod (.text s) method [.text t] = .ok (ofInt (p - 1))) ∧
    (s.length ≤ maxInteger →
      (∀ start : Int32, ∃ p : Int32,
        inStrFunction [.integer start, .text s, .text t] = .ok (.integer p) ∧
        (NothingShownFrom s t start → p = 0) ∧
        (¬ NothingShownFrom s t start → IsLeast {q | start ≤ q ∧ ShownAt s t q} p)) ∧
      ∀ method, Text.lower method = "indexof" →
        valueMethod (.text s) method [.text t] =
          inStrFunction [.text s, .text t] >>= fun p => Operation.subtract p (.integer 1)) := by
  refine ⟨fun start => ⟨_, rfl, inStr_eq_zero, isLeast_inStr⟩,
    ⟨_, rfl, rfl, fun method h => valueMethod_indexOf h s t⟩, fun hs => ⟨fun start => ?_, ?_⟩⟩
  · obtain ⟨p, hp, -⟩ := exists_word_inStr hs t start
    have hfound : inStrFunction [.integer start, .text s, .text t] = .ok (.integer p) := by
      rw [← ofInt_toInt p, hp]
      rfl
    refine ⟨p, hfound, fun hnone => ?_, fun hsome => ?_⟩
    · rw [← Int32.toInt_inj, hp, inStr_eq_zero ((nothingShownFrom_iff hs).1 hnone)]
      rfl
    · obtain ⟨hlow, -⟩ := not_or.1 hsome
      have hleast := isLeast_inStr (mt (nothingShownFrom_iff hs).2 hsome)
      rw [← hp] at hleast
      refine ⟨⟨Int32.le_iff_toInt_le.2 hleast.1.1, ?_⟩, fun q ⟨hle, hq⟩ => ?_⟩
      · exact (shownAt_iff hs (by have := hleast.1.1; omega)).2 hleast.1.2
      · have hle := Int32.le_iff_toInt_le.1 hle
        exact Int32.le_iff_toInt_le.2 (hleast.2 ⟨hle, (shownAt_iff hs (by omega)).1 hq⟩)
  · intro method h
    obtain ⟨p, hp, hnonneg⟩ := exists_word_inStr hs t 1
    have hfound : inStrFunction [.text s, .text t] = .ok (.integer p) := by
      rw [← ofInt_toInt p, hp]
      rfl
    have hone : (1 : Int32).toInt = 1 := rfl
    rw [valueMethod_indexOf h, hfound, ← hone, ← hp]
    exact (subtract_one hnonneg).symm

/-- From the third position on, the second of two places is found, and its method the first. -/
theorem inStr_finds_first_accented :
    (∃ p : Int32, inStrFunction [.integer 3, .text "añañ", .text "ñ"] = .ok (.integer p) ∧
      IsLeast {q | 3 ≤ q ∧ ShownAt "añañ" "ñ" q} p) ∧
    valueMethod (.text "añañ") "IndexOf" [.text "ñ"] =
      inStrFunction [.text "añañ", .text "ñ"] >>= fun p => Operation.subtract p (.integer 1) := by
  obtain ⟨-, -, hvalues⟩ := inStr_finds_first "añañ" "ñ"
  obtain ⟨hstart, hmethod⟩ := hvalues (by decide)
  obtain ⟨p, hp, -, hleast⟩ := hstart 3
  have hshown : ShownAt "añañ" "ñ" 4 := ⟨1, 4, rfl, rfl, rfl, by decide⟩
  have hend : ¬ ∃ m : Int32, len [.text "añañ"] = .ok (.integer m) ∧
      m.toInt + 1 < (3 : Int32).toInt := by
    rw [show len [.text "añañ"] = .ok (.integer 4) from rfl]
    rintro ⟨m, hm, hlt⟩
    cases hm
    exact absurd hlt (by decide)
  refine ⟨⟨p, hp, hleast ?_⟩, hmethod "IndexOf" (by decide)⟩
  rintro (h | h | h)
  · exact absurd h (by decide)
  · exact hend h
  · exact h 4 (by decide) hshown

/-- Behind blanks a word stands in the place that comes after them. -/
theorem indexOf?_behind_blanks (n : Nat) :
    Text.indexOf? ['a', 'b'] (List.replicate n ' ' ++ ['a', 'b']) = some n := by
  induction n with
  | zero => rfl
  | succ n ih =>
    rw [List.replicate_succ, List.cons_append, Text.indexOf?, ih]
    rfl

theorem inStrFunction_behind_blanks (n : Nat) :
    inStrFunction [.integer 1, .text (String.ofList (List.replicate n ' ' ++ ['a', 'b'])),
      .text "ab"] = .ok (ofInt (n + 1)) := by
  have hfound : inStr 1 (List.replicate n ' ' ++ ['a', 'b']) ['a', 'b'] = (n : Int) + 1 := by
    have hsearch := indexOf?_behind_blanks n
    rw [inStr, if_neg (by omega), show (1 - 1 : Int).toNat = 0 from rfl, List.drop_zero, hsearch]
    exact Int.add_comm ..
  show Except.ok (ofInt (inStr 1 (String.ofList _).toList "ab".toList)) = _
  rw [String.toList_ofList, show "ab".toList = ['a', 'b'] from rfl, hfound]

/-- Behind as many blanks as there are positive `Integer`s, the position of a word wraps around. It
is neither zero nor a position from the start on. -/
theorem inStr_position_wraps :
    let s := String.ofList (List.replicate 2147483647 ' ' ++ ['a', 'b'])
    inStrFunction [.integer 1, .text s, .text "ab"] = .ok (.integer (-2147483648)) ∧
    ¬ ∃ p : Int32, inStrFunction [.integer 1, .text s, .text "ab"] = .ok (.integer p) ∧
      (NothingShownFrom s "ab" 1 → p = 0) ∧
      (¬ NothingShownFrom s "ab" 1 → IsLeast {q | 1 ≤ q ∧ ShownAt s "ab" q} p) := by
  have hfound := inStrFunction_behind_blanks 2147483647
  have hwrapped : ofInt ((2147483647 : Nat) + 1) = .integer (-2147483648) :=
    congrArg Value.integer (by decide)
  rw [hwrapped] at hfound
  intro s
  refine ⟨hfound, ?_⟩
  rintro ⟨p, hp, hzero, hleast⟩
  obtain rfl : -2147483648 = p := Value.integer.inj (Except.ok.inj (hfound.symm.trans hp))
  by_cases hnone : NothingShownFrom s "ab" 1
  · exact absurd (hzero hnone) (by decide)
  · exact absurd (hleast hnone).1.1 (by decide)

/-! ### Pieces -/

/-- The pieces of a text with the separator between them are the text, also if the separator or the
text is empty. -/
theorem joinTexts_splitText (s sep : List Char) : joinTexts (splitText s sep) sep = s := by
  unfold joinTexts splitText
  split
  · next hs => exact (List.isEmpty_iff.1 hs).symm
  · split
    · rfl
    · next hsep => exact Text.joinWith_splitOn (mt List.isEmpty_iff.2 hsep) s

/-- Pieces without the separator come back, but for a single empty one. -/
theorem splitText_joinTexts {x : Char} {parts : List (List Char)} (hparts : parts ≠ [])
    (hx : ∀ p ∈ parts, x ∉ p) :
    splitText (joinTexts parts [x]) [x] = if parts = [[]] then [] else parts := by
  have hsplit : Text.splitOn [x] (joinTexts parts [x]) = parts := Text.splitOn_joinWith hparts hx
  have hempty : (joinTexts parts [x]).isEmpty ↔ parts = [[]] := by
    rw [List.isEmpty_iff]
    constructor
    · intro h
      rw [← hsplit, h]
      rfl
    · rintro rfl
      rfl
  unfold splitText
  rw [hsplit]
  exact if_congr hempty rfl rfl

theorem join_texts (tag : Nat) (parts : List String) (sep : String) :
    join [.array tag (parts.map .text), .text sep] =
      .ok (ofChars (joinTexts (parts.map String.toList) sep.toList)) := by
  have hparts :
      (parts.map Value.text).map (fun v => v.toText.toList) = parts.map String.toList := by
    rw [List.map_map]
    rfl
  rw [← hparts]
  rfl

theorem map_ofList_toList (parts : List String) :
    (parts.map String.toList).map String.ofList = parts := by
  rw [List.map_map,
    show String.ofList ∘ String.toList = id from funext fun _ => String.ofList_toList, List.map_id]

theorem map_toList_ofList (parts : List (List Char)) :
    (parts.map String.ofList).map String.toList = parts := by
  rw [List.map_map,
    show String.toList ∘ String.ofList = id from funext fun _ => String.toList_ofList, List.map_id]

theorem map_toList_eq_iff {parts : List String} :
    parts.map String.toList = [[]] ↔ parts = [""] := by
  constructor
  · intro h
    rw [← map_ofList_toList parts, h]
    rfl
  · rintro rfl
    rfl

/-- The same for texts. -/
theorem split_joined {x : Char} {parts : List String} (hparts : parts ≠ [])
    (hx : ∀ p ∈ parts, x ∉ p.toList) :
    (splitText (joinTexts (parts.map String.toList) [x]) [x]).map String.ofList =
      if parts = [""] then [] else parts := by
  have hne : parts.map String.toList ≠ [] := mt List.map_eq_nil_iff.1 hparts
  rw [splitText_joinTexts hne (List.forall_mem_map.2 hx)]
  simp only [map_toList_eq_iff]
  split
  · rfl
  · exact map_ofList_toList parts

/-- The built-in procedure `Split`. -/
def splitProcedure : Builtin := fun args => do Interp.newTexts (← Library.split args)

/-- The built-in procedure `Join`. -/
def joinProcedure : Builtin := fun args => Interp.lift (join args)

variable {state : State}

/-- The pieces come in a new array. -/
theorem splitProcedure_text (s sep : String) :
    splitProcedure [.text s, .text sep] state =
      .ok (.array state.heap.tags (((splitText s.toList sep.toList).map String.ofList).map .text))
        { state with heap := { state.heap with tags := state.heap.tags + 1 } } := rfl

theorem joinProcedure_texts (tag : Nat) (parts : List String) (sep : String) :
    joinProcedure [.array tag (parts.map .text), .text sep] state =
      .ok (ofChars (joinTexts (parts.map String.toList) sep.toList)) state := by
  rw [joinProcedure, join_texts]
  rfl

/-- The pieces of a text with the separator between them are the text, whatever the text and the
separator are. Pieces that do not have a separator of one character come back from what they are
joined to; only a single empty piece does not, since the empty text has no pieces. -/
theorem pieces_come_back :
    builtin? "split" = some splitProcedure ∧ builtin? "join" = some joinProcedure ∧
    (∀ (s sep : String) (state : State), ∃ pieces after,
      splitProcedure [.text s, .text sep] state = .ok pieces after ∧
      joinProcedure [pieces, .text sep] after = .ok (.text s) after) ∧
    ∀ (parts : List String) (x : Char) (tag : Nat) (state : State), parts ≠ [] →
      (∀ p ∈ parts, x ∉ p.toList) → ∃ s : String,
        joinProcedure [.array tag (parts.map .text), .text (String.singleton x)] state =
          .ok (.text s) state ∧
        ∃ tag' after, splitProcedure [.text s, .text (String.singleton x)] state =
          .ok (.array tag' ((if parts = [""] then [] else parts).map .text)) after := by
  refine ⟨rfl, rfl, fun s sep state => ⟨_, _, splitProcedure_text s sep, ?_⟩,
    fun parts x tag state hparts hx => ⟨_, joinProcedure_texts _ _ _, ?_⟩⟩
  · rw [joinProcedure_texts, map_toList_ofList, joinTexts_splitText, ofChars, String.ofList_toList]
  · rw [splitProcedure_text, String.toList_ofList, String.toList_singleton, split_joined hparts hx]
    exact ⟨_, _, rfl⟩

/-- Three pieces, the second of them empty, come back from the text that joins them. -/
theorem pieces_come_back_three : ∃ s : String,
    joinProcedure [.array 0 (["a", "", "b;"].map .text), .text (String.singleton ',')] {} =
      .ok (.text s) {} ∧
    ∃ tag after, splitProcedure [.text s, .text (String.singleton ',')] {} =
      .ok (.array tag (["a", "", "b;"].map .text)) after :=
  pieces_come_back.2.2.2 ["a", "", "b;"] ',' 0 {} (by decide) (by decide)

end Library

end FormBasic
