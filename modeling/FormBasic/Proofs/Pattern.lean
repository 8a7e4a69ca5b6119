import FormBasic.Pattern
import Mathlib.Data.List.Forall2

/-!
# What patterns match

A text matches a pattern if it can be cut into pieces, one for each token: a star has any piece, and
every other token a piece of one character that it accepts. This says nothing about how the pieces
are found. The reading of a text tries them from left to right, and when it fails it only gives the
last star a longer piece.

That no match is missed has the following reason. Suppose the reading has come to a star, and an
earlier star could take in more, so that the text would match. The tokens between the two stars then
stand for as many characters as they do now, only further to the right. So what is left for the
later star and the tokens after it is a shorter end of the text, and the later star may as well take
in what lies before it.

## Main results

* `Position.run_iff` — what the reading finds out from a position
* `matchesTokens_mergeStars` — of neighbouring stars one is enough
* `matchesText_iff_splits` — a text matches a pattern exactly if it can be cut into pieces
-/

namespace FormBasic.Pattern

/-! ### Pieces -/

/-- Whether a piece of a text is one that a token stands for. -/
def Token.StandsFor (t : Token) (piece : List Char) : Prop :=
  t = .star ∨ ∃ c, piece = [c] ∧ t.accepts c = true

/-- A text can be cut into pieces for which tokens stand, one after the other. -/
def Splits (ts : List Token) (text : List Char) : Prop :=
  ∃ pieces, List.Forall₂ Token.StandsFor ts pieces ∧ pieces.flatten = text

theorem splits_nil {text : List Char} : Splits [] text ↔ text = [] := by
  constructor
  · rintro ⟨pieces, hpieces, rfl⟩
    cases hpieces
    rfl
  · rintro rfl
    exact ⟨[], .nil, rfl⟩

theorem splits_cons {t : Token} {ts : List Token} {text : List Char} :
    Splits (t :: ts) text ↔ ∃ piece rest, t.StandsFor piece ∧ Splits ts rest ∧
      text = piece ++ rest := by
  constructor
  · rintro ⟨pieces, hpieces, rfl⟩
    obtain ⟨piece, rest, ht, hts, rfl⟩ := List.forall₂_cons_left_iff.1 hpieces
    exact ⟨piece, rest.flatten, ht, ⟨rest, hts, rfl⟩, rfl⟩
  · rintro ⟨piece, rest, ht, ⟨pieces, hpieces, rfl⟩, rfl⟩
    exact ⟨piece :: pieces, .cons ht hpieces, rfl⟩

/-- A star stands for any beginning of the text. -/
theorem splits_star {ts : List Token} {text : List Char} :
    Splits (.star :: ts) text ↔ ∃ rest, rest <:+ text ∧ Splits ts rest := by
  rw [splits_cons]
  constructor
  · rintro ⟨piece, rest, -, hrest, rfl⟩
    exact ⟨rest, List.suffix_append _ _, hrest⟩
  · rintro ⟨rest, ⟨piece, rfl⟩, hrest⟩
    exact ⟨piece, rest, .inl rfl, hrest, rfl⟩

/-- Any other token stands for one character. -/
theorem splits_single {t : Token} (ht : t ≠ .star) {ts : List Token} {text : List Char} :
    Splits (t :: ts) text ↔ ∃ c rest, text = c :: rest ∧ t.accepts c = true ∧ Splits ts rest := by
  rw [splits_cons]
  constructor
  · rintro ⟨piece, rest, hstar | ⟨c, rfl, hc⟩, hrest, rfl⟩
    · exact absurd hstar ht
    · exact ⟨c, rest, rfl, hc, hrest⟩
  · rintro ⟨c, rest, rfl, hc, hrest⟩
    exact ⟨[c], rest, .inr ⟨c, rfl, hc⟩, hrest, rfl⟩

/-- Only stars stand for nothing. -/
theorem splits_empty {ts : List Token} : Splits ts [] ↔ ts.all (· == .star) = true := by
  induction ts with
  | nil => exact ⟨fun _ => rfl, fun _ => splits_nil.2 rfl⟩
  | cons t ts ih =>
    by_cases ht : t = .star
    · subst ht
      rw [splits_star]
      simp [ih]
    · rw [splits_single ht]
      simp [ht]

/-- The text is at least as long as the tokens before a certain point, if there is no star among
them, and the tokens after that point stand for what lies as many characters further on. -/
theorem splits_drop {us ts : List Token} (hus : .star ∉ us) {text : List Char}
    (h : Splits (us ++ ts) text) : us.length ≤ text.length ∧ Splits ts (text.drop us.length) := by
  induction us generalizing text with
  | nil => exact ⟨Nat.zero_le _, h⟩
  | cons u us ih =>
    obtain ⟨hu, hus⟩ := not_or.1 (List.mem_cons.not.1 hus)
    obtain ⟨c, rest, rfl, -, hrest⟩ := (splits_single (Ne.symm hu)).1 h
    obtain ⟨hle, hdrop⟩ := ih hus hrest
    exact ⟨Nat.succ_le_succ hle, hdrop⟩

/-! ### Neighbouring stars -/

theorem splits_star_star {ts : List Token} {text : List Char} :
    Splits (.star :: .star :: ts) text ↔ Splits (.star :: ts) text := by
  rw [splits_star]
  constructor
  · rintro ⟨rest, hrest, h⟩
    obtain ⟨rest', hrest', h⟩ := splits_star.1 h
    exact splits_star.2 ⟨rest', hrest'.trans hrest, h⟩
  · exact fun h => ⟨text, List.suffix_rfl, h⟩

theorem splits_cons_congr {ts ts' : List Token} (h : ∀ text, Splits ts text ↔ Splits ts' text)
    (t : Token) (text : List Char) : Splits (t :: ts) text ↔ Splits (t :: ts') text := by
  simp only [splits_cons, h]

/-- Of neighbouring stars one is enough. -/
theorem splits_mergeStars (ts : List Token) (text : List Char) :
    Splits (mergeStars ts) text ↔ Splits ts text := by
  induction ts using mergeStars.induct generalizing text with
  | case1 ts ih => rw [mergeStars, ih, splits_star_star]
  | case2 t ts h ih =>
    rw [mergeStars]
    · exact splits_cons_congr ih t text
    · exact h
  | case3 => rfl

/-! ### The reading of a text -/

namespace Position

/-- The tokens and characters that have been read since the last star: as many of each, and no star
among the tokens. -/
def ReadsOn (p : Position) : Prop :=
  ∀ ts text, p.star = some (ts, text) → ∃ us cs, ts = us ++ p.tokens ∧ text = cs ++ p.text ∧
    us.length = cs.length ∧ .star ∉ us

/-- The text would match if the last star took in more characters. -/
def MatchesLater (p : Position) : Prop :=
  ∃ ts text rest, p.star = some (ts, text) ∧ rest <:+ text ∧ rest.length < text.length ∧
    Splits ts rest

/-- There is a match from a position, or one for which the last star takes in more. -/
def Matches (p : Position) : Prop := Splits p.tokens p.text ∨ p.MatchesLater

theorem readsOn_of_no_star (ts : List Token) (text : List Char) : ReadsOn ⟨ts, text, none⟩ :=
  fun _ _ h => nomatch h

/-- Nothing has been read since a star that is just being taken up. -/
theorem readsOn_star (ts : List Token) (text : List Char) :
    ReadsOn ⟨ts, text, some (ts, text)⟩ := by
  intro _ _ h
  cases h
  exact ⟨[], [], rfl, rfl, rfl, List.not_mem_nil⟩

theorem ReadsOn.cons {t : Token} {ts : List Token} {c : Char} {cs : List Char}
    {star : Option (List Token × List Char)} (hp : ReadsOn ⟨t :: ts, c :: cs, star⟩)
    (ht : t ≠ .star) : ReadsOn ⟨ts, cs, star⟩ := by
  intro _ _ hstar
  obtain ⟨us, ds, rfl, rfl, hlength, hus⟩ := hp _ _ hstar
  refine ⟨us ++ [t], ds ++ [c], by simp, by simp, by simp [hlength], ?_⟩
  simpa [hus] using Ne.symm ht

/-- With one character more, the last star may stand for anything from there on. -/
theorem matchesLater_cons {p : Position} {ts : List Token} {c : Char} {cs : List Char}
    (hstar : p.star = some (ts, c :: cs)) : p.MatchesLater ↔ Splits (.star :: ts) cs := by
  rw [splits_star]
  constructor
  · rintro ⟨_, _, rest, hstar', hsuffix, hlt, hsplits⟩
    cases hstar.symm.trans hstar'
    obtain rfl | hsuffix := List.suffix_cons_iff.1 hsuffix
    · exact absurd hlt (Nat.lt_irrefl _)
    · exact ⟨rest, hsuffix, hsplits⟩
  · rintro ⟨rest, hsuffix, hsplits⟩
    exact ⟨ts, _, rest, hstar, hsuffix.trans (List.suffix_cons _ _),
      Nat.lt_succ_of_le hsuffix.length_le, hsplits⟩

/-- A star that is just being taken up may stand for anything from here on. -/
theorem matches_star (ts : List Token) (text : List Char) :
    Matches ⟨ts, text, some (ts, text)⟩ ↔ Splits (.star :: ts) text := by
  rw [splits_star]
  constructor
  · rintro (hsplits | ⟨_, _, rest, hstar, hsuffix, -, hsplits⟩)
    · exact ⟨text, List.suffix_rfl, hsplits⟩
    · cases hstar
      exact ⟨rest, hsuffix, hsplits⟩
  · rintro ⟨rest, hsuffix, hsplits⟩
    obtain heq | hlt := Nat.eq_or_lt_of_le hsuffix.length_le
    · exact .inl (hsuffix.eq_of_length heq ▸ hsplits)
    · exact .inr ⟨ts, text, rest, rfl, hsuffix, hlt, hsplits⟩

/-- If the last star could take in more where the next star is read, then so may the next one. -/
theorem ReadsOn.splits_of_matchesLater {p : Position} (hp : p.ReadsOn) (h : p.MatchesLater)
    {ts : List Token} (hts : p.tokens = .star :: ts) : Splits p.tokens p.text := by
  obtain ⟨ts₀, text₀, rest, hstar, hsuffix, -, hsplits⟩ := h
  obtain ⟨us, cs, rfl, rfl, hlength, hus⟩ := hp _ _ hstar
  obtain ⟨-, hdrop⟩ := splits_drop hus hsplits
  rw [hts] at hdrop ⊢
  obtain ⟨later, hlater, hsplits⟩ := splits_star.1 hdrop
  -- what is left later is an end of the same text, and no longer than what is left now
  have hle : later.length ≤ p.text.length := by
    have h₁ := hlater.length_le
    have h₂ := hsuffix.length_le
    simp only [List.length_drop, List.length_append] at h₁ h₂
    omega
  exact splits_star.2 ⟨later, List.suffix_of_suffix_length_le
    ((hlater.trans (List.drop_suffix _ _)).trans hsuffix) (List.suffix_append _ _) hle, hsplits⟩

/-- At the end of the text nothing is left to take in. -/
theorem ReadsOn.not_matchesLater {p : Position} (hp : p.ReadsOn) (htext : p.text = []) :
    ¬ p.MatchesLater := by
  rintro ⟨ts₀, text₀, rest, hstar, -, hlt, hsplits⟩
  obtain ⟨us, cs, rfl, rfl, hlength, hus⟩ := hp _ _ hstar
  have hle := (splits_drop hus hsplits).1
  rw [htext, List.append_nil] at hlt
  omega

/-- What is known of a position once the reading goes on with another one, or is over. -/
def Settles (p : Position) : Option Position → Prop
  | some q => q.ReadsOn ∧ (p.Matches ↔ q.Matches)
  | none => p.isMatch = true ↔ p.Matches

/-- Where there is no match, all depends on the last star. -/
theorem settles_rewind? {p : Position} (hnot : ¬ Splits p.tokens p.text) (htext : p.text ≠ []) :
    p.Settles (rewind? p.star) := by
  have hlater : p.Matches ↔ p.MatchesLater := or_iff_right hnot
  have hover (h : ¬ p.MatchesLater) : p.Settles none :=
    iff_of_false (by simp [isMatch, htext]) (hlater.not.2 h)
  cases hstar : p.star with
  | none =>
    refine hover ?_
    rintro ⟨ts, text, rest, hstar', -⟩
    cases hstar.symm.trans hstar'
  | some last =>
    obtain ⟨ts, text⟩ := last
    cases text with
    | nil =>
      refine hover ?_
      rintro ⟨_, _, rest, hstar', -, hlt, -⟩
      cases hstar.symm.trans hstar'
      exact absurd hlt (Nat.not_lt_zero _)
    | cons c cs =>
      refine ⟨readsOn_star ts cs, ?_⟩
      rw [hlater, matchesLater_cons hstar]
      exact (matches_star ts cs).symm

/-- A step keeps the answer, and the last position tells it. -/
theorem settles_next? {p : Position} (hp : p.ReadsOn) : p.Settles p.next? := by
  obtain ⟨ts, text, star⟩ := p
  cases text with
  | nil => exact splits_empty.symm.trans (or_iff_left (hp.not_matchesLater rfl)).symm
  | cons c cs =>
    cases ts with
    | nil => exact settles_rewind? (p := ⟨[], c :: cs, star⟩) (by simp [splits_nil]) (by simp)
    | cons t ts =>
      simp only [next?]
      split
      next ht =>
        obtain rfl := eq_of_beq ht
        refine ⟨readsOn_star ts _, ?_⟩
        rw [matches_star]
        exact or_iff_left_of_imp fun h => hp.splits_of_matchesLater h rfl
      next ht =>
        have ht : t ≠ .star := by simpa using ht
        have hsplits : Splits (t :: ts) (c :: cs) ↔ t.accepts c = true ∧ Splits ts cs := by
          rw [splits_single ht]
          constructor
          · rintro ⟨_, _, heq, hc, hcs⟩
            cases heq
            exact ⟨hc, hcs⟩
          · exact fun h => ⟨c, cs, rfl, h⟩
        split
        next hc => exact ⟨hp.cons ht, or_congr (hsplits.trans (and_iff_right hc)) Iff.rfl⟩
        next hc =>
          exact settles_rewind? (p := ⟨t :: ts, c :: cs, star⟩) (fun h => hc (hsplits.1 h).1)
            (by simp)

/-- The reading from a position ends with a match exactly if there is one from there, or one for
which the last star takes in more. -/
theorem run_iff {p : Position} (hp : p.ReadsOn) : p.run = true ↔ p.Matches := by
  have hstep := settles_next? hp
  rw [run]
  split
  next q hq =>
    rw [hq] at hstep
    exact (run_iff hstep.1).trans hstep.2.symm
  next hq =>
    rw [hq] at hstep
    exact hstep
termination_by (p.reach, p.tokens.length)
decreasing_by exact lt_of_next? ‹_›

/-- No reading goes on for ever. -/
theorem wellFounded_next? : WellFounded fun q p : Position => p.next? = some q :=
  Subrelation.wf lt_of_next?
    (InvImage.wf (fun p : Position => (p.reach, p.tokens.length)) (Prod.lex ..).wf)

end Position

/-! ### Matches -/

theorem matchesTokens_iff_splits (ts : List Token) (cs : List Char) :
    matchesTokens ts cs = true ↔ Splits ts cs := by
  rw [matchesTokens, Position.run_iff (Position.readsOn_of_no_star ts cs)]
  refine or_iff_left ?_
  rintro ⟨_, _, _, hstar, -⟩
  cases hstar

/-- Of neighbouring stars in a pattern one is enough. -/
theorem matchesTokens_mergeStars (ts : List Token) (cs : List Char) :
    matchesTokens (mergeStars ts) cs = matchesTokens ts cs := by
  rw [Bool.eq_iff_iff, matchesTokens_iff_splits, matchesTokens_iff_splits]
  exact splits_mergeStars ts cs

/-- The reading of a text comes to an end, with a match exactly if the text can be cut into pieces
for which the tokens of the pattern stand; and neighbouring stars match the same texts as one. -/
theorem matchesText_iff_splits :
    (WellFounded fun q p : Position => p.next? = some q) ∧
      (∀ text pattern : String,
        matchesText text pattern = true ↔ Splits (compile pattern) text.toList) ∧
      ∀ (ts : List Token) (cs : List Char),
        matchesTokens (mergeStars ts) cs = matchesTokens ts cs :=
  ⟨Position.wellFounded_next?, fun _ _ => matchesTokens_iff_splits _ _, matchesTokens_mergeStars⟩

example : matchesText "aXbXc" "*x?" = true := by cbv

end FormBasic.Pattern
