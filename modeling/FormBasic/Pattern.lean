import FormBasic.Text.Case

/-!
# Text patterns

The patterns of the `Like` operator: `*` stands for any run of characters, `?` for any one
character, `#` for one digit, `[a-z]` and `[!a-z]` for a character in or out of a class; any other
character stands for itself up to case. A bracket that is never closed stands for itself.

A pattern is compiled to a list of tokens, and a text is read from its start. A star first stands
for no characters at all. Where the text stops matching, the last star takes in one character more,
and the tokens after it are tried again from there; the stars before the last one are never taken up
again. So the work grows with the product of the two lengths at most.
-/

namespace FormBasic.Pattern

/-- One token of a pattern. -/
inductive Token where
  | literal (c : Char)
  | any
  | digit
  /-- A class of inclusive ranges, or what lies outside them. -/
  | oneOf (negated : Bool) (ranges : List (Char × Char))
  /-- Any run of characters. -/
  | star
deriving DecidableEq

/-- Whether a token that stands for one character matches it. -/
def Token.accepts (c : Char) : Token → Bool
  | .literal l => Text.lowerChar c == Text.lowerChar l
  | .any => true
  | .digit => '0' ≤ c && c ≤ '9'
  | .oneOf negated ranges => (ranges.any fun r => r.1 ≤ c && c ≤ r.2) != negated
  | .star => false

/-- The ranges between the brackets of a class. -/
def classRanges : List Char → List (Char × Char)
  | a :: '-' :: b :: cs => (a, b) :: classRanges cs
  | a :: cs => (a, a) :: classRanges cs
  | [] => []

/-- The class between two brackets. -/
def classToken : List Char → Token
  | '!' :: cs => .oneOf true (classRanges cs)
  | cs => .oneOf false (classRanges cs)

/-- The number of characters before the first closing bracket. -/
def closing? : List Char → Option Nat
  | [] => none
  | c :: cs => if c == ']' then some 0 else (closing? cs).map (· + 1)

/-- The tokens of a pattern, the first `skip` characters left out. -/
def tokensFrom : (skip : Nat) → List Char → List Token
  | _, [] => []
  | k + 1, _ :: cs => tokensFrom k cs
  | 0, c :: cs =>
    if c == '*' then .star :: tokensFrom 0 cs
    else if c == '?' then .any :: tokensFrom 0 cs
    else if c == '#' then .digit :: tokensFrom 0 cs
    else if c == '[' then
      match closing? cs with
      | some n => classToken (cs.take n) :: tokensFrom (n + 1) cs
      | none => .literal c :: tokensFrom 0 cs
    else .literal c :: tokensFrom 0 cs

/-- Of neighbouring stars one is enough. -/
def mergeStars : List Token → List Token
  | .star :: .star :: ts => mergeStars (.star :: ts)
  | t :: ts => t :: mergeStars ts
  | [] => []

/-- The tokens of a pattern. -/
def compile (pattern : String) : List Token := mergeStars (tokensFrom 0 pattern.toList)

/-- Where the reading of a text stands. -/
structure Position where
  /-- The tokens that are left. -/
  tokens : List Token
  /-- The characters that are left. -/
  text : List Char
  /-- The tokens after the last star, and the characters after those that it stands for. -/
  star : Option (List Token × List Char) := none

namespace Position

/-- Let the last star take in one character more. -/
def rewind? (star : Option (List Token × List Char)) : Option Position := do
  let (tokens, text) ← star
  let text ← text.tail?
  return ⟨tokens, text, some (tokens, text)⟩

/-- One step of the reading, unless it is over. -/
def next? : Position → Option Position
  | ⟨_, [], _⟩ => none
  | ⟨[], _ :: _, star⟩ => rewind? star
  | ⟨t :: ts, c :: cs, star⟩ =>
    if t == .star then some ⟨ts, c :: cs, some (ts, c :: cs)⟩
    else if t.accepts c then some ⟨ts, cs, star⟩
    else rewind? star

/-- The number of characters that are left once the last star is taken up again, or now. -/
def reach (p : Position) : Nat :=
  max p.text.length (p.star.elim 0 fun last => last.2.length)

theorem reach_of_rewind? {star : Option (List Token × List Char)} {q : Position}
    (h : rewind? star = some q) : q.reach < star.elim 0 fun last => last.2.length := by
  obtain ⟨⟨tokens, text⟩, rfl, h⟩ := Option.bind_eq_some_iff.1 h
  obtain ⟨rest, htail, h⟩ := Option.bind_eq_some_iff.1 h
  cases h
  cases text with
  | nil => cases htail
  | cons c cs =>
    cases htail
    simp [reach]

/-- A step that does not shorten the reach of the reading uses up a token. -/
theorem lt_of_next? {p q : Position} (h : p.next? = some q) :
    Prod.Lex (· < ·) (· < ·) (q.reach, q.tokens.length) (p.reach, p.tokens.length) := by
  obtain ⟨ts, cs, star⟩ := p
  have hrewind : rewind? star = some q → q.reach < (⟨ts, cs, star⟩ : Position).reach := fun h =>
    Nat.lt_of_lt_of_le (reach_of_rewind? h) (Nat.le_max_right _ _)
  cases cs with
  | nil => cases h
  | cons c cs =>
    cases ts with
    | nil => exact .left _ _ (hrewind h)
    | cons t ts =>
      simp only [next?] at h
      split at h
      · cases h
        rw [Prod.lex_def]
        simp only [reach, Option.elim_some, List.length_cons]
        omega
      · split at h
        · cases h
          rw [Prod.lex_def]
          simp only [reach, List.length_cons]
          omega
        · exact .left _ _ (hrewind h)

/-- Whether the reading has come to the end of the text, with nothing but stars left. -/
def isMatch (p : Position) : Bool := p.text.isEmpty && p.tokens.all (· == .star)

/-- Whether the reading that goes on from a position ends with a match. -/
def run (p : Position) : Bool :=
  match _ : p.next? with
  | some q => run q
  | none => p.isMatch
termination_by (p.reach, p.tokens.length)
decreasing_by exact lt_of_next? ‹_›

end Position

/-- Whether tokens match a text. -/
def matchesTokens (ts : List Token) (cs : List Char) : Bool := Position.run ⟨ts, cs, none⟩

/-- Whether a text matches a pattern. -/
def matchesText (text pattern : String) : Bool := matchesTokens (compile pattern) text.toList

end FormBasic.Pattern
