import FormBasic.Text.CaseTable

/-!
# Letter case

Case is mapped character by character, so a text keeps its length in either case. Names are looked
up by their lower case form; texts are compared through `foldChar`, which names the case class of a
character and so also joins letters with more than two forms (`σ`, `ς` and `Σ`).
-/

namespace FormBasic.Text

/-- Lower case of one character. -/
def lowerChar (c : Char) : Char :=
  if c.toNat < 128 then c.toLower else mapByRuns lowerTable c

/-- Upper case of one character. -/
def upperChar (c : Char) : Char :=
  if c.toNat < 128 then c.toUpper else mapByRuns upperTable c

/-- The representative of the case class of a character. -/
def foldChar (c : Char) : Char :=
  if c.toNat < 128 then c.toLower
  else match foldTable.lookup c.toNat with
    | some n => Char.ofNat n
    | none => mapByRuns lowerTable c

/-- Lower case, character by character. -/
def lower (s : String) : String := String.ofList (s.toList.map lowerChar)

/-- Upper case, character by character. -/
def upper (s : String) : String := String.ofList (s.toList.map upperChar)

/-- The case class of a text: two texts are equal up to case when their classes are equal. -/
def fold (s : String) : List Char := s.toList.map foldChar

/-- Equality up to case. -/
def equalFold (s t : String) : Bool := fold s == fold t

@[simp] theorem equalFold_iff (s t : String) : equalFold s t = true ↔ fold s = fold t := by
  simp [equalFold]

theorem equalFold_comm (s t : String) : equalFold s t = equalFold t s :=
  Bool.eq_iff_iff.2 <| by rw [equalFold_iff, equalFold_iff, eq_comm]

@[simp] theorem equalFold_refl (s : String) : equalFold s s = true :=
  (equalFold_iff s s).2 rfl

end FormBasic.Text
