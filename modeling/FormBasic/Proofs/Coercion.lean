import FormBasic.Library.Function
import FormBasic.Proofs.Decimal.Reading

/-!
# Conversion to declared types

A declared type gives a variable, a parameter and the result of a function their variant: the
conversion to the type ends with a value of the variant that the type starts with, and it leaves
such a value alone.

The conversion to `Long` is made through a double, whatever it starts from. A text that spells a
word is read exactly before that, so that the double is the only place where something is lost: a
word that no double stands for does not come back from its own text.

## Main definitions

* `TypeKind.Holds` — the values of the variant of a type
* `Value.throughDouble` — what becomes of a word on its way through a double

## Main results

* `TypeKind.holds_of_coerce`, `TypeKind.coerce_of_holds` — what a conversion ends with, and what it
  leaves alone
* `Value.coerce_text_long` — a word from its own text
* `Value.throughDouble_eq_self_iff` — which words come back
-/

namespace FormBasic

/-! ### Variants -/

namespace TypeKind

variable {kind : TypeKind} {v w : Value}

/-- The names of the types that convert values, in lower case. -/
def names : List String :=
  ["integer", "short", "byte", "long", "single", "double", "decimal", "currency", "string",
    "boolean", "date"]

theorem ofName_ne_other {name : String} (h : Text.lower name ∈ names) : ofName name ≠ other := by
  unfold ofName
  split
  case h_12 => simp_all [names]
  all_goals exact TypeKind.noConfusion

/-- The values of the variant that a type starts with. -/
def Holds (kind : TypeKind) (v : Value) : Prop := v.typeName = kind.default.typeName

theorem holds_default (kind : TypeKind) : kind.Holds kind.default := rfl

theorem holds_of_bind {α : Type} {x : Fallible α} {k : α → Fallible Value}
    (hk : ∀ a w, k a = .ok w → kind.Holds w) (h : (x >>= k) = .ok w) : kind.Holds w := by
  cases x with
  | error c => cases h
  | ok a => exact hk a w h

theorem holds_of_map {α : Type} {x : Fallible α} {f : α → Value} (hf : ∀ a, kind.Holds (f a))
    (h : f <$> x = .ok w) : kind.Holds w := by
  cases x with
  | error c => cases h
  | ok a =>
    cases h
    exact hf a

/-- A conversion ends with a value of the variant of the type. -/
theorem holds_of_coerceProper (hkind : kind ≠ other) (h : v.coerceProper kind = .ok w) :
    kind.Holds w := by
  cases kind with
  | integer =>
    simp only [Value.coerceProper] at h
    split at h
    · cases h
      rfl
    · refine holds_of_bind (fun d w hw => ?_) h
      split at hw <;> cases hw
      rfl
  | long =>
    simp only [Value.coerceProper] at h
    split at h
    · cases h
      rfl
    · refine holds_of_bind (fun d w hw => ?_) h
      split at hw <;> cases hw
      rfl
  | text =>
    cases h
    rfl
  | other => exact absurd rfl hkind
  | _ =>
    refine holds_of_map (fun _ => ?_) h
    rfl

theorem holds_of_coerce (hkind : kind ≠ other) (h : v.coerce kind = .ok w) : kind.Holds w := by
  unfold Value.coerce at h
  split at h
  · cases h
    exact holds_default kind
  · exact holds_of_coerceProper hkind h

/-- A value of the variant of a type is not changed by the conversion. For a `Single`, which is
taken through a double, this is so because a double has room for it. -/
theorem coerce_of_holds (hkind : kind ≠ other) (h : kind.Holds v) : v.coerce kind = .ok v := by
  unfold Holds at h
  cases kind with
  | other => exact absurd rfl hkind
  | single =>
    cases v with
    | single x => exact congrArg (fun y => Except.ok (Value.single y)) (Decimal.narrow_widen x)
    | _ => simp [Value.typeName, default] at h
  | _ => cases v <;> first | (simp [Value.typeName, default] at h; done) | rfl

end TypeKind

/-! ### The text of a word -/

namespace Text

theorem trimChars_eq_self {p : Char → Bool} {cs : List Char} (h : ∀ c ∈ cs, p c = false) :
    trimChars p cs = cs := by
  have hkeep : ∀ ds : List Char, (∀ c ∈ ds, p c = false) → ds.dropWhile p = ds := by
    intro ds hds
    cases ds with
    | nil => rfl
    | cons d ds => rw [List.dropWhile_cons_of_neg (by simp [hds d List.mem_cons_self])]
  rw [trimChars, hkeep cs h, dropEndWhile, hkeep _ (fun c hc => h c (List.mem_reverse.1 hc)),
    List.reverse_reverse]

end Text

namespace Decimal

theorem isBlank_of_isDigit {c : Char} (h : isDigit c = true) : Text.isBlank c = false := by
  simp only [isDigit, Bool.and_eq_true, decide_eq_true_eq] at h
  simp only [Text.isBlank, Bool.or_eq_false_iff, Bool.and_eq_false_iff, decide_eq_false_iff_not,
    beq_eq_false_iff_ne]
  omega

theorem trimChars_intText (n : Int) :
    Text.trimChars Text.isBlank (intText n).toList = (intText n).toList := by
  refine Text.trimChars_eq_self fun c hc => ?_
  rcases isDigit_or_eq_of_mem_intText hc with h | rfl
  · exact isBlank_of_isDigit h
  · decide

end Decimal

namespace Value

open Decimal

/-- The text of a whole number is read exactly. -/
theorem readWhole?_intText {bits : Nat} {n : Int} (h : minSigned bits ≤ n ∧ n ≤ maxSigned bits) :
    readWhole? bits (intText n) = some n := by
  unfold readWhole?
  simp only [trimChars_intText]
  split
  · next c rest heq =>
    have hc : '&' ∈ (intText n).toList := heq ▸ List.mem_cons_self
    exact absurd hc (not_mem_intText rfl (by decide) n)
  · rw [readInt?_intText, if_pos h]

/-- What becomes of a word on its way through a double: the nearest number that a double stands for,
if that is a word. -/
def throughDouble (n : Int64) : Fallible Value :=
  if nearestInt n.toInt ≤ maxSigned 64 then .ok (.long (Int64.ofInt (nearestInt n.toInt)))
  else .error .overflow

/-- The bounds of a word, as the doubles that the conversion compares with. -/
theorem value?_wordBound : Decimal.value? 9223372036854775808 = some ((2 ^ 63 : Int) : ℚ) := by
  have hpow : BinaryFormat.double.nearestWhole (2 ^ 63) = 2 ^ 63 :=
    BinaryFormat.nearestWhole_two_pow _ 63
  have hvalue := value?_ofNat (n := 2 ^ 63)
    (by rw [hpow]; exact BinaryFormat.lt_limit (Nat.le_refl _) (by decide))
  rw [hpow] at hvalue
  exact_mod_cast hvalue

theorem value?_neg_wordBound :
    Decimal.value? (-9223372036854775808) = some ((-2 ^ 63 : Int) : ℚ) := by
  refine (value?_neg _).trans ?_
  rw [value?_wordBound, Option.map_some, ← Int.cast_neg]

/-- The text of a word is converted to `Long` through a double. -/
theorem coerce_text_long (n : Int64) :
    (Value.text (Value.long n).toText).coerce .long = throughDouble n := by
  have hvalue : Decimal.value? (Float.ofInt n.toInt) = some (nearestInt n.toInt : ℚ) :=
    value?_ofInt_of_natAbs_le (natAbs_toInt_le n) (by decide)
  have hbounds : (nearestInt n.toInt).natAbs ≤ 2 ^ 63 := natAbs_nearestInt_le (natAbs_toInt_le n)
  have hmin : minSigned 64 = -2 ^ 63 := by decide
  have hmax : maxSigned 64 = 2 ^ 63 - 1 := by decide
  have hrounded : rounded (.text (Value.long n).toText) = .ok (Float.ofInt n.toInt) := by
    simp only [rounded, toText, readWhole?_intText (toInt_mem_word n)]
  have hlow : ¬ Float.ofInt n.toInt < -9223372036854775808 := by
    rw [lt_iff_of_value hvalue value?_neg_wordBound, Int.cast_lt]
    omega
  have hhigh : Float.ofInt n.toInt ≥ 9223372036854775808 ↔ ¬ nearestInt n.toInt ≤ maxSigned 64 := by
    rw [ge_iff_le, le_iff_of_value value?_wordBound hvalue, Int.cast_le]
    omega
  have hword : nearestInt n.toInt ≤ maxSigned 64 →
      wordOfRounded 64 (Float.ofInt n.toInt) = nearestInt n.toInt := by
    intro hfits
    rw [wordOfRounded, isNaN_of_value hvalue, if_neg Bool.false_ne_true,
      wordOfFloat_of_value hvalue, if_pos (by omega)]
  have hconvert : (Value.text (Value.long n).toText).coerce .long =
      if Float.ofInt n.toInt < -9223372036854775808 ∨ Float.ofInt n.toInt ≥ 9223372036854775808 then
        .error .overflow
      else .ok (.long (Int64.ofInt (wordOfRounded 64 (Float.ofInt n.toInt)))) := by
    simp only [coerce, isNothing, Bool.false_eq_true, if_false, coerceProper, hrounded,
      bind, Except.bind, Bool.or_eq_true, decide_eq_true_eq]
    rfl
  rw [hconvert, throughDouble]
  by_cases hfits : nearestInt n.toInt ≤ maxSigned 64
  · rw [if_neg (not_or.2 ⟨hlow, fun h => hhigh.1 h hfits⟩), if_pos hfits, hword hfits]
  · rw [if_pos (.inr (hhigh.2 hfits)), if_neg hfits]

/-- A word comes through a double as it was exactly if it has nothing below the last place that a
double has for it. -/
theorem throughDouble_eq_self_iff (n : Int64) :
    throughDouble n = .ok (.long n) ↔ 2 ^ (Nat.log2 n.toInt.natAbs - 52) ∣ n.toInt.natAbs := by
  have hmin : minSigned 64 = -2 ^ 63 := by decide
  have hbounds : (nearestInt n.toInt).natAbs ≤ 2 ^ 63 := natAbs_nearestInt_le (natAbs_toInt_le n)
  have hsame : throughDouble n = .ok (.long n) ↔ nearestInt n.toInt = n.toInt := by
    unfold throughDouble
    constructor
    · intro h
      split at h
      · next hfits =>
        have hword : Int64.ofInt (nearestInt n.toInt) = n := Value.long.inj (Except.ok.inj h)
        rw [← toInt_ofInt_of_fits (by omega) hfits, hword]
      · cases h
    · intro h
      rw [if_pos (h.le.trans (toInt_mem_word n).2), h, Int64.ofInt_toInt]
  rw [hsame, nearestInt_eq_self_iff, BinaryFormat.nearestWhole_eq_self_iff]
  rfl

end Value

/-! ### The two library functions -/

namespace Library

theorem convert_string_long (n : Int64) :
    convert "String" [.long n] = .ok (.text (Value.long n).toText) := by
  have hkind : TypeKind.ofName "String" = .text := by decide
  simp only [convert, hkind]
  rfl

theorem convert_long_text (n : Int64) :
    convert "Long" [.text (Value.long n).toText] = Value.throughDouble n := by
  have hkind : TypeKind.ofName "Long" = .long := by decide
  have htrim : (Text.trim (Value.long n).toText == "") = false := by
    rw [Value.toText, Text.trim, Decimal.trimChars_intText, String.ofList_toList]
    exact beq_eq_false_iff_ne.2 (Decimal.intText_ne_empty n.toInt)
  rw [← Value.coerce_text_long]
  simp only [convert, hkind, argAt, List.getD_cons_zero, htrim, Bool.and_false,
    Bool.false_eq_true, if_false]
  rfl

end Library

end FormBasic
