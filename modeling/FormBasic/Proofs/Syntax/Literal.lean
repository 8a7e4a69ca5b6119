import FormBasic.Proofs.Tree.Number
import FormBasic.Syntax.Decoder

/-!
# Whole numbers in programs

The value of a whole-number literal is decoded into a word. Only a number of JSON that is spelled
with digits alone, and that is a word, is taken as it is. Every other spelling, and every number of
YAML, is taken through a double, and the double is cut to a word without a look at its size: what no
double stands for comes out as its neighbour, and what is no word as the least word.

## Main definitions

* `Decode.wordThroughDouble` — what becomes of a whole number on its way through a double
* `Decode.IsLiteral` — the node of a literal

## Main results

* `Decode.integer_numeral`, `Decode.integer_resolve` — the two formats
* `Decode.toInt_wordThroughDouble_eq_iff` — what is exact
* `Decode.whole_literal` — literals
-/

namespace FormBasic.Decode

open Decimal BinaryFormat

/-! ### Doubles -/

/-- A whole number that a double stands for has no fraction. -/
theorem isWhole_of_value {x : Float} {n : Int} (h : value? x = some (n : ℚ)) :
    isWhole x = true := by
  obtain ⟨negative, m, e, hd, -, hunits, -⟩ := exists_decode_of_whole h
  simp only [isWhole, hd, Bool.or_eq_true, decide_eq_true_eq, beq_iff_eq]
  rcases Int.le_total 0 e with he | he
  · exact .inl he
  · rw [Int.toNat_of_nonpos he, Nat.pow_zero, Nat.mul_one] at hunits
    exact .inr (hunits ▸ Nat.mul_mod_left _ _)

/-- A whole number as a double stands for the nearest one. -/
theorem value?_floatOfInt {n : Int} (h : double.nearestWhole n.natAbs < double.limit) :
    value? (floatOfInt n) = some (nearestInt n : ℚ) := by
  obtain ⟨m, e, hcanonical, hfits, hvalue, hnearest⟩ := exists_nearest_whole h
  have hmagnitude : value? (doubleOfBits (double.pattern m e)) =
      some (double.nearestWhole n.natAbs : ℚ) := by
    have hbits : double.pattern m e < twoTo 64 :=
      (hfits.trans (infinityBits_lt double)).trans (by decide)
    rw [value?, decodeDouble_doubleOfBits hbits, ← hvalue]
    exact congrArg Binary.value? (decode_pattern false hcanonical hfits)
  rw [floatOfInt, hnearest, Option.getD_some, nearestInt]
  split
  · rw [value?_neg, hmagnitude]
    simp
  · rw [hmagnitude]
    rfl

/-! ### Words -/

/-- Whether a whole number is a word. -/
def FitsWord (n : Int) : Prop := minSigned 64 ≤ n ∧ n ≤ maxSigned 64

instance (n : Int) : Decidable (FitsWord n) := inferInstanceAs (Decidable (_ ∧ _))

/-- What becomes of a whole number on its way through a double: the nearest number that a double
stands for, or the least word if that is no word. -/
def wordThroughDouble (n : Int) : Int64 :=
  Int64.ofInt (if FitsWord (nearestInt n) then nearestInt n else minSigned 64)

theorem toInt_wordThroughDouble (n : Int) :
    (wordThroughDouble n).toInt =
      if FitsWord (nearestInt n) then nearestInt n else minSigned 64 := by
  unfold wordThroughDouble
  split
  · next hfits => exact toInt_ofInt_of_fits hfits.1 hfits.2
  · exact toInt_ofInt_of_fits (Int.le_refl _) (by decide)

/-- A word comes through a double as it was exactly if it has nothing below the last place that a
double has for it. What is no word never does. -/
theorem toInt_wordThroughDouble_eq_iff (n : Int) :
    (wordThroughDouble n).toInt = n ↔ FitsWord n ∧ 2 ^ (Nat.log2 n.natAbs - 52) ∣ n.natAbs := by
  have hexact : nearestInt n = n ↔ 2 ^ (Nat.log2 n.natAbs - 52) ∣ n.natAbs :=
    nearestInt_eq_self_iff.trans nearestWhole_eq_self_iff
  rw [toInt_wordThroughDouble, ← hexact]
  constructor
  · intro h
    split at h
    · next hfits => exact ⟨h ▸ hfits, h⟩
    · next hfits =>
      -- the least word comes through as it is
      subst h
      exact absurd (by decide) hfits
  · rintro ⟨hfits, h⟩
    rw [h, if_pos hfits]

/-- Numbers of at most 64 bits are in the range of a double. -/
theorem nearestWhole_lt_limit_of_short {n : Int} (hlow : minSigned 64 ≤ n) (hhigh : n < twoTo 64) :
    double.nearestWhole n.natAbs < double.limit := by
  have habs : n.natAbs ≤ 2 ^ 64 := by
    have hmin : minSigned 64 = -9223372036854775808 := by decide
    have hmax : twoTo 64 = 18446744073709551616 := by decide
    omega
  rw [← natAbs_nearestInt]
  exact lt_limit (natAbs_nearestInt_le habs) (by decide)

/-! ### The two formats -/

/-- What is not read as a word goes through a double. -/
theorem integer_of_number {t : Tree} {x : Float} {n : Int}
    (hdirect : ∀ s, t = .numeral s → readInt? (minSigned 64) (maxSigned 64) s.toList = none)
    (hx : number t = .ok x) (hvalue : value? x = some (nearestInt n : ℚ)) :
    integer t = .ok (wordThroughDouble n) := by
  have hrest : (number t >>= fun x =>
      if isWhole x then pure (Int64.ofInt (Calendar.wordOfFloat x)) else throw (.notInteger x)) =
      .ok (wordThroughDouble n) := by
    rw [hx]
    show (if isWhole x then _ else _ : Decode Int64) = _
    rw [isWhole_of_value hvalue, if_pos rfl, wordOfFloat_of_value hvalue]
    rfl
  cases t with
  | numeral s =>
    simp only [integer, hdirect s rfl]
    exact hrest
  | _ => exact hrest

/-- A number of JSON: as it is, through a double, or not at all. -/
theorem integer_numeral {t : Numeral} {n : Int} (h : t.value = n) :
    integer (.numeral (String.ofList t.chars)) =
      if t.IsPlain ∧ FitsWord n then .ok (Int64.ofInt n)
      else if double.limit ≤ double.nearestWhole n.natAbs then
        .error (.invalidNumber (String.ofList t.chars))
      else .ok (wordThroughDouble n) := by
  have hread := Numeral.readInt?_chars (minSigned 64) (maxSigned 64) t
  have hsigned : t.IsPlain → signed t.negative t.mantissa = n := fun hplain => by
    have := (Numeral.value_of_isPlain hplain).symm.trans h
    exact_mod_cast this
  by_cases hdirect : t.IsPlain ∧ FitsWord n
  · have hfits : minSigned 64 ≤ n ∧ n ≤ maxSigned 64 := hdirect.2
    rw [hsigned hdirect.1, if_pos ⟨hdirect.1, hfits⟩] at hread
    rw [if_pos hdirect]
    simp only [integer, String.toList_ofList, hread]
    rfl
  · have hnone : readInt? (minSigned 64) (maxSigned 64) t.chars = none := by
      rw [hread, if_neg]
      rintro ⟨hplain, hfits⟩
      rw [hsigned hplain] at hfits
      exact hdirect ⟨hplain, hfits⟩
    rw [if_neg hdirect]
    split
    · next hlimit =>
      simp only [integer, String.toList_ofList, hnone, number, Numeral.readDouble?_eq_none h hlimit]
      rfl
    · next hlimit =>
      obtain ⟨x, hx, hvalue⟩ := Numeral.exists_readDouble?_of_whole h (Nat.not_le.1 hlimit)
      refine integer_of_number (x := x) ?_ ?_ hvalue
      · rintro _ ⟨⟩
        rw [String.toList_ofList, hnone]
      · simp only [number, hx]

/-- A whole number of YAML goes through a double. -/
theorem integer_integer {n : Int} (h : double.nearestWhole n.natAbs < double.limit) :
    integer (.integer n) = .ok (wordThroughDouble n) :=
  integer_of_number nofun rfl (value?_floatOfInt h)

/-- The decimal text of a whole number in YAML goes through a double, however long it is. -/
theorem integer_resolve {resolve : String → Tree} (h : Tree.Yaml.ResolvesWhole resolve) (n : Int) :
    integer (resolve (intText n)) =
      if double.limit ≤ double.nearestWhole n.natAbs then .error (.notNumber "string")
      else .ok (wordThroughDouble n) := by
  by_cases hshort : minSigned 64 ≤ n ∧ n < twoTo 64
  · have hrange := nearestWhole_lt_limit_of_short hshort.1 hshort.2
    rw [h.word n hshort.1 hshort.2, if_neg (Nat.not_le.2 hrange), integer_integer hrange]
  · rw [h.long n hshort]
    split
    · next hlimit =>
      have hnone := Numeral.readDouble?_eq_none (Numeral.value_ofInt n) hlimit
      rw [Numeral.ofList_chars_ofInt] at hnone
      rw [hnone]
      rfl
    · next hlimit =>
      obtain ⟨x, hx, hvalue⟩ :=
        Numeral.exists_readDouble?_of_whole (Numeral.value_ofInt n) (Nat.not_le.1 hlimit)
      rw [Numeral.ofList_chars_ofInt] at hx
      rw [hx]
      exact integer_of_number nofun rfl hvalue

/-! ### Literals -/

/-- The literal of a word: in the node of an integer, an integer if it fits. -/
def literalOf (type : String) (w : Int64) : Expr :=
  if type = "IntegerLiteral" ∧ minSigned 32 ≤ w.toInt ∧ w.toInt ≤ maxSigned 32 then
    .integer (Int32.ofInt w.toInt)
  else .long w

/-- The number that a whole-number literal stands for. -/
def literalValue? : Expr → Option Int
  | .integer n => some n.toInt
  | .long n => some n.toInt
  | _ => none

/-- The node of a whole-number literal of a type, with a value. -/
structure IsLiteral (m : Tree) (type : String) (value : Tree) : Prop where
  known : type = "IntegerLiteral" ∨ type = "LongLiteral"
  type : typeOf m = .ok type
  value : fieldOf m "value" = value

theorem literalValue?_literalOf (type : String) (w : Int64) :
    literalValue? (literalOf type w) = some w.toInt := by
  unfold literalOf
  split
  · next hfits =>
    have hmin : minSigned 32 = -2 ^ 31 := by decide
    have hmax : maxSigned 32 = 2 ^ 31 - 1 := by decide
    exact congrArg some (Int32.toInt_ofInt_of_le (by omega) (by omega))
  · rfl

theorem literalOf_inj {type : String} {w w' : Int64} :
    literalOf type w = literalOf type w' ↔ w = w' := by
  refine ⟨fun h => ?_, fun h => by rw [h]⟩
  have hvalue := congrArg literalValue? h
  rw [literalValue?_literalOf, literalValue?_literalOf] at hvalue
  exact Int64.toInt_inj.1 (Option.some.inj hvalue)

section
variable {expr : Tree → Decode Expr} {stmt : Tree → Decode Stmt} {m : Tree} {type : String}

theorem exprNode_of_isLiteral {value : Tree} (h : IsLiteral m type value) :
    exprNode expr stmt m = literalOf type <$> integer value := by
  obtain ⟨hknown, htype, rfl⟩ := h
  unfold exprNode
  rw [htype]
  rcases hknown with rfl | rfl
  · have hliteral : integerLiteral = literalOf "IntegerLiteral" := by
      funext w
      simp [integerLiteral, literalOf]
    show (integer (fieldOf m "value") >>= fun w => pure (integerLiteral w)) = _
    rw [hliteral]
    cases integer (fieldOf m "value") <;> rfl
  · show (integer (fieldOf m "value") >>= fun w => pure (Expr.long w)) = _
    cases integer (fieldOf m "value") <;> rfl

/-- The literal of a number of JSON. -/
theorem exprNode_numeral {t : Numeral} {n : Int} (h : t.value = n)
    (hm : IsLiteral m type (.numeral (String.ofList t.chars))) :
    exprNode expr stmt m =
      if t.IsPlain ∧ FitsWord n then .ok (literalOf type (Int64.ofInt n))
      else if double.limit ≤ double.nearestWhole n.natAbs then
        .error (.invalidNumber (String.ofList t.chars))
      else .ok (literalOf type (wordThroughDouble n)) := by
  rw [exprNode_of_isLiteral hm, integer_numeral h]
  split
  · rfl
  · split <;> rfl

/-- The literal of a decimal whole number of YAML. -/
theorem exprNode_resolve {resolve : String → Tree} (h : Tree.Yaml.ResolvesWhole resolve) {n : Int}
    (hm : IsLiteral m type (resolve (intText n))) :
    exprNode expr stmt m =
      if double.limit ≤ double.nearestWhole n.natAbs then .error (.notNumber "string")
      else .ok (literalOf type (wordThroughDouble n)) := by
  rw [exprNode_of_isLiteral hm, integer_resolve h]
  split <;> rfl

/-- The two formats agree on a decimal text, except for a word that no double stands for. -/
theorem exprNode_agree_iff {resolve : String → Tree} (h : Tree.Yaml.ResolvesWhole resolve)
    {m' : Tree} {n : Int} (hm : IsLiteral m type (.numeral (intText n)))
    (hm' : IsLiteral m' type (resolve (intText n))) :
    (exprNode expr stmt m).toOption = (exprNode expr stmt m').toOption ↔
      (FitsWord n → 2 ^ (Nat.log2 n.natAbs - 52) ∣ n.natAbs) := by
  rw [← Numeral.ofList_chars_ofInt] at hm
  rw [exprNode_resolve h hm', exprNode_numeral (Numeral.value_ofInt n) hm]
  simp only [Numeral.isPlain_ofInt, true_and]
  by_cases hfits : FitsWord n
  · have hrange := nearestWhole_lt_limit_of_short hfits.1
      (Int.lt_of_le_of_lt hfits.2 (by decide))
    have hword : (Int64.ofInt n).toInt = n := toInt_ofInt_of_fits hfits.1 hfits.2
    have hexact := toInt_wordThroughDouble_eq_iff n
    rw [if_pos hfits, if_neg (Nat.not_le.2 hrange)]
    show some (literalOf type _) = some (literalOf type _) ↔ _
    rw [Option.some.injEq, literalOf_inj]
    constructor
    · intro h _
      exact (hexact.1 (by rw [← h, hword])).2
    · intro h
      exact Int64.toInt_inj.1 (hword.trans (hexact.2 ⟨hfits, h hfits⟩).symm)
  · rw [if_neg hfits]
    split <;> simp [hfits, Except.toOption]

end

/-- A whole number as the value of a whole-number literal. In JSON, the number itself is decoded if
it is spelled with digits alone and is a word. Every other spelling, and every number of YAML, is
taken through a double, or is an error if it is out of its range: what comes out is the number
itself if and only if it is a word that a double stands for, and the two formats disagree on the
other words. Of the resolver of YAML only `Tree.Yaml.ResolvesWhole` is used. -/
theorem whole_literal {resolve : String → Tree} (hresolve : Tree.Yaml.ResolvesWhole resolve)
    (type : String) (n : Int) (expr : Tree → Decode Expr) (stmt : Tree → Decode Stmt) :
    (∀ t : Numeral, t.IsJson → t.value = n →
      ∃ value, Tree.Json.read (String.ofList t.chars) = .ok value ∧
        ∀ m, IsLiteral m type value →
          exprNode expr stmt m =
            if t.IsPlain ∧ FitsWord n then .ok (literalOf type (Int64.ofInt n))
            else if double.limit ≤ double.nearestWhole n.natAbs then
              .error (.invalidNumber (String.ofList t.chars))
            else .ok (literalOf type (wordThroughDouble n))) ∧
    (∀ m, IsLiteral m type (resolve (intText n)) →
      exprNode expr stmt m =
        if double.limit ≤ double.nearestWhole n.natAbs then .error (.notNumber "string")
        else .ok (literalOf type (wordThroughDouble n))) ∧
    (minSigned 64 ≤ n → n < twoTo 64 → ∀ m, IsLiteral m type (.integer n) →
      exprNode expr stmt m = .ok (literalOf type (wordThroughDouble n))) ∧
    (literalValue? (literalOf type (wordThroughDouble n)) = some n ↔
      FitsWord n ∧ 2 ^ (Nat.log2 n.natAbs - 52) ∣ n.natAbs) ∧
    ∀ value, Tree.Json.read (intText n) = .ok value → ∀ m m', IsLiteral m type value →
      IsLiteral m' type (resolve (intText n)) →
      ((exprNode expr stmt m).toOption = (exprNode expr stmt m').toOption ↔
        (FitsWord n → 2 ^ (Nat.log2 n.natAbs - 52) ∣ n.natAbs)) := by
  refine ⟨fun t hjson h => ⟨_, Tree.Json.read_numeral hjson, fun m hm => exprNode_numeral h hm⟩,
    fun m hm => exprNode_resolve hresolve hm, fun hlow hhigh m hm => ?_, ?_,
    fun value hread m m' hm hm' => ?_⟩
  · rw [exprNode_of_isLiteral hm, integer_integer (nearestWhole_lt_limit_of_short hlow hhigh)]
    rfl
  · rw [literalValue?_literalOf, Option.some.injEq, toInt_wordThroughDouble_eq_iff]
  · have hvalue := Tree.Json.read_numeral (Numeral.isJson_ofInt n)
    rw [Numeral.ofList_chars_ofInt, hread] at hvalue
    cases hvalue
    exact exprNode_agree_iff hresolve hm hm'

/-- The node of a `Long` with a value, and no other parts. -/
def longNode (value : Tree) : Tree := .mapping [("type", .text "LongLiteral"), ("value", value)]

theorem isLiteral_longNode (value : Tree) : IsLiteral (longNode value) "LongLiteral" value :=
  ⟨.inr rfl, rfl, rfl⟩

/-- The first whole number that no double stands for: itself in JSON, its neighbour in YAML. -/
theorem whole_literal_neighbour :
    (∃ value, Tree.Json.read (String.ofList (Numeral.ofInt 9007199254740993).chars) = .ok value ∧
      exprNode (expr 0) (stmt 0) (longNode value) = .ok (.long 9007199254740993)) ∧
    exprNode (expr 0) (stmt 0) (longNode (Tree.Yaml.resolve (intText 9007199254740993))) =
      .ok (.long 9007199254740992) := by
  obtain ⟨hjson, hyaml, -⟩ := whole_literal Tree.Yaml.resolvesWhole_resolve "LongLiteral"
    9007199254740993 (expr 0) (stmt 0)
  constructor
  · obtain ⟨value, hread, h⟩ := hjson _ (Numeral.isJson_ofInt _) (Numeral.value_ofInt _)
    refine ⟨value, hread, (h _ (isLiteral_longNode value)).trans ?_⟩
    rw [if_pos ⟨Numeral.isPlain_ofInt _, by decide⟩]
    rfl
  · refine (hyaml _ (isLiteral_longNode _)).trans ?_
    rw [if_neg (Nat.not_le.2 (nearestWhole_lt_limit_of_short (by decide) (by decide)))]
    rfl

end FormBasic.Decode
