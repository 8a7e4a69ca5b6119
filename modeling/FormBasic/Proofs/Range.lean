import FormBasic.Machine.Run
import FormBasic.Proofs.Arithmetic
import FormBasic.Proofs.Decimal.DoubleValue
import FormBasic.Proofs.Machine.Ends

/-!
# Ranges of whole numbers

The relational operators look at two operands, and a `Case` range at three. Two `Long`s are compared
as the words they are, and an `Integer` and a `Long` as doubles, where the `Integer` is exact, so
that the order of whole numbers is the order of the numbers in every case. A range compares words
only if all three are `Integer`s. With a `Long` among them it compares doubles, and two `Long`s may
have one double between them.

So a range agrees with the two conditions that make it up, except where a number lies outside a
bound by less than a double can tell: such a number `Blurs` with the bound, and it counts as inside.

## Main definitions

* `WholeNumber.Blurs` — two numbers that doubles do not tell apart

## Main results

* `WholeNumber.compare_value` — the order of whole numbers is exact
* `WholeNumber.inRange_value` — a range is exact up to numbers that blur
* `Runner.range_case_of_conditions` — a range case against a pair of conditions
-/

namespace FormBasic

open Value Decimal

namespace WholeNumber

/-! ### Whole numbers as doubles -/

/-- An `Integer` is not changed by becoming a double. -/
theorem natAbs_integer_lt (word : Int32) : (integer word).toInt.natAbs < 2 ^ 53 := by
  have := word.le_toInt
  have := word.toInt_lt
  show word.toInt.natAbs < _
  omega

/-- The number that a whole number stands for as a double. -/
theorem value?_ofInt_toInt (n : WholeNumber) :
    value? (Float.ofInt n.toInt) = some (nearestInt n.toInt : ℚ) := by
  have hshort : n.toInt.natAbs ≤ 2 ^ 63 := by
    cases n with
    | integer word => exact (natAbs_integer_lt word).le.trans (by decide)
    | long word => exact Decimal.natAbs_toInt_le word
  exact value?_ofInt_of_natAbs_le hshort (by decide)

theorem ofInt_le_iff (a b : WholeNumber) :
    Float.ofInt a.toInt ≤ Float.ofInt b.toInt ↔ nearestInt a.toInt ≤ nearestInt b.toInt := by
  rw [le_iff_of_value a.value?_ofInt_toInt b.value?_ofInt_toInt, Int.cast_le]

theorem ofInt_lt_iff (a b : WholeNumber) :
    Float.ofInt a.toInt < Float.ofInt b.toInt ↔ nearestInt a.toInt < nearestInt b.toInt := by
  rw [lt_iff_of_value a.value?_ofInt_toInt b.value?_ofInt_toInt, Int.cast_lt]

theorem ofInt_eq_iff (a b : WholeNumber) :
    Float.ofInt a.toInt = Float.ofInt b.toInt ↔ nearestInt a.toInt = nearestInt b.toInt := by
  have ha := a.value?_ofInt_toInt
  have hb := b.value?_ofInt_toInt
  constructor
  · intro h
    rw [h, hb] at ha
    exact_mod_cast (Option.some.inj ha).symm
  · intro h
    by_cases hzero : nearestInt b.toInt = 0
    · rw [nearestInt_eq_zero_iff.1 hzero, nearestInt_eq_zero_iff.1 (h.trans hzero)]
    · rw [h] at ha
      exact eq_of_value ha hb (Int.cast_ne_zero.2 hzero)

/-! ### The order of whole numbers -/

/-- The order by doubles is that of the numbers, if one of them is not changed. -/
theorem compare_doubles {a b : WholeNumber}
    (h : a.toInt.natAbs < 2 ^ 53 ∨ b.toInt.natAbs < 2 ^ 53) :
    (if Float.ofInt a.toInt < Float.ofInt b.toInt then Ordering.lt
      else if Float.ofInt a.toInt > Float.ofInt b.toInt then .gt else .eq) =
      Ord.compare a.toInt b.toInt := by
  have hlt : Float.ofInt a.toInt < Float.ofInt b.toInt ↔ a.toInt < b.toInt := by
    rw [ofInt_lt_iff]
    rcases h with ha | hb
    · rw [nearestInt_of_natAbs_le ha.le, lt_nearestInt_iff ha]
    · rw [nearestInt_of_natAbs_le hb.le, nearestInt_lt_iff hb]
  have hgt : Float.ofInt a.toInt > Float.ofInt b.toInt ↔ b.toInt < a.toInt := by
    rw [gt_iff_lt, ofInt_lt_iff]
    rcases h with ha | hb
    · rw [nearestInt_of_natAbs_le ha.le, nearestInt_lt_iff ha]
    · rw [nearestInt_of_natAbs_le hb.le, lt_nearestInt_iff hb]
  rcases lt_trichotomy a.toInt b.toInt with h | h | h
  · rw [if_pos (hlt.2 h), Int.compare_eq_lt.2 h]
  · rw [if_neg (mt hlt.1 h.not_lt), if_neg (mt hgt.1 h.not_gt), Int.compare_eq_eq.2 h]
  · rw [if_neg (mt hlt.1 (lt_asymm h)), if_pos (hgt.2 h), Int.compare_eq_gt.2 h]

/-- Whole numbers are compared exactly, also in different variants. -/
theorem compare_value (a b : WholeNumber) :
    Value.compare a.value b.value = .ok (Ord.compare a.toInt b.toInt) := by
  cases a with
  | integer a =>
    cases b with
    | integer b => rfl
    | long b =>
      rw [← compare_doubles (.inl (natAbs_integer_lt a))]
      rfl
  | long a =>
    cases b with
    | integer b =>
      rw [← compare_doubles (.inr (natAbs_integer_lt b))]
      rfl
    | long b => rfl

theorem compareBy_atLeast (a b : WholeNumber) :
    a.value.compareBy .greaterOrEqual b.value = .ok (decide (b.toInt ≤ a.toInt)) := by
  have horder : (Ord.compare a.toInt b.toInt).isGE = decide (b.toInt ≤ a.toInt) := by
    rw [Bool.eq_iff_iff, decide_eq_true_iff, Int.isGE_compare]
  simp only [compareBy, compare_value, ← horder]
  rfl

theorem compareBy_atMost (a b : WholeNumber) :
    a.value.compareBy .lessOrEqual b.value = .ok (decide (a.toInt ≤ b.toInt)) := by
  have horder : (Ord.compare a.toInt b.toInt).isLE = decide (a.toInt ≤ b.toInt) := by
    rw [Bool.eq_iff_iff, decide_eq_true_iff, Int.isLE_compare]
  simp only [compareBy, compare_value, ← horder]
  rfl

/-! ### Ranges -/

/-- Two numbers that are not the same and have the same double. -/
def Blurs (a b : WholeNumber) : Prop :=
  a.toInt ≠ b.toInt ∧ Float.ofInt a.toInt = Float.ofInt b.toInt

theorem blurs_iff {a b : WholeNumber} :
    a.Blurs b ↔ a.toInt ≠ b.toInt ∧ nearestInt a.toInt = nearestInt b.toInt :=
  and_congr_right' (ofInt_eq_iff a b)

instance (a b : WholeNumber) : Decidable (a.Blurs b) := decidable_of_iff' _ blurs_iff

theorem blurs_comm {a b : WholeNumber} : a.Blurs b ↔ b.Blurs a :=
  and_congr ne_comm eq_comm

/-- A number blurs only beyond the length of a significand. -/
theorem Blurs.le_natAbs {a b : WholeNumber} (h : a.Blurs b) : 2 ^ 53 ≤ a.toInt.natAbs := by
  obtain ⟨hne, heq⟩ := blurs_iff.1 h
  by_contra hlt
  have ha : a.toInt.natAbs < 2 ^ 53 := Nat.not_le.1 hlt
  have hless := lt_nearestInt_iff (a := b.toInt) ha
  have hmore := nearestInt_lt_iff (a := b.toInt) ha
  rw [← heq, nearestInt_of_natAbs_le ha.le] at hless hmore
  omega

/-- An `Integer` does not blur. -/
theorem Blurs.isLong {a b : WholeNumber} (h : a.Blurs b) : a.isLong = true := by
  cases a with
  | integer word => exact absurd h.le_natAbs (Nat.not_le.2 (natAbs_integer_lt word))
  | long word => rfl

/-- The doubles of two numbers are in order if the numbers are, or if they blur. -/
theorem nearestInt_le_iff (a b : WholeNumber) :
    nearestInt a.toInt ≤ nearestInt b.toInt ↔ a.toInt ≤ b.toInt ∨ a.Blurs b := by
  constructor
  · intro h
    by_contra hnot
    obtain ⟨hlt, hblurs⟩ := not_or.1 hnot
    have hge := nearestInt_mono (Int.not_le.1 hlt).le
    exact hblurs (blurs_iff.2 ⟨by omega, le_antisymm h hge⟩)
  · rintro (h | h)
    · exact nearestInt_mono h
    · exact (blurs_iff.1 h).2.le

/-- A range of whole numbers is exact up to numbers that blur. -/
theorem inRange_value (v low high : WholeNumber) :
    v.value.inRange low.value high.value =
      decide ((low.toInt ≤ v.toInt ∨ v.Blurs low) ∧ (v.toInt ≤ high.toInt ∨ v.Blurs high)) := by
  rw [Bool.eq_iff_iff, decide_eq_true_iff, blurs_comm (b := low), ← nearestInt_le_iff,
    ← nearestInt_le_iff]
  have hdoubles : (decide (Float.ofInt low.toInt ≤ Float.ofInt v.toInt) &&
      decide (Float.ofInt v.toInt ≤ Float.ofInt high.toInt)) = true ↔
      nearestInt low.toInt ≤ nearestInt v.toInt ∧ nearestInt v.toInt ≤ nearestInt high.toInt := by
    rw [Bool.and_eq_true, decide_eq_true_iff, decide_eq_true_iff, ofInt_le_iff, ofInt_le_iff]
  -- only three `Integer`s are compared without doubles
  cases v with
  | long v => cases low <;> cases high <;> exact hdoubles
  | integer v =>
    cases low with
    | long low => cases high <;> exact hdoubles
    | integer low =>
      cases high with
      | long high => exact hdoubles
      | integer high =>
        rw [nearestInt_of_natAbs_le (natAbs_integer_lt v).le,
          nearestInt_of_natAbs_le (natAbs_integer_lt low).le,
          nearestInt_of_natAbs_le (natAbs_integer_lt high).le]
        show (decide (low ≤ v) && decide (v ≤ high)) = true ↔
          low.toInt ≤ v.toInt ∧ v.toInt ≤ high.toInt
        rw [Bool.and_eq_true, decide_eq_true_iff, decide_eq_true_iff, Int32.le_iff_toInt_le,
          Int32.le_iff_toInt_le]

/-- A `Long` in a range whose lower bound is greater: the two have one double. -/
theorem inRange_without_condition :
    (Value.long 9007199254740992).inRange (.long 9007199254740993) (.long 9007199254740994) = true ∧
      (Value.long 9007199254740992).compareBy .greaterOrEqual (.long 9007199254740993) =
        .ok false := by
  decide

end WholeNumber

/-! ### Cases -/

namespace Runner

open Interp

variable {run : Runner} {v : Value} {e e' : Expr} {s s₁ s₂ : State}

theorem meets_is {op : Operator} {w : Value} {holds : Bool} (he : run.eval e s = .ok w s₁)
    (hholds : v.compareBy op w = .ok holds) : run.meets v (.is op e) s = .ok holds s₁ := by
  refine (bind_of_ok _ he).trans ?_
  show (Interp.lift (v.compareBy op w)) s₁ = _
  rw [hholds]
  rfl

theorem meets_range {low high : Value} (hlow : run.eval e s = .ok low s₁)
    (hhigh : run.eval e' s₁ = .ok high s₂) :
    run.meets v (.range e e') s = .ok (v.inRange low high) s₂ :=
  (bind_of_ok _ hlow).trans ((bind_of_ok _ hhigh).trans rfl)

/-- The block of a `Case` line of one entry is taken if the entry is met. -/
theorem caseBlock_of_meets {c : CaseCondition} {holds : Bool} {body otherwise : List Stmt}
    {rest : List CaseClause} (h : run.meets v c s = .ok holds s₁) :
    run.caseBlock v otherwise (⟨[c], body⟩ :: rest) s =
      if holds then .ok body s₁ else run.caseBlock v otherwise rest s₁ := by
  have hany : run.meetsAny v [c] s = .ok holds s₁ := by
    refine (bind_of_ok _ h).trans ?_
    cases holds <;> rfl
  refine (bind_of_ok _ hany).trans ?_
  cases holds <;> rfl

/-- A range case of whole numbers against the pair of conditions that make it up. The conditions are
exact. The range case holds if both of them do, or where one does not because the number lies
outside the bound by less than a double can tell, which happens to two long `Long`s only. -/
theorem range_case_of_conditions (v low high : WholeNumber) :
    ∃ atLeast atMost inside : Bool,
      v.value.compareBy .greaterOrEqual low.value = .ok atLeast ∧
      v.value.compareBy .lessOrEqual high.value = .ok atMost ∧
      v.value.inRange low.value high.value = inside ∧
      (atLeast = true ↔ low.toInt ≤ v.toInt) ∧
      (atMost = true ↔ v.toInt ≤ high.toInt) ∧
      (inside = true ↔ (atLeast = true ∨ v.Blurs low) ∧ (atMost = true ∨ v.Blurs high)) ∧
      (∀ bound, v.Blurs bound → (v.isLong = true ∧ bound.isLong = true) ∧
        2 ^ 53 ≤ v.toInt.natAbs ∧ 2 ^ 53 ≤ bound.toInt.natAbs) ∧
      ∀ (run : Runner) (e e' : Expr) (s s₁ s₂ : State),
        run.eval e s = .ok low.value s₁ → run.eval e' s₁ = .ok high.value s₂ →
          run.meets v.value (.is .greaterOrEqual e) s = .ok atLeast s₁ ∧
          run.meets v.value (.is .lessOrEqual e') s₁ = .ok atMost s₂ ∧
          ∀ body otherwise rest,
            run.caseBlock v.value otherwise (⟨[.range e e'], body⟩ :: rest) s =
              if inside then .ok body s₂ else run.caseBlock v.value otherwise rest s₂ := by
  have hatLeast := WholeNumber.compareBy_atLeast v low
  have hatMost := WholeNumber.compareBy_atMost v high
  refine ⟨_, _, _, hatLeast, hatMost, rfl, decide_eq_true_iff, decide_eq_true_iff, ?_,
    fun bound h => ⟨⟨h.isLong, (WholeNumber.blurs_comm.1 h).isLong⟩, h.le_natAbs,
      (WholeNumber.blurs_comm.1 h).le_natAbs⟩, ?_⟩
  · rw [WholeNumber.inRange_value, decide_eq_true_iff, decide_eq_true_iff, decide_eq_true_iff]
  · intro run e e' s s₁ s₂ hlow hhigh
    exact ⟨meets_is hlow hatLeast, meets_is hhigh hatMost, fun body otherwise rest =>
      caseBlock_of_meets (meets_range hlow hhigh)⟩

/-- A number inside the bounds, and one that blurs with the lower bound. -/
theorem range_case_of_conditions_literals :
    (withFuel 1).caseBlock (.integer 3) []
          [⟨[.range (.long 1) (.integer 5)], [.exitBlock .select]⟩] {} =
        .ok [.exitBlock .select] {} ∧
      (withFuel 1).caseBlock (.long 9007199254740992) []
          [⟨[.range (.long 9007199254740993) (.long 9007199254740994)], [.exitBlock .select]⟩] {} =
        .ok [.exitBlock .select] {} := by
  constructor
  · obtain ⟨_, _, inside, -, -, -, hatLeast, hatMost, hinside, -, hrun⟩ :=
      range_case_of_conditions (.integer 3) (.long 1) (.integer 5)
    obtain ⟨-, -, hblock⟩ := hrun (withFuel 1) (.long 1) (.integer 5) {} {} {} rfl rfl
    have htrue : inside = true :=
      hinside.2 ⟨.inl (hatLeast.2 (by decide)), .inl (hatMost.2 (by decide))⟩
    exact (hblock _ _ []).trans (by rw [htrue, if_pos rfl])
  · obtain ⟨_, _, inside, -, -, -, -, hatMost, hinside, -, hrun⟩ :=
      range_case_of_conditions (.long 9007199254740992) (.long 9007199254740993)
        (.long 9007199254740994)
    obtain ⟨-, -, hblock⟩ := hrun (withFuel 1) (.long 9007199254740993) (.long 9007199254740994)
      {} {} {} rfl rfl
    have htrue : inside = true := hinside.2 ⟨.inr (by decide), .inl (hatMost.2 (by decide))⟩
    exact (hblock _ _ []).trans (by rw [htrue, if_pos rfl])

end Runner

end FormBasic
