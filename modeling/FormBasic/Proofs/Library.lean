import FormBasic.Evaluator
import FormBasic.Library.Method

/-!
# What operators and built-in functions give

A value that stands for an omitted argument may be handed to every built-in function, and none but
one hands it on: `IIf`, which gives one of its arguments as it is. Operators and conversions take it
for `Nothing` or refuse it.

## Main results

* `Library.givesProper_of_function?` — the built-in functions that compute
* `Operator.givesProper_apply`, `Value.givesProper_coerceTo` — operators and conversions
-/

namespace FormBasic

/-! ### Computations that give proper values -/

/-- A computation gives a proper value if it gives any. -/
def Fallible.GivesProper (x : Fallible Value) : Prop := ∀ v, x = .ok v → v.isProper = true

namespace Fallible.GivesProper

variable {α : Type} {x y : Fallible Value}

theorem ok {v : Value} (hv : v.isProper = true) : GivesProper (.ok v) := by
  rintro _ ⟨⟩
  exact hv

theorem error (c : Cause) : GivesProper (.error c) := nofun

theorem bind {z : Fallible α} {k : α → Fallible Value} (hk : ∀ a, GivesProper (k a)) :
    GivesProper (z >>= k) := by
  intro v hv
  cases z with
  | error c => cases hv
  | ok a => exact hk a v hv

theorem map {z : Fallible α} {f : α → Value} (hf : ∀ a, (f a).isProper = true) :
    GivesProper (f <$> z) := by
  intro v hv
  cases z with
  | error c => cases hv
  | ok a =>
    cases hv
    exact hf a

theorem ite {c : Prop} [Decidable c] (hx : GivesProper x) (hy : GivesProper y) :
    GivesProper (if c then x else y) := by
  split
  · exact hx
  · exact hy

end Fallible.GivesProper

open Fallible (GivesProper)

/-! ### Values -/

namespace Value

theorem isProper_orNothing (v : Value) : v.orNothing.isProper = true := by
  cases v <;> rfl

theorem isProper_of_isNothing_eq_false {v : Value} (h : v.isNothing = false) :
    v.isProper = true := by
  cases v <;> first | rfl | cases h

theorem isProper_default (kind : TypeKind) : kind.default.isProper = true := by
  cases kind <;> rfl

theorem givesProper_coerceProper {kind : TypeKind} {v : Value} (hv : v.isProper = true) :
    GivesProper (v.coerceProper kind) := by
  cases kind with
  | integer =>
    simp only [coerceProper]
    split
    · exact .ok rfl
    · exact .bind fun _ => .ite (.error _) (.ok rfl)
  | long =>
    simp only [coerceProper]
    split
    · exact .ok rfl
    · exact .bind fun _ => .ite (.error _) (.ok rfl)
  | single => exact .map fun _ => rfl
  | double => exact .map fun _ => rfl
  | text => exact .ok rfl
  | boolean => exact .map fun _ => rfl
  | date => exact .map fun _ => rfl
  | other => exact .ok hv

/-- A conversion takes an omitted argument for `Nothing`. -/
theorem givesProper_coerce (kind : TypeKind) (v : Value) : GivesProper (v.coerce kind) := by
  unfold coerce
  split
  · exact .ok (isProper_default kind)
  · next h =>
    exact givesProper_coerceProper (isProper_of_isNothing_eq_false (Bool.eq_false_iff.2 h))

theorem givesProper_coerceTo (typeName : String) (v : Value) : GivesProper (v.coerceTo typeName) :=
  givesProper_coerce _ v

end Value

theorem isProper_defaultOf (typeName : String) : (defaultOf typeName).isProper = true :=
  Value.isProper_default _

/-! ### Operators -/

namespace Operation

theorem givesProper_fitInteger (n : Int) : GivesProper (fitInteger n) := .ite (.ok rfl) (.error _)

theorem givesProper_onIntegers (f : Int64 → Int64 → Int64) (a b : Int32) :
    GivesProper (onIntegers f a b) := givesProper_fitInteger _

theorem givesProper_addLongs (a b : Int64) : GivesProper (addLongs a b) := .ite (.error _) (.ok rfl)

theorem givesProper_subtractLongs (a b : Int64) : GivesProper (subtractLongs a b) :=
  .ite (.error _) (.ok rfl)

theorem givesProper_multiplyLongs (a b : Int64) : GivesProper (multiplyLongs a b) :=
  .ite (.ok rfl) (.ite (.error _) (.ok rfl))

theorem givesProper_onDoubles (f : Float → Float → Float) (l r : Value) :
    GivesProper (onDoubles f l r) :=
  .bind fun _ => .bind fun _ => .ok rfl

theorem givesProper_add (l r : Value) : GivesProper (add l r) := by
  unfold add
  split
  · exact givesProper_onIntegers _ _ _
  · exact givesProper_addLongs _ _
  · exact .ok rfl
  · split
    · exact .ok rfl
    · exact givesProper_onDoubles _ _ _
  · split
    · exact .ok rfl
    · exact givesProper_onDoubles _ _ _
  · exact givesProper_onDoubles _ _ _

theorem givesProper_subtract (l r : Value) : GivesProper (subtract l r) := by
  unfold subtract
  split
  · exact givesProper_onIntegers _ _ _
  · exact givesProper_subtractLongs _ _
  · exact .ok rfl
  · split
    · exact .ok rfl
    · exact givesProper_onDoubles _ _ _
  · exact givesProper_onDoubles _ _ _

theorem givesProper_multiply (l r : Value) : GivesProper (multiply l r) := by
  unfold multiply
  split
  · exact givesProper_onIntegers _ _ _
  · exact givesProper_multiplyLongs _ _
  · exact givesProper_onDoubles _ _ _

theorem givesProper_wholeDivision {onLongs : Int64 → Int64 → Fallible Value}
    {onIntegers : Int32 → Int32 → Fallible Value} (hlongs : ∀ a b, GivesProper (onLongs a b))
    (hintegers : ∀ a b, GivesProper (onIntegers a b)) (l r : Value) :
    GivesProper (wholeDivision onLongs onIntegers l r) :=
  .ite (.bind fun _ => .bind fun _ => hlongs _ _) (.bind fun _ => .bind fun _ => hintegers _ _)

theorem givesProper_integerDivide (l r : Value) :
    GivesProper
      (wholeDivision (quotient .long Int64.minValue) (quotient .integer Int32.minValue) l r) :=
  givesProper_wholeDivision (fun _ _ => .ite (.error _) (.ite (.error _) (.ok rfl)))
    (fun _ _ => .ite (.error _) (.ite (.error _) (.ok rfl))) l r

theorem givesProper_modulo (l r : Value) :
    GivesProper (wholeDivision (remainder .long) (remainder .integer) l r) :=
  givesProper_wholeDivision (fun _ _ => .ite (.error _) (.ite (.ok rfl) (.ok rfl)))
    (fun _ _ => .ite (.error _) (.ite (.ok rfl) (.ok rfl))) l r

theorem givesProper_logical (onBools : Bool → Bool → Bool) (onBits : Int64 → Int64 → Int64)
    (l r : Value) : GivesProper (logical onBools onBits l r) := by
  unfold logical
  split
  · exact .ok rfl
  · exact .bind fun _ => .bind fun _ => .ok rfl

end Operation

open Operation

theorem Operator.givesProper_apply (op : Operator) (l r : Value) : GivesProper (op.apply l r) := by
  unfold apply applyProper
  cases op with
  | add => exact givesProper_add _ _
  | subtract => exact givesProper_subtract _ _
  | multiply => exact givesProper_multiply _ _
  | divide => exact .bind fun _ => .bind fun _ => .ite (.error _) (.ok rfl)
  | integerDivide => exact givesProper_integerDivide _ _
  | modulo => exact givesProper_modulo _ _
  | power => exact givesProper_onDoubles _ _ _
  | and => exact givesProper_logical _ _ _ _
  | or => exact givesProper_logical _ _ _ _
  | xor => exact givesProper_logical _ _ _ _
  | andAlso => exact .bind fun _ => .bind fun _ => .ok rfl
  | orElse => exact .bind fun _ => .bind fun _ => .ok rfl
  | shiftLeft => exact .bind fun _ => .bind fun _ => .ok rfl
  | shiftRight => exact .bind fun _ => .bind fun _ => .ok rfl
  | concatenate => exact .ok rfl
  | is => exact .ok rfl
  | isNot => exact .ok rfl
  | like => exact .ok rfl
  | negate => exact .error _
  | not => exact .error _
  | equal => exact .map fun _ => rfl
  | notEqual => exact .map fun _ => rfl
  | less => exact .map fun _ => rfl
  | lessOrEqual => exact .map fun _ => rfl
  | greater => exact .map fun _ => rfl
  | greaterOrEqual => exact .map fun _ => rfl

theorem Operator.givesProper_applyUnary (op : Operator) (v : Value) :
    GivesProper (op.applyUnary v) := by
  unfold applyUnary
  split
  · unfold Operation.negate
    split
    · exact givesProper_fitInteger _
    · exact .bind fun _ => .ok rfl
  · unfold Operation.complement
    split
    · exact .ok rfl
    · exact .bind fun _ => .ok rfl
  · exact .error _

/-! ### Built-in functions -/

namespace Library

variable (args : List Value)

theorem givesProper_onText (name : String) (f : List Char → List Char) :
    GivesProper (onText name f args) := .bind fun _ => .ok rfl

theorem givesProper_onDouble (name : String) (f : Float → Float) :
    GivesProper (onDouble name f args) := .bind fun _ => .bind fun _ => .ok rfl

theorem givesProper_len : GivesProper (len args) := by
  refine .bind fun _ => ?_
  split <;> exact .ok rfl

theorem givesProper_partOfLength (name : String) (f : List Char → Nat → List Char) :
    GivesProper (partOfLength name f args) :=
  .bind fun _ => .bind fun _ => .ite (.error _) (.ok rfl)

theorem givesProper_mid : GivesProper (mid args) :=
  .bind fun _ => .bind fun _ => .ite (.error _) (.bind fun _ => .ok rfl)

theorem givesProper_inStrFunction : GivesProper (inStrFunction args) := by
  refine .bind fun _ => ?_
  split
  · exact .bind fun _ => .ok rfl
  · exact .ok rfl

theorem givesProper_replace : GivesProper (replace args) := .bind fun _ => .ok rfl

theorem givesProper_chr : GivesProper (chr args) :=
  .bind fun _ => .bind fun _ => .ite (.error _) (.ok rfl)

theorem givesProper_asc : GivesProper (asc args) := by
  refine .bind fun _ => ?_
  split
  · exact .error _
  · exact .ok rfl

theorem givesProper_strFunction : GivesProper (strFunction args) := by
  refine .bind fun _ => ?_
  dsimp only
  split <;> exact .ok rfl

theorem givesProper_val : GivesProper (val args) := .bind fun _ => .ok rfl

theorem givesProper_space : GivesProper (space args) := .bind fun _ => .bind fun _ => .ok rfl

theorem givesProper_format : GivesProper (format args) := by
  refine .bind fun _ => ?_
  dsimp only
  split
  · exact .ok rfl
  · refine .ite (.ok rfl) ?_
    split <;> exact .ok rfl

theorem givesProper_isNullOrEmpty : GivesProper (isNullOrEmpty args) := .bind fun _ => .ok rfl

theorem givesProper_convert (typeName : String) : GivesProper (convert typeName args) := by
  refine .bind fun _ => ?_
  dsimp only
  split
  · exact .ite (.error _) (Value.givesProper_coerce _ _)
  · exact Value.givesProper_coerce _ _

theorem givesProper_isNumericFunction : GivesProper (isNumericFunction args) := by
  refine .bind fun _ => ?_
  split <;> exact .ok rfl

theorem givesProper_isNothingFunction : GivesProper (isNothingFunction args) :=
  .bind fun _ => .ok rfl

theorem givesProper_typeNameFunction : GivesProper (typeNameFunction args) := by
  refine .bind fun _ => ?_
  split <;> exact .ok rfl

theorem givesProper_abs : GivesProper (abs args) := by
  refine .bind fun _ => ?_
  split
  · exact .ite (.error _) (.ok rfl)
  · exact .ite (.error _) (.ok rfl)
  · exact .bind fun _ => .ok rfl

theorem givesProper_integral (name : String) (f : Float → Float) :
    GivesProper (integral name f args) := by
  refine .bind fun _ => ?_
  split
  · exact .ok rfl
  · exact .ok rfl
  · exact .bind fun _ => .ok rfl

theorem givesProper_round : GivesProper (round args) :=
  .bind fun _ => .bind fun _ => .bind fun _ => .ok rfl

theorem givesProper_power : GivesProper (power args) :=
  .bind fun _ => .bind fun _ => .bind fun _ => .ok rfl

/-- An omitted argument has no number, so it compares with nothing. -/
theorem isProper_of_compare {l r : Value} {c : Ordering} (h : l.compare r = .ok c) :
    l.isProper = true ∧ r.isProper = true := by
  have hright : ∀ x : Fallible Float, (x >>= fun a => Value.asDouble .absent >>= fun b =>
      (pure (if a < b then .lt else if a > b then .gt else .eq) : Fallible Ordering)) ≠ .ok c := by
    rintro (_ | _) h <;> cases h
  cases hl : l with
  | absent =>
    rw [hl] at h
    cases h
  | _ =>
    cases hr : r with
    | absent =>
      rw [hl, hr] at h
      exact absurd h (hright _)
    | _ => exact ⟨rfl, rfl⟩

theorem givesProper_choose (accepts : Ordering → Bool) : GivesProper (choose accepts args) := by
  refine .bind fun _ => ?_
  dsimp only
  cases hc : (argAt args 0).compare (argAt args 1) with
  | error c => exact .error c
  | ok c =>
    obtain ⟨hl, hr⟩ := isProper_of_compare hc
    refine .ok ?_
    split
    · exact hl
    · exact hr

theorem givesProper_sign : GivesProper (sign args) := .bind fun _ => .bind fun _ => .ok rfl

theorem givesProper_datePart (name : String) (part : Calendar.Moment → Int) :
    GivesProper (datePart name part args) := .bind fun _ => .bind fun _ => .ok rfl

theorem givesProper_dateAdd : GivesProper (dateAdd args) := by
  refine .bind fun _ => .bind fun _ => .bind fun _ => ?_
  dsimp only
  split
  · exact .ok rfl
  · exact .error _

theorem givesProper_uBound : GivesProper (uBound args) :=
  .bind fun _ => .bind fun _ => .bind fun _ => .bind fun _ => .ok rfl

theorem givesProper_lBound : GivesProper (lBound args) := .bind fun _ => .bind fun _ => .ok rfl

theorem givesProper_join : GivesProper (join args) := .bind fun _ => .bind fun _ => .ok rfl

variable {args}

theorem length_of_arity {name : String} {least most : Nat} {u : Unit}
    (h : arity name args least most = .ok u) : least ≤ args.length ∧ args.length ≤ most := by
  unfold arity at h
  split at h
  · next hlength => simpa using hlength
  · cases h

theorem isProper_argAt (h : ∀ a ∈ args, a.isProper = true) {i : Nat} (hi : i < args.length) :
    (argAt args i).isProper = true := by
  rw [argAt, List.getD_eq_getElem?_getD, List.getElem?_eq_getElem hi, Option.getD_some]
  exact h _ (List.getElem_mem hi)

/-- `IIf` gives one of its arguments as it is. -/
theorem givesProper_iif (h : ∀ a ∈ args, a.isProper = true) : GivesProper (iif args) := by
  intro v hv
  unfold iif at hv
  cases harity : arity "IIf" args 3 3 with
  | error c =>
    rw [harity] at hv
    cases hv
  | ok _ =>
    have hlength := (length_of_arity harity).1
    rw [harity] at hv
    cases hb : (argAt args 0).asBool with
    | error c =>
      rw [hb] at hv
      cases hv
    | ok b =>
      rw [hb] at hv
      cases hv
      exact isProper_argAt h (by split <;> omega)

theorem givesProper_of_textFunction? {key : String} {f : Function}
    (hf : textFunction? key = some f) : GivesProper (f args) := by
  unfold textFunction? at hf
  split at hf <;> cases hf
  · exact givesProper_len args
  · exact givesProper_onText args _ _
  · exact givesProper_onText args _ _
  · exact givesProper_onText args _ _
  · exact givesProper_onText args _ _
  · exact givesProper_onText args _ _
  · exact givesProper_partOfLength args _ _
  · exact givesProper_partOfLength args _ _
  · exact givesProper_mid args
  · exact givesProper_inStrFunction args
  · exact givesProper_replace args
  · exact givesProper_chr args
  · exact givesProper_asc args
  · exact givesProper_strFunction args
  · exact givesProper_val args
  · exact givesProper_space args
  · exact givesProper_format args
  · exact givesProper_isNullOrEmpty args

theorem givesProper_of_valueFunction? {key : String} {f : Function}
    (hf : valueFunction? key = some f) (hargs : key = "iif" → ∀ a ∈ args, a.isProper = true) :
    GivesProper (f args) := by
  unfold valueFunction? at hf
  split at hf <;> cases hf
  · exact givesProper_convert args _
  · exact givesProper_convert args _
  · exact givesProper_convert args _
  · exact givesProper_convert args _
  · exact givesProper_convert args _
  · exact givesProper_convert args _
  · exact givesProper_convert args _
  · exact givesProper_isNumericFunction args
  · exact givesProper_isNothingFunction args
  · exact givesProper_typeNameFunction args
  · exact givesProper_iif (hargs rfl)
  · exact givesProper_uBound args
  · exact givesProper_lBound args
  · exact givesProper_join args

theorem givesProper_of_numberFunction? {key : String} {f : Function}
    (hf : numberFunction? key = some f) : GivesProper (f args) := by
  unfold numberFunction? at hf
  split at hf <;> cases hf
  all_goals first
    | exact givesProper_abs args
    | exact givesProper_onDouble args _ _
    | exact givesProper_integral args _ _
    | exact givesProper_round args
    | exact givesProper_power args
    | exact givesProper_choose args _
    | exact givesProper_sign args
    | exact .ok rfl

theorem givesProper_of_dateFunction? {key : String} {f : Function}
    (hf : dateFunction? key = some f) : GivesProper (f args) := by
  unfold dateFunction? at hf
  split at hf <;> cases hf
  all_goals first
    | exact givesProper_datePart args _ _
    | exact givesProper_dateAdd args

/-- The built-in functions that compute give proper values, whatever their arguments, except for
`IIf`, whose arguments have to be proper. -/
theorem givesProper_of_function? {key : String} {f : Function} (hf : function? key = some f)
    (hargs : key = "iif" → ∀ a ∈ args, a.isProper = true) : GivesProper (f args) := by
  simp only [function?, Option.orElse_eq_orElse, Option.orElse_eq_or, Option.or_eq_some_iff] at hf
  obtain h | ⟨-, h | ⟨-, h | ⟨-, h⟩⟩⟩ := hf
  · exact givesProper_of_textFunction? h
  · exact givesProper_of_valueFunction? h hargs
  · exact givesProper_of_numberFunction? h
  · exact givesProper_of_dateFunction? h

/-! ### Methods of plain values -/

theorem givesProper_substring (method : String) (cs : List Char) (args : List Value) :
    GivesProper (substring method cs args) := by
  refine .bind fun _ => ?_
  dsimp only
  split
  · exact .bind fun _ => .ite (.error _) (.ok rfl)
  · exact .bind fun _ => .ite (.error _) (.ok rfl)

theorem givesProper_textMethod (method : String) (cs : List Char) (args : List Value) :
    GivesProper (textMethod method cs args) := by
  unfold textMethod
  split
  all_goals first
    | exact .ok rfl
    | exact givesProper_substring _ _ _
    | exact .bind fun _ => .ok rfl
    | exact .error _

theorem givesProper_arrayMethod (method : String) (elements args : List Value) :
    GivesProper (arrayMethod method elements args) := by
  unfold arrayMethod
  split
  · exact .ok rfl
  · exact .ok rfl
  · split <;> exact .ok rfl
  · exact .error _

theorem givesProper_toStringMethod (v : Value) (args : List Value) :
    GivesProper (toStringMethod v args) := by
  cases args with
  | nil => exact .ok rfl
  | cons mask args => exact givesProper_format _

theorem givesProper_valueMethod (v : Value) (method : String) (args : List Value) :
    GivesProper (valueMethod v method args) := by
  refine .ite (givesProper_toStringMethod v args) ?_
  split
  · exact givesProper_arrayMethod _ _ _
  · exact givesProper_textMethod _ _ _
  · exact .error _

end Library

/-! ### Names, elements and literals -/

theorem givesProper_indexOf (v : Value) (i : Int) : GivesProper (indexOf v i) := by
  unfold indexOf
  split
  · refine .ite (.error _) ?_
    split
    · exact .ok (Value.isProper_orNothing _)
    · exact .error _
  · refine .ite (.error _) ?_
    split
    · exact .ok rfl
    · exact .error _
  · exact .error _

theorem Expr.givesProper_of_literal? {e : Expr} {x : Fallible Value} (h : e.literal? = some x) :
    GivesProper x := by
  unfold literal? at h
  split at h <;> cases h
  all_goals first
    | exact .ok rfl
    | exact .map fun _ => rfl

end FormBasic
