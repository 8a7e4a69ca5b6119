import FormBasic.Operation

/-!
# Equality of values

One equality serves `=`, `<>` and `Case`, on values of any two variants. The rule for a pair of
variants is found by looking at the left value first, but each rule that is stated for a left value
of some variant has a twin for a right one, and where none applies the two numbers are compared. So
the order of the operands makes no difference, if it makes none for two numbers and for two texts.
For texts this is so because they are compared by their case classes.

Numbers are compared as IEEE numbers are: what is no number equals nothing, itself included, and the
two zeros are equal. Such an equality is not reflexive, but it is symmetric, since the order from
which it comes turns around when the operands are exchanged.

## Main results

* `compare_swap` — the order of two floating-point numbers, seen from the other one
* `Value.equal_comm` — equality is symmetric
* `Operator.equality_symmetric` — so are the operators, and one is the negation of the other
-/

namespace FormBasic

/-! ### Numbers -/

open Float.Model (UnpackedFloat)

/-- Seen from the other operand, the order of two numbers is turned around. -/
theorem compare_swap (a b : UnpackedFloat) : (a.compare b).map Ordering.swap = b.compare a := by
  cases a with
  | notANumber => cases b <;> rfl
  | infinity s =>
    cases b with
    | infinity t => cases s <;> cases t <;> rfl
    | _ => cases s <;> rfl
  | zero s =>
    cases b with
    | infinity t => cases t <;> rfl
    | finite t => cases t <;> rfl
    | _ => rfl
  | finite s m e =>
    cases b with
    | infinity t => cases s <;> cases t <;> rfl
    | finite t n f =>
      have hswap : ((compare e f).then (compare m n)).swap = (compare f e).then (compare n m) := by
        rw [Ordering.swap_then, Int.compare_swap, Nat.compare_swap]
      cases s with
      | positive => cases t with
        | positive => exact congrArg some hswap
        | negative => rfl
      | negative => cases t with
        | positive => rfl
        | negative => exact congrArg some (congrArg Ordering.swap hswap)
    | _ => cases s <;> rfl

/-- Two numbers are equal in both orders or in none. -/
theorem beq_unpacked_comm (a b : UnpackedFloat) : a.beq b = b.beq a := by
  change (a.compare b == some .eq) = (b.compare a == some .eq)
  rw [← compare_swap a b]
  cases a.compare b with
  | none => rfl
  | some order => cases order <;> rfl

theorem beq_double_comm (a b : Float) : (a == b) = (b == a) := beq_unpacked_comm _ _

theorem beq_single_comm (a b : Float32) : (a == b) = (b == a) := beq_unpacked_comm _ _

/-! ### Values -/

namespace Value

theorem numbersEqual_comm (l r : Value) : numbersEqual l r = numbersEqual r l := by
  unfold numbersEqual
  cases asDouble l with
  | error => cases asDouble r <;> rfl
  | ok a =>
    cases asDouble r with
    | error => rfl
    | ok b => exact beq_double_comm a b

/-- The rule for a pair of variants is the one for the pair in the other order: for two values of
one variant since they are compared as that variant is, and otherwise it has a twin or is the
comparison of numbers. -/
theorem equalProper_comm (l r : Value) : equalProper l r = equalProper r l := by
  have hnumbers := numbersEqual_comm l r
  cases l with
  | text s =>
    cases r with
    | text t => exact Text.equalFold_comm s t
    | _ => rfl
  | boolean a =>
    cases r with
    | boolean b => exact Bool.beq_comm
    | text | integer | long => rfl
    | _ => exact hnumbers
  | integer a =>
    cases r with
    | integer b => exact BEq.comm
    | text | boolean => rfl
    | _ => exact hnumbers
  | long a =>
    cases r with
    | long b => exact BEq.comm
    | text | boolean => rfl
    | _ => exact hnumbers
  | single a =>
    cases r with
    | single b => exact beq_single_comm a b
    | text => rfl
    | _ => exact hnumbers
  | double a =>
    cases r with
    | double b => exact beq_double_comm a b
    | text => rfl
    | _ => exact hnumbers
  | date a =>
    cases r with
    | date b => exact beq_double_comm a b
    | text => rfl
    | _ => exact hnumbers
  | nothing =>
    cases r with
    | nothing | text => rfl
    | _ => exact hnumbers
  | object a =>
    cases r with
    | object b => exact BEq.comm
    | text => rfl
    | _ => exact hnumbers
  | array tag elements =>
    cases r with
    | array tag' elements' => exact BEq.comm
    | text => rfl
    | _ => exact hnumbers
  | absent =>
    cases r with
    | text => rfl
    | _ => exact hnumbers

/-- Equality is symmetric. -/
theorem equal_comm (l r : Value) : l.equal r = r.equal l := equalProper_comm _ _

end Value

/-! ### Operators -/

theorem Value.orNothing_orNothing (v : Value) : v.orNothing.orNothing = v.orNothing := by
  cases v <;> rfl

/-- An omitted operand counts as `Nothing` in both readings of it. -/
theorem Value.equal_orNothing (l r : Value) : l.orNothing.equal r.orNothing = l.equal r := by
  rw [equal, orNothing_orNothing, orNothing_orNothing, ← equal]

/-- Equality does not depend on the order of the operands, nor does what `=` gives; and `<>` gives
the negation. Neither operator fails, whatever the operands are. -/
theorem Operator.equality_symmetric (l r : Value) :
    l.equal r = r.equal l ∧
    Operator.equal.apply l r = Operator.equal.apply r l ∧
    Operator.equal.apply l r = .ok (.boolean (l.equal r)) ∧
    Operator.notEqual.apply l r = .ok (.boolean (!l.equal r)) := by
  have hequal : ∀ l r, Operator.equal.apply l r = .ok (.boolean (l.equal r)) := fun l r =>
    congrArg (fun b => Except.ok (Value.boolean b)) (Value.equal_orNothing l r)
  have hnotEqual : Operator.notEqual.apply l r = .ok (.boolean (!l.equal r)) :=
    congrArg (fun b => Except.ok (Value.boolean !b)) (Value.equal_orNothing l r)
  refine ⟨Value.equal_comm l r, ?_, hequal l r, hnotEqual⟩
  rw [hequal, hequal, Value.equal_comm]

end FormBasic
