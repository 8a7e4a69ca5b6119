import FormBasic.Proofs.Machine.Watch

/-!
# Conditions that runs keep

A program changes bindings and its context, and whatever else it changes it changes calmly. So a
condition that calm changes keep, and that asks nothing of the bindings and the context, holds
throughout every run from a state in which it holds. That the same is declared is such a condition,
and so is that the same has been imported: both are for the host to change.

## Main results

* `conditionRelation` — two runs that are the same where a condition holds, and keep it
* `Runner.related_condition` — every run keeps a condition
* `Runner.always_of_condition` — what a condition implies holds of every request
-/

namespace FormBasic

open Interp

/-- A condition that calm changes keep, whatever the bindings and the context are. -/
structure StateCondition where
  Holds : State → Prop
  calm : ∀ {s t}, s.Calm t → Holds s → Holds t
  frame : ∀ {s : State} (context : Context) (scopes : Scopes), Holds s →
    Holds { s with context, scopes }

/-- The same is declared. -/
def StateCondition.declared (declarations : Declarations) : StateCondition where
  Holds s := s.declarations = declarations
  calm hcalm h := hcalm.declarations.trans h
  frame _ _ h := h

/-- The same has been imported. -/
def StateCondition.importing (imports : Imports) : StateCondition where
  Holds s := s.imports = imports
  calm hcalm h := hcalm.imports.trans h
  frame _ _ h := h

section
variable {α β : Type} {C : StateCondition} {x y : Interp α}

/-- Two runs that are the same from states in which a condition holds, and keep it. -/
def Interp.AgreeWhere (C : StateCondition) (x y : Interp α) : Prop :=
  ∀ s, C.Holds s → x s = y s ∧ C.Holds (x.after s)

namespace Interp.AgreeWhere

theorem of_keeps (h : ∀ s, C.Holds s → C.Holds (x.after s)) : AgreeWhere C x x :=
  fun s hs => ⟨rfl, h s hs⟩

theorem of_quietAt (h : ∀ s, x.QuietAt s) : AgreeWhere C x x :=
  of_keeps fun s hs => C.calm (h s).1 hs

theorem updateScopes (f : Scopes → Scopes) :
    AgreeWhere C (Interp.updateScopes f) (Interp.updateScopes f) :=
  of_keeps fun s hs => C.frame s.context _ hs

theorem bind {k l : α → Interp β} (hx : AgreeWhere C x y) (hk : ∀ a, AgreeWhere C (k a) (l a)) :
    AgreeWhere C (x >>= k) (y >>= l) := by
  intro s hs
  obtain ⟨heq, hs'⟩ := hx s hs
  cases hr : x s with
  | ok a s' =>
    rw [after_of_ok hr] at hs'
    rw [after, bind_of_ok k hr, bind_of_ok l (heq.symm.trans hr)]
    exact hk a s' hs'
  | error e s' =>
    rw [after_of_error hr] at hs'
    rw [after, bind_of_error k hr, bind_of_error l (heq.symm.trans hr)]
    exact ⟨rfl, hs'⟩

theorem found? (h : AgreeWhere C x y) : AgreeWhere C (Interp.found? x) (Interp.found? y) := by
  intro s hs
  obtain ⟨heq, hs'⟩ := h s hs
  rw [after_found?]
  exact ⟨by simp only [Interp.found?, heq], hs'⟩

theorem attempt (h : AgreeWhere C x y) : AgreeWhere C (Interp.attempt x) (Interp.attempt y) := by
  intro s hs
  obtain ⟨heq, hs'⟩ := h s hs
  rw [after_attempt]
  exact ⟨by simp only [Interp.attempt, heq], hs'⟩

theorem onFailure (f : Failure → Failure) (h : AgreeWhere C x y) :
    AgreeWhere C (Interp.onFailure f x) (Interp.onFailure f y) := by
  intro s hs
  obtain ⟨heq, hs'⟩ := h s hs
  rw [after_onFailure]
  exact ⟨by simp only [Interp.onFailure, heq], hs'⟩

theorem inScope (h : AgreeWhere C x y) : AgreeWhere C (Interp.inScope x) (Interp.inScope y) := by
  intro s hs
  obtain ⟨heq, hs'⟩ := h { s with scopes := s.scopes.push } (C.frame s.context _ hs)
  rw [after_inScope]
  exact ⟨by simp only [Interp.inScope, heq], C.frame _ _ hs'⟩

theorem inContext (d : Detour) (h : AgreeWhere C x y) :
    AgreeWhere C (Interp.inContext d x) (Interp.inContext d y) := by
  intro s hs
  obtain ⟨heq, hs'⟩ := h { s with context := d.enter s.context } (C.frame _ s.scopes hs)
  rw [after_inContext]
  exact ⟨by simp only [Interp.inContext, heq], C.frame _ _ hs'⟩

theorem inCall (c : Callable) (self : Option ObjectRef) (classContext : String)
    (h : AgreeWhere C x y) :
    AgreeWhere C (Interp.inCall c self classContext x) (Interp.inCall c self classContext y) := by
  intro s hs
  rw [after_inCall, inCall_apply, inCall_apply]
  split
  · exact ⟨rfl, hs⟩
  · exact (h.onFailure (·.leave c.name)).inScope.inContext (c.detour self classContext) s hs

theorem rebind (key : String) (v : Value) :
    AgreeWhere C (Interp.rebind key v) (Interp.rebind key v) := by
  refine of_keeps fun s hs => ?_
  obtain h | ⟨scopes, -, h⟩ := after_rebind key v s
  · rwa [h]
  · rw [h]
    exact C.frame s.context scopes hs

end Interp.AgreeWhere

end

/-- Agreement where a condition holds is a relation that the machine respects. -/
def conditionRelation (C : StateCondition) : RunRelation where
  Rel := AgreeWhere C
  quiet h := .of_quietAt h.quietAt
  bind := AgreeWhere.bind
  read _ h := .bind (.of_quietAt quietAt_get) fun s => h s trivial
  bindCurrent _ _ := .updateScopes _
  bindGlobal _ _ := .updateScopes _
  foundOr _ h := h.found?.bind fun
    | some a => .of_quietAt (quietAt_pure a)
    | none => .of_quietAt (quietAt_throw _)
  entering _ h := h.inContext _
  inCall := AgreeWhere.inCall
  outOfFuel := .of_keeps fun _ hs => hs

theorem conditionRelation_admits (C : StateCondition) (q : Request) :
    (conditionRelation C).Admits q where
  rebinds _ := AgreeWhere.rebind
  forgives _ := AgreeWhere.found?
  catches _ := AgreeWhere.attempt
  rethrows _ {_} x := AgreeWhere.of_quietAt (quietAt_resume x)

namespace Runner

variable {C : StateCondition} {fuel : Nat}

/-- Every run keeps a condition. -/
theorem related_condition (C : StateCondition) (fuel : Nat) :
    Related (conditionRelation C) (withFuel fuel) (withFuel fuel) :=
  related_withFuel (conditionRelation_admits C) fuel

/-- Where a condition holds, it makes no difference whether what it implies is tested. -/
theorem related_tested_condition {test : Test} (htest : ∀ q s r, C.Holds s → test q s r = true)
    (alarm : Alarm) (fuel : Nat) :
    Related (conditionRelation C) (watched test alarm fuel) (withFuel fuel) := by
  rw [← watched_true (fun _ => outOfFuel) fuel]
  refine related_watched (fun {run run'} hrel q s hs => ?_) fuel
  have hx : tested test alarm q (run.step q) s = run.step q s := if_pos (htest q s _ hs)
  rw [after_tested, if_pos (htest q s _ hs), hx]
  exact hrel.step (conditionRelation_admits C q) s hs

/-- What a condition implies holds of every request of a run from a state in which it holds. -/
theorem always_of_condition {α : Type} {x : Runner → Interp α} {test : Test} {s : State}
    (hx : ∀ {run run'}, Related (conditionRelation C) run run' → AgreeWhere C (x run) (x run'))
    (htest : ∀ q s r, C.Holds s → test q s r = true) (hs : C.Holds s) : Always test fuel x s :=
  fun alarm => (hx (related_tested_condition htest alarm fuel) s hs).1

end Runner

end FormBasic
