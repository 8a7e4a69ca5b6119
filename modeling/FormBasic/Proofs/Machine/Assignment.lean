import FormBasic.Proofs.Arrays
import FormBasic.Proofs.Machine.FailurePropagation
import FormBasic.Proofs.Machine.Place

/-!
# Reading back what has been assigned

An assignment to a name that is no property is a single write: to the place at which the data of the
name is kept, or, if the name stands for nothing yet, to a field of the current object or a binding
in the innermost scope. Reading the name afterwards finds this place, though it looks for the name
in an order of its own, and in particular the new field or binding is the first thing it finds.

An assignment to an element of an array evaluates the indices between reading the array and writing
it back, and what is evaluated there may do anything. The array that is written is still made from
the one that was read before, and it is what the name stands for afterwards: wherever the name is
kept by then, it is data still (`State.Retains`), and so no property comes in between.

Whether an assignment ends well is another question. It does if the name is plain, that is no
property and no constant: then the name is a variable from then on, and can be assigned to again.

## Main definitions

* `State.IsPlain` — a name that is no property and no constant, bound or not
* `State.IsVariable` — a name that stands for data that can be assigned to

## Main results

* `Runner.writes_assignOr`, `Runner.writes_assign` — an assignment is a write
* `Runner.exists_assignBound`, `Runner.exists_assignOrDefine` — an assignment ends well
* `Runner.assigned_reads_back` — a name, or an element, that has been assigned
-/

namespace FormBasic

open Interp

/-! ### Runs that end well -/

namespace Interp

variable {α : Type} {s t : State}

theorem set_of_rebind {key : String} {v : Value} {u : Unit} (h : rebind key v s = .ok u t) :
    ∃ scopes, s.scopes.set key v = .ok scopes ∧ t = { s with scopes } := by
  cases hset : s.scopes.set key v with
  | error c => cases (rebind_of_error hset).symm.trans h
  | ok scopes =>
    cases (rebind_of_ok hset).symm.trans h
    exact ⟨scopes, rfl, rfl⟩

/-- A name that is bound cannot be rebound for another reason than being a constant. -/
theorem not_missing_of_rebind {key : String} {v : Value} {f : Failure}
    (hplace : (s.scopePlace? key).isSome = true) (h : rebind key v s = .error (.failure f) t) :
    f.isMissing = false := by
  have hbound : (s.scopes.binding? key).isSome = true := by
    rw [← hplace, ← State.isSome_lookup?, Scopes.lookup?, Option.isSome_map]
  cases hset : s.scopes.set key v with
  | error c =>
    cases (rebind_of_error hset).symm.trans h
    exact Scopes.not_missing_of_set hbound hset
  | ok scopes => cases (rebind_of_ok hset).symm.trans h

theorem withTags_apply (x : StateT Nat Fallible α) (s : State) :
    withTags x s = (lift (x.run s.heap.tags) >>= fun r => do
      modify fun s => { s with heap := { s.heap with tags := r.2 } }
      return r.1) s := rfl

theorem withTags_of_ok {x : StateT Nat Fallible α} {a : α} {tags : Nat}
    (h : x.run s.heap.tags = .ok (a, tags)) :
    withTags x s = .ok a { s with heap := { s.heap with tags } } := by
  rw [withTags_apply, h]
  rfl

theorem withTags_of_error {x : StateT Nat Fallible α} {c : Cause}
    (h : x.run s.heap.tags = .error c) : withTags x s = .error (.failure (.runtime c [])) s := by
  rw [withTags_apply, h]
  rfl

theorem run_of_withTags {x : StateT Nat Fallible α} {a : α} (h : withTags x s = .ok a t) :
    ∃ tags, x.run s.heap.tags = .ok (a, tags) ∧ t = { s with heap := { s.heap with tags } } := by
  cases hx : x.run s.heap.tags with
  | error c => cases (withTags_of_error hx).symm.trans h
  | ok result =>
    cases (withTags_of_ok hx).symm.trans h
    exact ⟨result.2, rfl, rfl⟩

end Interp

/-! ### Reading a name -/

namespace Runner

variable {run : Runner} {s t : State} {name : String} {v : Value} {p : Place}

/-- An unhidden name is read as its data. -/
theorem readName_of_data? (hname : s.Unhidden name) (hdata : s.data? name = some v) :
    run.readName name s = .ok v s := by
  rw [readName, get_bind_apply]
  split
  · next hlocal =>
    have hlookup : s.scopes.lookup? name = some v := by
      rw [State.data?, if_pos hlocal] at hdata
      exact hdata
    rw [Scopes.get, hlookup]
    rfl
  · next hlocal =>
    rw [hname.resolve_left hlocal, hdata]
    rfl

/-! ### Assignments are writes -/

/-- An assignment to a place is a write to it. -/
theorem writes_assignTo {target : Target} (hplace : s.targetPlace? name target = some p)
    (h : run.assignTo name v target s = .ok () t) : s.Writes p ⟨v, false⟩ t := by
  cases target with
  | binding key =>
    obtain ⟨scopes, hset, rfl⟩ := set_of_rebind h
    obtain ⟨q, hq, hwrites⟩ := State.writes_of_set hset
    cases hq.symm.trans hplace
    exact hwrites
  | field self =>
    cases h
    cases hplace
    exact s.writes_setField self name v
  | _ => cases hplace

/-- It does not fail because a name could not be found. -/
theorem not_missing_of_assignTo {target : Target} {f : Failure}
    (hplace : s.targetPlace? name target = some p)
    (h : run.assignTo name v target s = .error (.failure f) t) : f.isMissing = false := by
  cases target with
  | binding key => exact not_missing_of_rebind (Option.isSome_iff_exists.2 ⟨p, hplace⟩) h
  | field self => cases h
  | _ => cases hplace

/-- An assignment with a fallback that ends well has assigned, or has found nothing to assign to and
fallen back. -/
theorem cases_of_assignOr {y : Interp Unit} (h : run.assignOr name v y s = .ok () t) :
    run.assignBound name v s = .ok () t ∨
      ∃ f s', run.assignBound name v s = .error (.failure f) s' ∧ f.isMissing = true ∧
        y s' = .ok () t := by
  cases hassign : run.assignBound name v s with
  | ok u s' =>
    left
    have hfound : found? (run.assignBound name v) s = .ok (some u) s' := by
      simp only [Interp.found?, hassign]
    rw [assignOr, bind_of_ok _ hfound] at h
    cases h
    rfl
  | error e s' =>
    cases e with
    | outOfFuel =>
      have hfound : found? (run.assignBound name v) s = .error .outOfFuel s' := by
        simp only [Interp.found?, hassign]
      rw [assignOr, bind_of_error _ hfound] at h
      cases h
    | failure f =>
      rw [assignOr_of_error y hassign] at h
      split at h
      · next hf => exact .inr ⟨f, s', rfl, hf, h⟩
      · cases h

/-- An assignment to data is a write to its place. -/
theorem writes_assignBound {fuel : Nat} (hname : s.Unhidden name)
    (hplace : s.place? name = some p) (h : (withFuel fuel).assignBound name v s = .ok () t) :
    s.Writes p ⟨v, false⟩ t := by
  cases fuel with
  | zero => cases h
  | succ fuel =>
    have hassign : (withFuel fuel).assignTo name v (s.target name) s = .ok () t := h
    exact writes_assignTo ((State.targetPlace?_target hname).trans hplace) hassign

/-- This is so whatever the fallback is. -/
theorem writes_assignOr {fuel : Nat} {y : Interp Unit} (hname : s.Unhidden name)
    (hplace : s.place? name = some p) (h : (withFuel fuel).assignOr name v y s = .ok () t) :
    s.Writes p ⟨v, false⟩ t := by
  rcases cases_of_assignOr h with hassign | ⟨f, s', hassign, hmissing, -⟩
  · exact writes_assignBound hname hplace hassign
  · cases fuel with
    | zero => cases hassign
    | succ fuel =>
      have hassign : (withFuel fuel).assignTo name v (s.target name) s =
        .error (.failure f) s' := hassign
      have hnot := not_missing_of_assignTo ((State.targetPlace?_target hname).trans hplace) hassign
      rw [hmissing] at hnot
      cases hnot

/-- An assignment to a name that stands for nothing falls back. -/
theorem assignOr_of_nothing {fuel : Nat} {y : Interp Unit}
    (hproperty : (s.target name).isProperty = false) (hplace : s.place? name = none) :
    (withFuel (fuel + 1)).assignOr name v y s = y s := by
  have hassign : (withFuel (fuel + 1)).assignBound name v s =
      .error (.failure (.runtime (.undefinedVariable name) [])) s := by
    show (withFuel fuel).assignTo name v (s.target name) s = _
    rw [State.target_eq_missing hproperty hplace]
    rfl
  exact assignOr_of_error y hassign

/-- A new field of the current object is where its name is found. -/
theorem place?_setField {self : ObjectRef} (hself : s.context.self = some self)
    (hplace : s.place? name = none) :
    State.place? { s with heap := s.heap.set self name v } name =
      some (.field self.index (Text.lower name)) := by
  have hlevel := State.level?_eq_none hplace
  have hwritten := (s.writes_setField self name v).written
  generalize ht : { s with heap := s.heap.set self name v } = t at hwritten ⊢
  refine State.place?_of_fieldPlace? (by rw [← ht]; exact hlevel) ?_
  refine Option.filter_eq_some_iff.2 ⟨?_, by rw [hwritten]; rfl⟩
  rw [← ht]
  exact congrArg (Option.map _) hself

/-- A name that stood for nothing is found where it has been bound. -/
theorem writes_define (hplace : s.place? name = none) (v : Value) :
    ∃ p, s.Writes p ⟨v, false⟩ { s with scopes := s.scopes.define name v } ∧
      State.place? { s with scopes := s.scopes.define name v } name = some p := by
  obtain ⟨p, hwrites, hscope⟩ := s.writes_updateCurrent (Text.lower name) ⟨v, false⟩
  refine ⟨p, hwrites, State.place?_of_scopePlace? ?_ (hscope name rfl)⟩
  rw [State.fieldPlace?_scopes, State.fieldPlace?_eq_none hplace]

/-- An assignment that runs no accessor is a write to what is the place of the name from then on. -/
theorem writes_assign {fuel : Nat} (hproperty : (s.target name).isProperty = false)
    (h : (withFuel fuel).assign name v s = .ok () t) :
    ∃ p, s.Writes p ⟨v, false⟩ t ∧ t.place? name = some p := by
  cases hplace : s.place? name with
  | some p =>
    have hwrites := writes_assignOr (State.unhidden_of_target hproperty) hplace h
    exact ⟨p, hwrites, hwrites.place?_self hplace⟩
  | none =>
    cases fuel with
    | zero => cases h
    | succ fuel =>
      rw [assign, assignOr_of_nothing hproperty hplace, get_bind_apply] at h
      cases hself : s.context.self with
      | some self =>
        rw [hself] at h
        cases h
        exact ⟨_, s.writes_setField self name v, place?_setField hself hplace⟩
      | none =>
        rw [hself] at h
        cases h
        exact writes_define hplace v

end Runner

/-! ### Variables -/

/-- A name stands for a variable: for data that no property hides and that is no constant. -/
def State.IsVariable (s : State) (name : String) : Prop :=
  s.Unhidden name ∧ ∃ p b, s.place? name = some p ∧ s.kept? p = some b ∧ b.isConst = false

/-- It is one whatever tags have been given out. -/
theorem State.IsVariable.withTags {s : State} {name : String} (h : s.IsVariable name)
    (tags : Nat) : State.IsVariable { s with heap := { s.heap with tags } } name := h

/-- A name is no property and no constant. It may stand for nothing. -/
structure State.IsPlain (s : State) (name : String) : Prop where
  property : (s.target name).isProperty = false
  constant : ∀ p b, s.place? name = some p → s.kept? p = some b → b.isConst = false

namespace Runner

variable {run : Runner} {s t : State} {name : String} {v : Value} {p : Place} {b : Binding}

theorem exists_assignTo {target : Target} (hplace : s.targetPlace? name target = some p)
    (hb : s.kept? p = some b) (hconst : b.isConst = false) (v : Value) :
    ∃ t, ∀ run : Runner, run.assignTo name v target s = .ok () t := by
  cases target with
  | binding key =>
    have hplace : s.scopePlace? key = some p := hplace
    have hbinding : s.scopes.binding? key = some b := by
      rw [State.binding?_eq_kept?, hplace]
      exact hb
    obtain ⟨scopes, hset⟩ := Scopes.exists_set_of_binding? hbinding hconst v
    exact ⟨_, fun _ => rebind_of_ok hset⟩
  | field self => exact ⟨_, fun _ => rfl⟩
  | _ => cases hplace

/-- What has been written is no constant. -/
theorem isVariable_of_writes (hname : s.Unhidden name) (h : s.Writes p ⟨v, false⟩ t)
    (hplace : t.place? name = some p) : t.IsVariable name :=
  ⟨(State.Retains.of_writes h).unhidden hname, p, _, hplace, h.written, rfl⟩

/-- A variable can be assigned to with any fuel. It stays a variable, and stands for the value from
then on. -/
theorem exists_assignBound (h : s.IsVariable name) (v : Value) :
    ∃ t, (∀ fuel, (withFuel (fuel + 1)).assignBound name v s = .ok () t) ∧ t.IsVariable name ∧
      t.data? name = some v := by
  obtain ⟨hname, p, b, hplace, hb, hconst⟩ := h
  obtain ⟨t, ht⟩ := exists_assignTo ((State.targetPlace?_target hname).trans hplace) hb hconst v
  have hassign : ∀ fuel, (withFuel (fuel + 1)).assignBound name v s = .ok () t :=
    fun fuel => ht (withFuel fuel)
  have hwrites := writes_assignBound hname hplace (hassign 0)
  have hplace' := hwrites.place?_self hplace
  exact ⟨t, hassign, isVariable_of_writes hname hwrites hplace', hwrites.data?_self hplace'⟩

theorem assignOr_of_ok (y : Interp Unit) (h : run.assignBound name v s = .ok () t) :
    run.assignOr name v y s = .ok () t := by
  have hfound : found? (run.assignBound name v) s = .ok (some ()) t := by
    simp only [Interp.found?, h]
  exact bind_of_ok _ hfound

/-- The fallback is not needed then. -/
theorem exists_assignOr (y : Interp Unit) (h : s.IsVariable name) (v : Value) :
    ∃ t, (∀ fuel, (withFuel (fuel + 1)).assignOr name v y s = .ok () t) ∧ t.IsVariable name ∧
      t.data? name = some v := by
  obtain ⟨t, ht, hvariable⟩ := exists_assignBound h v
  exact ⟨t, fun fuel => assignOr_of_ok y (ht fuel), hvariable⟩

/-- A plain name is a variable as soon as something has been assigned to it. -/
theorem exists_assignOrDefine (h : s.IsPlain name) (v : Value) :
    ∃ t, (∀ fuel, (withFuel (fuel + 1)).assignOrDefine name v s = .ok () t) ∧ t.IsVariable name ∧
      t.data? name = some v := by
  have hname := State.unhidden_of_target h.property
  cases hplace : s.place? name with
  | some p =>
    obtain ⟨b, hb⟩ := Option.isSome_iff_exists.1 (State.isSome_kept?_of_place? hplace)
    exact exists_assignOr _ ⟨hname, p, b, hplace, hb, h.constant p b hplace hb⟩ v
  | none =>
    obtain ⟨p, hwrites, hplace'⟩ := writes_define hplace v
    exact ⟨_, fun _ => assignOr_of_nothing h.property hplace,
      isVariable_of_writes hname hwrites hplace', hwrites.data?_self hplace'⟩

end Runner

/-! ### Elements of arrays -/

namespace Runner

variable {s t : State} {name : String} {v : Value}

/-- The element of an array that has been assigned is replaced in the array that was read before the
indices. -/
theorem replaced_assignElement {fuel : Nat} {es : List Expr} (hname : s.Unhidden name)
    (h : (withFuel fuel).assignElement name es v s = .ok () t) :
    ∃ current indices s₁ updated, s.data? name = some current ∧
      (withFuel fuel).bounds es s = .ok indices s₁ ∧ Value.Replaced v current indices updated ∧
      t.data? name = some updated := by
  rw [assignElement, get_bind_apply] at h
  cases hdata : s.data? name with
  | none =>
    rw [hdata] at h
    cases h
  | some current =>
    rw [hdata] at h
    dsimp only at h
    split at h
    · cases h
    · obtain ⟨indices, s₁, hbounds, h⟩ := exists_of_bind_ok h
      obtain ⟨updated, s₂, htags, h⟩ := exists_of_bind_ok h
      obtain ⟨tags, hupdated, hs₂⟩ := run_of_withTags htags
      have hretains : s.Retains s₂ :=
        (State.Retains.of_ok ((related_retention fuel).on.bounds fun _ _ => trivial) hbounds).trans
          (.of_calm (hs₂ ▸ .of_eq rfl))
      have hsome : (s.place? name).isSome = true := by
        rw [← State.isSome_data?, hdata]
        rfl
      obtain ⟨p, hp⟩ := Option.isSome_iff_exists.1 (hretains.isSome_place? hsome)
      have hwrites := writes_assignBound (hretains.unhidden hname) hp h
      exact ⟨current, indices, s₁, updated, rfl, hbounds, Value.replaced_of_withElement hupdated,
        hwrites.data?_self (hwrites.place?_self hp)⟩

/-- A name that is no property reads as what has been assigned to it, and the assignment is a single
write without an effect. If an element is assigned, the name stands for the array that was read
before the indices, with the element replaced. -/
theorem assigned_reads_back (fuel : Nat) (s : State) (name : String)
    (hown : s.ownProperty? name = none) (hmodule : s.moduleProperty? name = none) :
    (∀ v t, (withFuel fuel).assign name v s = .ok () t →
      (∃ p, s.Writes p ⟨v, false⟩ t) ∧ t.effects = s.effects ∧
        ∀ fuel', (withFuel fuel').readName name t = .ok v t) ∧
    (∀ es v t, (withFuel fuel).assignElement name es v s = .ok () t →
      ∃ current indices s₁ updated, s.data? name = some current ∧
        (withFuel fuel).bounds es s = .ok indices s₁ ∧ Value.Replaced v current indices updated ∧
        t.data? name = some updated) := by
  refine ⟨fun v t h => ?_, fun es v t h => replaced_assignElement (.inr hown) h⟩
  obtain ⟨p, hwrites, hplace⟩ := writes_assign (State.isProperty_target hown hmodule) h
  refine ⟨⟨p, hwrites⟩, by rw [hwrites.rest], fun fuel' => ?_⟩
  have hname := (State.Retains.of_writes hwrites).unhidden (.inr hown)
  exact readName_of_data? hname (hwrites.data?_self hplace)

/-- Two elements under a global name. -/
def pairState : State :=
  { scopes := { globals := Table.insert ∅ "x" ⟨.array 0 [.boolean true, .boolean false], false⟩ } }

/-- They are replaced by a text, and the second of them by another one. -/
theorem assigned_reads_back_pair :
    (∃ t, (withFuel 2).assign "X" (.text "a") pairState = .ok () t ∧
      ∀ fuel', (withFuel fuel').readName "X" t = .ok (.text "a") t) ∧
    ∃ t updated, (withFuel 2).assignElement "X" [.integer 1] (.text "b") pairState = .ok () t ∧
      Value.Replaced (.text "b") (.array 0 [.boolean true, .boolean false]) [1] updated ∧
      t.data? "X" = some updated := by
  obtain ⟨hassign, helement⟩ := assigned_reads_back 2 pairState "X" rfl rfl
  refine ⟨⟨_, rfl, (hassign _ _ rfl).2.2⟩, ?_⟩
  obtain ⟨current, indices, s₁, updated, hdata, hbounds, hreplaced, ht⟩ :=
    helement [.integer 1] (.text "b") _ rfl
  cases hdata
  cases hbounds
  exact ⟨_, updated, rfl, hreplaced, ht⟩

end Runner

end FormBasic
