import FormBasic.Proofs.Machine.Quiet

/-!
# Relations that the machine respects

A statement about all runs of programs is an induction over the whole machine, and most cases of
that induction have nothing to do with the statement: evaluating an argument list keeps whatever
evaluating one argument keeps. So the machine is taken apart once. A `StepRelation` is a relation
between two runs of one type that is closed under the building blocks of the machine, and the
modules that follow show that every step of the machine respects every such relation.

The relation is between two runs because the induction serves two purposes. With one run on both
sides it says what the run does to the state; with the runs of two runners it says that the
difference between the runners does not matter. It may look at the runs from some states only, those
in which `Inv` holds; what a run reads of the state it reads of such a state.

## What is optional

Some building blocks are not among the closure properties, since the relations that are of interest
differ in them. `Rebinds` is for the bindings that assignments change, `Forgives` for the
assignments that take a name that could not be found for a target that does not exist yet, `Renames`
for the names that stand for calls, `Catches` and `Rethrows` for `Try`, `BindsCurrent` for the names
that are bound in the innermost scope, and `Enters` for the context in which the fields of a new
instance are set. A relation that follows failures outwards lacks `Forgives` and `Catches`, and one
that watches over bindings lacks `Rebinds` or `BindsCurrent`.

Most relations of interest are closed under more: a `BindingRelation` looks at the runs from all
states and is closed under all bindings other than assignments, and a `RunRelation` under calls and
failing anew as well. A `LoadRelation` is closed under what only loading and the host do, imports
apart, a `HostRelation` under all that these do, and a `SessionRelation` is both a `HostRelation`
and a `RunRelation`.

## Main definitions

* `StepRelation`, `BindingRelation`, `RunRelation`, `LoadRelation`, `HostRelation`,
  `SessionRelation` — relations on runs with their closure properties
* `StepRelation.Rebinds`, `StepRelation.Forgives`, `StepRelation.Renames`, `StepRelation.Catches` —
  closure under `Interp.rebind`, `Interp.found?`, `Interp.foundOr` and `Interp.attempt`
-/

namespace FormBasic

open Interp

/-! ### Detours other than calls -/

namespace Detour

/-- The active procedures are left alone, at the start and at the end. -/
structure KeepsFrames (d : Detour) : Prop where
  enter : ∀ ctx, (d.enter ctx).frames = ctx.frames := by exact fun _ => rfl
  leave : ∀ before ctx, (d.leave before ctx).frames = ctx.frames := by exact fun _ _ => rfl

/-- The current object and the class whose method is running are left alone. -/
structure KeepsObject (d : Detour) : Prop where
  self : ∀ ctx, (d.enter ctx).self = ctx.self := by exact fun _ => rfl
  classContext : ∀ ctx, (d.enter ctx).classContext = ctx.classContext := by exact fun _ => rfl

theorem keepsFrames_withBlock (v : Value) : (withBlock v).KeepsFrames where

theorem keepsFrames_handling (r : ObjectRef) : (handling r).KeepsFrames where

theorem keepsFrames_setting (r : ObjectRef) (className : String) :
    (setting r className).KeepsFrames where

theorem keepsFrames_inModule (name : String) : (inModule name).KeepsFrames where

theorem keepsObject_withBlock (v : Value) : (withBlock v).KeepsObject where

theorem keepsObject_handling (r : ObjectRef) : (handling r).KeepsObject where

end Detour

/-- A relation between runs that is closed under the building blocks of evaluation and execution. -/
structure StepRelation where
  /-- What holds of the states from which the runs are looked at. -/
  Inv : State → Prop
  Rel : {α : Type} → Interp α → Interp α → Prop
  quiet : ∀ {α : Type} {x : Interp α}, x.Quiet → Rel x x
  bind : ∀ {α β : Type} {x y : Interp α} {k l : α → Interp β},
    Rel x y → (∀ a, Rel (k a) (l a)) → Rel (x >>= k) (y >>= l)
  /-- Runs that read the state first, without a look at the console session and the queue. -/
  read : ∀ {α : Type} {k l : State → Interp α}, Blind k → (∀ s, Inv s → Rel (k s) (l s)) →
    Rel (get >>= k) (get >>= l)
  /-- Changes of context that leave the active procedures, the current object and the class whose
  method is running alone. -/
  inContext : ∀ {α : Type} {x y : Interp α} {d : Detour}, d.KeepsFrames → d.KeepsObject → Rel x y →
    Rel (Interp.inContext d x) (Interp.inContext d y)
  /-- Global bindings of names that stand for nothing. -/
  publish : ∀ (name : String) (v : Value) {s : State}, Inv s → s.scopes.lookup? name = none →
    Rel (updateScopes (·.defineGlobal name v)) (updateScopes (·.defineGlobal name v))

/-- A relation between the runs from all states that is closed under all bindings other than
assignments. -/
structure BindingRelation extends StepRelation where
  Inv _ := True
  always : ∀ s, Inv s := by exact fun _ => trivial
  /-- Bindings made in the innermost scope. -/
  bindCurrent : ∀ (key : String) (b : Binding),
    Rel (updateScopes (·.updateCurrent (·.insert key b)))
      (updateScopes (·.updateCurrent (·.insert key b)))
  /-- Bindings made in the global scope. -/
  bindGlobal : ∀ (key : String) (b : Binding),
    Rel (updateScopes fun s => { s with globals := s.globals.insert key b })
      (updateScopes fun s => { s with globals := s.globals.insert key b })
  publish _ _ _ _ _ := bindGlobal _ _
  /-- Changes of context other than calls. -/
  entering : ∀ {α : Type} {x y : Interp α} {d : Detour}, d.KeepsFrames → Rel x y →
    Rel (Interp.inContext d x) (Interp.inContext d y)
  inContext h _ := entering h

/-- A relation that is also closed under calls and under failing anew. -/
structure RunRelation extends BindingRelation where
  foundOr : ∀ {α : Type} {x y : Interp α} (c : Cause),
    Rel x y → Rel (Interp.foundOr x c) (Interp.foundOr y c)
  inCall : ∀ {α : Type} {x y : Interp α} (c : Callable) (self : Option ObjectRef)
    (classContext : String), Rel x y →
    Rel (Interp.inCall c self classContext x) (Interp.inCall c self classContext y)
  outOfFuel : ∀ {α : Type}, Rel (Interp.outOfFuel : Interp α) Interp.outOfFuel

/-- A relation that is closed under all changes of the state other than those of the bindings, the
context and the imports: declarations, and effects that the host takes from the queue. -/
structure LoadRelation extends BindingRelation where
  arrange : ∀ {α : Type} {f : State → α × State},
    (∀ s, (f s).2.context = s.context ∧ (f s).2.scopes = s.scopes ∧
      (f s).2.imports = s.imports) →
    Rel (modifyGet f) (modifyGet f)

/-- A relation that is closed under changes of the imports as well. -/
structure HostRelation extends LoadRelation where
  administer : ∀ {α : Type} {f : State → α × State},
    (∀ s, (f s).2.context = s.context ∧ (f s).2.scopes = s.scopes) →
    Rel (modifyGet f) (modifyGet f)
  arrange h := administer fun s => ⟨(h s).1, (h s).2.1⟩

/-- A relation that is closed under what programs do and under what the host does. -/
structure SessionRelation extends RunRelation, HostRelation

namespace StepRelation

variable (L : StepRelation) {α β : Type}

/-! ### Optional closure properties -/

/-- Closure under rebinding names. -/
def Rebinds : Prop := ∀ (key : String) (v : Value), L.Rel (rebind key v) (rebind key v)

/-- Closure under taking a missing name for an answer. -/
def Forgives : Prop := ∀ {α : Type} {x y : Interp α}, L.Rel x y → L.Rel (found? x) (found? y)

/-- Closure under failing with another cause if a name could not be found. -/
def Renames : Prop := ∀ {α : Type} {x y : Interp α} (c : Cause),
  L.Rel x y → L.Rel (foundOr x c) (foundOr y c)

/-- Closure under taking a failure for an answer. -/
def Catches : Prop := ∀ {α : Type} {x y : Interp α}, L.Rel x y → L.Rel (attempt x) (attempt y)

/-- Closure under raising a failure again that was taken for an answer. -/
def Rethrows : Prop := ∀ {α : Type} (x : Except Failure α), L.Rel (resume x) (resume x)

/-- Closure under binding a name in the innermost scope. -/
def BindsCurrent (name : String) : Prop := ∀ b : Binding,
  L.Rel (updateScopes (·.updateCurrent (·.insert (Text.lower name) b)))
    (updateScopes (·.updateCurrent (·.insert (Text.lower name) b)))

/-- Closure under a change of the current object. -/
def Enters : Prop := ∀ {α : Type} {x y : Interp α} {d : Detour}, d.KeepsFrames → L.Rel x y →
  L.Rel (Interp.inContext d x) (Interp.inContext d y)

/-! ### Building blocks -/

theorem pure (a : α) : L.Rel (pure a : Interp α) (Pure.pure a) := L.quiet (quiet_pure a)

theorem throw (f : Failure) (hf : f.isFresh = true)
    (habandoned : f ≠ .abandoned := by exact nofun) :
    L.Rel (throw (.failure f) : Interp α) (MonadExcept.throw (.failure f)) :=
  L.quiet (quiet_throw f hf habandoned)

theorem fail (c : Cause) : L.Rel (Interp.fail c : Interp α) (Interp.fail c) :=
  L.quiet (quiet_fail c)

theorem failWith (message : String) :
    L.Rel (Interp.failWith message : Interp α) (Interp.failWith message) :=
  L.quiet (quiet_failWith message)

theorem lift (x : Fallible α) : L.Rel (Interp.lift x) (Interp.lift x) := L.quiet (quiet_lift x)

theorem map {x y : Interp α} (f : α → β) (h : L.Rel x y) : L.Rel (f <$> x) (f <$> y) := by
  rw [map_eq_pure_bind, map_eq_pure_bind]
  exact L.bind h fun a => L.pure (f a)

theorem ite {c : Prop} [Decidable c] {x y x' y' : Interp α} (h : L.Rel x y) (h' : L.Rel x' y') :
    L.Rel (if c then x else x') (if c then y else y') := by
  split
  · exact h
  · exact h'

/-- Two runs that stand in for optional runs are related if they are and the optional runs are. -/
theorem getD {o o' : Option (Interp α)} {x y : Interp α} (ho : Option.Rel L.Rel o o')
    (h : L.Rel x y) : L.Rel (o.getD x) (o'.getD y) := by
  cases ho with
  | none => exact h
  | some hz => exact hz

/-- A run that goes on with a new instance goes on with the next one of the heap. -/
theorem bindNewObject {className : String} {k l : ObjectRef → Interp α}
    (h : ∀ s, L.Inv s → L.Rel (k (s.heap.alloc className).1) (l (s.heap.alloc className).1)) :
    L.Rel (newObject className >>= k) (newObject className >>= l) := by
  have hread : ∀ k : ObjectRef → Interp α, (newObject className >>= k) =
      get >>= fun s => newObject className >>= fun _ => k (s.heap.alloc className).1 :=
    fun _ => rfl
  rw [hread k, hread l]
  exact L.read (fun _ _ _ => rfl) fun s hs => L.bind (L.quiet (quiet_newObject _)) fun _ => h s hs

/-- What may take a missing name for an answer may fail with another cause. -/
theorem renames_of_forgives (hf : L.Forgives) : L.Renames := fun c h =>
  L.bind (hf h) fun
    | some a => L.pure a
    | none => L.fail c

/-- An instance is published if its name may be bound globally. -/
theorem publishes {name : String}
    (h : ∀ v, L.Rel (updateScopes (·.defineGlobal name v)) (updateScopes (·.defineGlobal name v)))
    (r : ObjectRef) : L.Rel (Interp.publish name r) (Interp.publish name r) := by
  refine L.bind (L.quiet (quiet_getField? _ _)) fun field => L.ite ?_ (h _)
  exact L.bind (L.quiet (quiet_setField _ _ _)) fun _ => h _

end StepRelation

namespace BindingRelation

variable (L : BindingRelation) {α : Type}

theorem bindsCurrent (name : String) : L.BindsCurrent name := fun _ => L.bindCurrent _ _

theorem enters : L.Enters := L.entering

/-! ### Bindings -/

theorem defineConst (name : String) (v : Value) :
    L.Rel (updateScopes (·.defineConst name v)) (updateScopes (·.defineConst name v)) :=
  L.bindCurrent _ _

theorem defineGlobal (name : String) (v : Value) :
    L.Rel (updateScopes (·.defineGlobal name v)) (updateScopes (·.defineGlobal name v)) :=
  L.bindGlobal _ _

theorem defineMember (owner member : String) (v : Value) :
    L.Rel (updateScopes (·.defineMember owner member v))
      (updateScopes (·.defineMember owner member v)) :=
  L.bindGlobal _ _

end BindingRelation

theorem LoadRelation.arranges (L : LoadRelation) {f : State → State}
    (h : ∀ s, (f s).context = s.context ∧ (f s).scopes = s.scopes ∧ (f s).imports = s.imports) :
    L.Rel (modify f : Interp PUnit) (modify f) :=
  L.arrange (f := fun s => ((⟨⟩ : PUnit), f s)) h

/-- The host may look at everything in the state. -/
theorem LoadRelation.inspect (L : LoadRelation) {α : Type} {k l : State → Interp α}
    (h : ∀ s, L.Rel (k s) (l s)) : L.Rel (get >>= k) (get >>= l) :=
  L.bind (L.arrange (f := fun s => (s, s)) fun _ => ⟨rfl, rfl, rfl⟩) h

theorem HostRelation.administers (L : HostRelation) {f : State → State}
    (h : ∀ s, (f s).context = s.context ∧ (f s).scopes = s.scopes) :
    L.Rel (modify f : Interp PUnit) (modify f) :=
  L.administer (f := fun s => ((⟨⟩ : PUnit), f s)) h

end FormBasic
