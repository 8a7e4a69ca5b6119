import FormBasic.Proofs.Machine.Quiet

/-!
# Pure evaluation and evaluation in a running program

A running program evaluates an expression by its own rules: a name may be a field, a property or a
call, a member may be computed, and an index list may be an argument list. Where nothing is declared
and there is no current object, these rules have nothing to find beyond the bindings and the fields,
so they come to what pure evaluation does. The converse fails: a program knows more, for instance
the length of a text, so the statement is about the expressions that pure evaluation gives a value.

`Interp.Follows` is the relation between the two evaluators: from a state that differs from a fixed
one only in the tags given out, the run does what the pure computation does with the counter of
tags. It is closed under the operations that both evaluators are built from, so that the comparison
is one induction that follows the pure evaluator.

## Main results

* `Interp.Follows.bind` — the relation goes through sequences
* `Runner.follows_eval` — evaluation follows pure evaluation, given fuel for the nesting
-/

namespace FormBasic

open Interp

namespace State

/-- Nothing is declared, and there is no current object. -/
structure Bare (s : State) : Prop where
  procedures : s.procedures = ∅
  properties : s.properties = ∅
  classes : s.classes = ∅
  self : s.context.self = none

/-- The state with another number of array tags given out. -/
def withTags (s : State) (tags : Nat) : State := { s with heap := { s.heap with tags } }

/-- What pure evaluation reads of a state. -/
def surroundings (s : State) : Surroundings := ⟨s.scopes, s.heap⟩

variable {s : State}

theorem Bare.withTags (h : s.Bare) (tags : Nat) : (s.withTags tags).Bare :=
  ⟨h.procedures, h.properties, h.classes, h.self⟩

/-! ### What names stand for -/

theorem Bare.propertyOf?_eq_none (h : s.Bare) (r : ObjectRef) (name : String) :
    s.propertyOf? r name = none := by
  rw [propertyOf?, classTable, h.classes]
  rfl

theorem Bare.ownProperty?_eq_none (h : s.Bare) (name : String) : s.ownProperty? name = none := by
  rw [ownProperty?, h.self]
  rfl

theorem Bare.procedure?_eq_none (h : s.Bare) (name : String) : s.procedure? name = none := by
  have hat : ∀ key, s.procedureAt? key = none := by
    intro key
    rw [procedureAt?, h.procedures]
    rfl
  have hmodule : ∀ key, s.procedureInModule? key = none := by
    intro key
    rw [procedureInModule?]
    cases s.procedureKeys.find? _ with
    | none => rfl
    | some key => exact hat key
  simp only [procedure?, hat, hmodule, ite_self]

/-- A bound name stands for its binding. -/
theorem Bare.data?_of_lookup? (h : s.Bare) {name : String} {v : Value}
    (hv : s.scopes.lookup? name = some v) : s.data? name = some v := by
  simp only [data?, h.self, hv, Option.bind_none, ite_self]

end State

/-! ### Following a pure computation -/

namespace Interp

variable {s : State} {α β : Type}

/-- From a state with any number of tags given out, a run does what a pure computation that has a
result does with the counter. -/
def Follows (s : State) (x : Interp α) (p : PureEval α) : Prop :=
  ∀ tags a tags', p tags = .ok (a, tags') → x (s.withTags tags) = .ok a (s.withTags tags')

/-- A pure computation without a result. -/
def Fails (p : PureEval α) : Prop := ∀ tags, ∃ c, p tags = .error c

theorem Fails.bind {p : PureEval α} {q : α → PureEval β} (h : ∀ a, Fails (q a)) :
    Fails (p >>= q) := by
  intro tags
  cases hp : p tags with
  | ok r =>
    obtain ⟨c, hc⟩ := h r.1 r.2
    exact ⟨c, by simpa only [Bind.bind, StateT.bind, Except.bind, hp] using hc⟩
  | error c => exact ⟨c, by simp only [Bind.bind, StateT.bind, Except.bind, hp]⟩

namespace Follows

theorem pure (a : α) : Follows s (pure a) (Pure.pure a) := by
  intro tags b tags' h
  cases h
  rfl

/-- A pure computation that fails asks for nothing. -/
theorem throw (x : Interp α) (c : Cause) : Follows s x (MonadExcept.throw c) := by
  intro tags a tags' h
  cases h

theorem of_fails {p : PureEval α} (h : Fails p) (x : Interp α) : Follows s x p := by
  intro tags a tags' hp
  obtain ⟨c, hc⟩ := h tags
  cases hc.symm.trans hp

theorem bind {x : Interp α} {p : PureEval α} {k : α → Interp β} {q : α → PureEval β}
    (hx : Follows s x p) (hk : ∀ a, Follows s (k a) (q a)) :
    Follows s (x >>= k) (p >>= q) := by
  intro tags b tags' h
  cases hp : p tags with
  | ok r =>
    simp only [Bind.bind, StateT.bind, Except.bind, hp] at h
    exact (bind_of_ok k (hx tags r.1 r.2 hp)).trans (hk r.1 r.2 b tags' h)
  | error c =>
    simp only [Bind.bind, StateT.bind, Except.bind, hp] at h
    cases h

theorem of_bind_pure {x : Interp α} {p : PureEval α} (h : Follows s x (p >>= Pure.pure)) :
    Follows s x p := by
  rwa [bind_pure] at h

theorem lift (x : Fallible α) : Follows s (Interp.lift x) (liftM x) := by
  intro tags a tags' h
  cases x with
  | ok b =>
    cases h
    rfl
  | error c => cases h

/-- A run that has read the state goes on with what it has read, whatever tags are given out. -/
theorem read {k : State → Interp α} {p : PureEval α}
    (h : ∀ tags, Follows s (k (s.withTags tags)) p) : Follows s (get >>= k) p := by
  intro tags a tags' hp
  rw [get_bind_apply]
  exact h tags tags a tags' hp

theorem ite {c : Prop} [Decidable c] {x y : Interp α} {p q : PureEval α} (hx : Follows s x p)
    (hy : Follows s y q) : Follows s (if c then x else y) (if c then p else q) := by
  split
  · exact hx
  · exact hy

/-- A new array takes the next tag. -/
theorem newArrayOf (vs : List Value) :
    Follows s (Interp.newArrayOf vs)
      (do let tag ← get
          set (tag + 1)
          return .array tag vs) := by
  intro tags a tags' h
  cases h
  rfl

end Follows

end Interp

namespace Runner

variable {s : State} {run : Runner}

/-! ### Names and members -/

theorem follows_readName (hs : s.Bare) (run : Runner) (name : String) :
    Follows s (run.readName name) (liftM (s.scopes.get name)) := by
  cases hv : s.scopes.lookup? name with
  | none =>
    rw [Scopes.get, hv]
    exact .throw _ _
  | some v =>
    have hget : s.scopes.get name = .ok v := by rw [Scopes.get, hv]
    refine .read fun tags => ?_
    have hbare := hs.withTags tags
    have hdata : (s.withTags tags).data? name = some v := hbare.data?_of_lookup? hv
    rw [hbare.ownProperty?_eq_none, hdata, hget]
    split
    · rw [State.withTags, hget]
      exact .lift _
    · exact .pure v

/-- The member of an owner that has a value. -/
theorem follows_readMemberOf (hs : s.Bare) (run : Runner) (v : Value) (member : String) :
    Follows s (run.readMemberOf v member) (liftM (memberOf s.heap v member)) := by
  cases v with
  | object r =>
    cases hfield : s.heap.get? r member with
    | none =>
      rw [memberOf, hfield]
      exact .throw _ _
    | some w =>
      rw [memberOf, hfield]
      refine .read fun tags => ?_
      have hfield' : (s.withTags tags).heap.get? r member = some w := hfield
      rw [(hs.withTags tags).propertyOf?_eq_none, hfield']
      exact .pure w
  | _ => exact .throw _ _

/-- The owner of a member. An empty place is none: it has no members where evaluation is pure. -/
theorem follows_owner (hs : s.Bare) {e : Expr} (hne : e ≠ .omitted)
    (he : Follows s (run.eval e) (s.surroundings.eval e)) :
    Follows s (run.owner e) (s.surroundings.eval e) := by
  unfold Runner.owner
  split
  · exact absurd rfl hne
  · next name =>
    rw [Surroundings.eval] at he ⊢
    cases hv : s.scopes.lookup? name with
    | none =>
      have hget : s.surroundings.scopes.get name = .error (.undefinedVariable name) := by
        rw [State.surroundings, Scopes.get, hv]
      rw [hget]
      exact .throw _ _
    | some v =>
      have hget : s.surroundings.scopes.get name = .ok v := by
        rw [State.surroundings, Scopes.get, hv]
      refine .read fun tags => ?_
      have hdata : (s.withTags tags).data? name = some v := (hs.withTags tags).data?_of_lookup? hv
      rw [hdata, hget]
      exact .lift (.ok v)
  · exact he

theorem follows_readMember (hs : s.Bare) {e : Expr} (member : String)
    (he : Follows s (run.eval e) (s.surroundings.eval e)) :
    Follows s (run.readMember e member) (s.surroundings.eval (.member e member)) := by
  have howned : e ≠ .omitted → Follows s (do run.readMemberOf (← run.owner e) member)
      (do liftM (memberOf s.heap (← s.surroundings.eval e) member)) := fun hne =>
    (follows_owner hs hne he).bind fun v => follows_readMemberOf hs run v member
  rw [Surroundings.eval]
  refine .read fun tags => ?_
  cases e with
  | omitted => exact .throw _ _
  | «variable» name =>
    simp only [flattenedKey?, Option.bind_some, specialMember?, qualifiedMember?]
    cases hkey : s.scopes.lookup? (memberKey name member) with
    | some v =>
      have hkey' : (s.withTags tags).scopes.lookup? (memberKey name member) = some v := hkey
      have hkey'' : s.surroundings.scopes.lookup? (memberKey name member) = some v := hkey
      rw [hkey', hkey'']
      exact .pure v
    | none =>
      have hkey' : (s.withTags tags).scopes.lookup? (memberKey name member) = none := hkey
      have hkey'' : s.surroundings.scopes.lookup? (memberKey name member) = none := hkey
      rw [hkey', hkey'']
      cases hv : s.scopes.lookup? name with
      | none =>
        -- the owner is not bound, so there is nothing to follow
        rw [Surroundings.eval, State.surroundings, Scopes.get, hv]
        exact .throw _ _
      | some v =>
        have hdata : (s.withTags tags).data? name = some v :=
          (hs.withTags tags).data?_of_lookup? hv
        rw [hdata]
        exact howned (by rintro ⟨⟩)
  | _ => exact howned (by rintro ⟨⟩)

/-! ### Elements -/

theorem follows_index {v : Value} {e : Expr}
    (he : Follows s (run.eval e) (s.surroundings.eval e)) :
    Follows s (run.index v [e])
      (do let i ← liftM (← s.surroundings.eval e).asInteger
          liftM (indexOf v i.toInt)) := by
  refine he.bind fun i => (Follows.lift _).bind fun n => ?_
  exact .of_bind_pure ((Follows.lift _).bind fun w => .pure w)

/-- A name with an index list. Pure evaluation allows one index. -/
theorem follows_callNamed (hs : s.Bare) (name : String) {es : List Expr}
    (he : ∀ e ∈ es, Follows s (run.eval e) (s.surroundings.eval e)) :
    Follows s (run.callNamed name es) (s.surroundings.eval (.element name es)) := by
  rw [Surroundings.eval]
  cases hv : s.scopes.lookup? name with
  | none =>
    rw [State.surroundings, Scopes.get, hv]
    exact .throw _ _
  | some v =>
    have hget : (liftM (s.surroundings.scopes.get name) : PureEval Value) = pure v := by
      rw [State.surroundings, Scopes.get, hv]
      rfl
    rw [hget, pure_bind]
    refine .read fun tags => ?_
    have hbare := hs.withTags tags
    have hdata : (s.withTags tags).data? name = some v := hbare.data?_of_lookup? hv
    have hown : run.callOwn? (s.withTags tags) name es = none := by
      rw [callOwn?, hbare.self]
      rfl
    rw [hdata, hown, hbare.procedure?_eq_none]
    cases es with
    | nil => exact .throw _ _
    | cons e rest =>
      cases rest with
      | cons e' rest => exact .throw _ _
      | nil =>
        have he := he e List.mem_cons_self
        cases v with
        | array tag elements => exact follows_index he
        | text t => exact follows_index he
        | _ =>
          -- what has no elements gives no result, whatever the index is
          refine Follows.of_fails (.bind fun i => .bind fun n => ?_) _
          exact fun tags => ⟨_, rfl⟩

/-! ### The step -/

theorem follows_evalAll {es : List Expr}
    (he : ∀ e ∈ es, Follows s (run.eval e) (s.surroundings.eval e)) :
    Follows s (run.evalAll es) (s.surroundings.evalAll es) := by
  induction es with
  | nil =>
    rw [Surroundings.evalAll]
    exact .pure _
  | cons e es ih =>
    rw [Surroundings.evalAll]
    refine (he e List.mem_cons_self).bind fun v => ?_
    exact (ih fun e h => he e (List.mem_cons_of_mem _ h)).bind fun vs => .pure _

theorem follows_binary (op : Operator) {l r : Expr}
    (hl : Follows s (run.eval l) (s.surroundings.eval l))
    (hr : Follows s (run.eval r) (s.surroundings.eval r)) :
    Follows s (run.binary op l r) (s.surroundings.eval (.binary op l r)) := by
  have hcondition : Follows s (run.condition r >>= fun b => pure (Value.boolean b))
      (s.surroundings.eval r >>= fun b => liftM b.asBool >>= fun b => pure (Value.boolean b)) := by
    simp only [Runner.condition, bind_assoc]
    exact hr.bind fun b => (Follows.lift _).bind fun b => .pure _
  rw [Surroundings.eval]
  refine hl.bind fun a => ?_
  cases op with
  | andAlso => exact (Follows.lift _).bind fun b => .ite hcondition (.pure _)
  | orElse => exact (Follows.lift _).bind fun b => .ite (.pure _) hcondition
  | _ => exact hr.bind fun b => .lift _

/-- One step of evaluation follows pure evaluation if the evaluation of the parts does. -/
theorem follows_evalStep (hs : s.Bare) {e : Expr}
    (he : ∀ e', sizeOf e' < sizeOf e → Follows s (run.eval e') (s.surroundings.eval e')) :
    Follows s (run.evalStep e) (s.surroundings.eval e) := by
  cases e with
  | «variable» name =>
    rw [Surroundings.eval]
    exact follows_readName hs run name
  | member o name => exact follows_readMember hs name (he o (by simp +arith))
  | element name es =>
    exact follows_callNamed hs name fun e h => he e (by
      have := List.sizeOf_lt_of_mem h
      simp only [Expr.element.sizeOf_spec]
      omega)
  | array es =>
    rw [Surroundings.eval]
    exact (follows_evalAll fun e h => he e (by
      have := List.sizeOf_lt_of_mem h
      simp only [Expr.array.sizeOf_spec]
      omega)).bind fun vs => .newArrayOf vs
  | binary op l r => exact follows_binary op (he l (by simp +arith)) (he r (by simp +arith))
  | unary op e =>
    rw [Surroundings.eval]
    exact (he e (by simp +arith)).bind fun v => .lift _
  | date t =>
    simp only [Surroundings.eval, Expr.literal?]
    exact .lift (Value.date <$> Value.parseDate t)
  | omitted | integer | long | double | text | boolean | nothing =>
    simp only [Surroundings.eval, Expr.literal?]
    exact .pure _
  | _ =>
    -- these need a running program
    simp only [Surroundings.eval, Expr.literal?]
    exact .throw _ _

/-- Evaluation follows pure evaluation, given fuel for the nesting of the expression. -/
theorem follows_eval (hs : s.Bare) {fuel : Nat} {e : Expr} (hfuel : sizeOf e ≤ fuel) :
    Follows s ((withFuel fuel).eval e) (s.surroundings.eval e) := by
  induction fuel generalizing e with
  | zero => cases e <;> simp at hfuel
  | succ fuel ih => exact follows_evalStep hs fun e' h => ih (by omega)

/-! ### Agreement -/

/-- Where nothing is declared and there is no current object, a running program gives every
expression the value that pure evaluation gives it, and nothing changes but the number of array tags
that have been given out. -/
theorem eval_agrees_with_pure (s : State) (hs : s.Bare) (e : Expr) (v : Value)
    (h : s.surroundings.evaluate e = .ok v) (fuel : Nat) (hfuel : sizeOf e ≤ fuel) :
    ∃ tags, (withFuel fuel).eval e s = .ok v (s.withTags tags) := by
  rw [Surroundings.evaluate] at h
  cases hp : (s.surroundings.eval e).run s.surroundings.heap.tags with
  | error c =>
    rw [hp] at h
    cases h
  | ok r =>
    rw [hp] at h
    cases h
    exact ⟨r.2, follows_eval hs hfuel s.heap.tags r.1 r.2 hp⟩

/-- An instance with a number in a field. -/
def counting : State where
  scopes := { globals := .ofList [("o", ⟨.object ⟨0, "c"⟩, false⟩)] }
  heap := { instances := #[.ofList [("n", .integer 2)]] }

/-- The field of the instance, in an array. -/
theorem eval_agrees_with_pure_counting :
    counting.Bare ∧
    counting.surroundings.evaluate (.array [.member (.variable "o") "n"]) =
      .ok (.array 0 [.integer 2]) ∧
    ∃ tags, (withFuel 300).eval (.array [.member (.variable "o") "n"]) counting =
      .ok (.array 0 [.integer 2]) (counting.withTags tags) := by
  have hbare : counting.Bare := ⟨rfl, rfl, rfl, rfl⟩
  have hpure : counting.surroundings.evaluate (.array [.member (.variable "o") "n"]) =
      .ok (.array 0 [.integer 2]) := rfl
  exact ⟨hbare, hpure, eval_agrees_with_pure counting hbare _ _ hpure 300 (by decide)⟩

end Runner

end FormBasic
