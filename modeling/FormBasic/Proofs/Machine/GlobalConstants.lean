import FormBasic.Proofs.Machine.ContextBalance
import FormBasic.Proofs.Machine.FailurePropagation
import FormBasic.Proofs.Machine.PureEvaluation

/-!
# Constants of the global scope

Whether a binding is a constant is asked in one place only, where a name is rebound. Everything else
that binds in the global scope replaces what is there. So a constant is safe from assignments to its
name, which find it and fail, but not from what binds without looking: a declaration outside all
calls, and an assignment to a member that goes under a flattened key. The last of these is how the
members of an enumeration can be overwritten, since `Color.Red` as a target is not the constant
`color.red` but a member of something called `Color`, and there is no such thing.

What a run does to a constant depends on where it runs. Inside a call all bindings other than those
of members are made in the scope of the call. Outside all calls an assignment that finds nothing
makes a binding in the global scope, but it does find the constant, unless a field or a property of
the current object comes first; outside all calls there is no current object in any program.

## Main results

* `Interp.KeepsConstant` — runs that keep a constant of the global scope
* `Stmt.Overwrites` — how a statement may take a constant away
* `Runner.keepsConstant_watched` — nothing else takes a constant away
* `Runner.assignStep_of_constant`, `Runner.fails_of_asks` — an assignment to a constant fails, and
  so does the statement that makes it
* `Runner.exec_memberAssign_flattened` — an assignment to a member of what is no object always binds
-/

namespace FormBasic

open Interp

/-- A key is bound in the global scope to a constant with a value. -/
def State.HasConstant (s : State) (key : String) (v : Value) : Prop :=
  s.scopes.globals.find? key = some ⟨v, true⟩

/-- Whether an assignment to a name finds a constant of the global scope, under a key. -/
def State.findsConstant (s : State) (name found : String) : Bool :=
  match s.target name with
  | .binding key => key == found && !s.scopes.hasLocal found && s.scopes.isConst found
  | _ => false

namespace State

variable {s : State} {name found key : String} {v : Value}

theorem target_of_findsConstant (h : s.findsConstant name found = true) :
    s.target name = .binding found ∧ s.scopes.isConst found = true := by
  unfold findsConstant at h
  split at h
  · next ht =>
    simp only [Bool.and_eq_true, beq_iff_eq] at h
    obtain ⟨⟨rfl, -⟩, hconst⟩ := h
    exact ⟨ht, hconst⟩
  · cases h

/-- The name of a constant of the global scope finds it, unless a local scope, or a property or
field of the current object, comes first. -/
theorem findsConstant_of_hasConstant (hs : s.HasConstant key v) (hkey : Text.lower name = key)
    (hlocal : s.scopes.hasLocal name = false) (hproperty : s.ownProperty? name = none)
    (hfield : ∀ self, s.context.self = some self → s.heap.get? self name = none) :
    s.findsConstant name name = true := by
  have hglobal : s.scopes.globals.find? (Text.lower name) = some ⟨v, true⟩ := hkey ▸ hs
  have hconst := Scopes.isConst_of_find?_globals hlocal hglobal rfl
  have hbound : (s.scopes.lookup? name).isSome = true := by
    obtain ⟨b, hb, -⟩ := (Option.any_eq_true _ _).1 hconst
    simp only [Scopes.lookup?, hb, Option.map_some, Option.isSome_some]
  have hnone : s.context.self.filter (fun self => (s.heap.get? self name).isSome) = none := by
    rw [Option.filter_eq_none_iff]
    intro self hself
    simp only [hfield self hself, Option.isSome_none, Bool.false_eq_true, not_false_iff]
  have ht : s.target name = .binding name := by
    simp only [target, hlocal, hproperty, hnone, hbound, Bool.false_eq_true, if_false, if_true]
  simp only [findsConstant, ht, hlocal, hconst, beq_self_eq_true, Bool.not_false, Bool.and_self]

end State

/-! ### Runs that keep a constant -/

section
variable {α β : Type} {key : String} {v : Value} {C : Option ObjectRef → Nat → Prop}

/-- From a state with a constant and with a current object and a number of scopes that meet a
condition, a run keeps the constant and gives the frame back. -/
def Interp.KeepsConstant (key : String) (v : Value) (C : Option ObjectRef → Nat → Prop)
    (x : Interp α) : Prop :=
  ∀ s : State, s.HasConstant key v → C s.context.self s.scopes.depth →
    s.SameFrame (x.after s) ∧ (x.after s).HasConstant key v

/-- The condition that always holds. -/
def anywhere : Option ObjectRef → Nat → Prop := fun _ _ => True

/-- There is a local scope. -/
def inLocalScope : Option ObjectRef → Nat → Prop := fun _ depth => 1 < depth

/-- Where there are the current object and the number of scopes of a state. -/
def asIn (s : State) : Option ObjectRef → Nat → Prop :=
  fun self depth => self = s.context.self ∧ depth = s.scopes.depth

namespace Interp.KeepsConstant

variable {x : Interp α}

theorem of_scopes (h : ∀ s, (x.after s).context = s.context ∧ (x.after s).scopes = s.scopes) :
    KeepsConstant key v C x := by
  intro s hs _
  obtain ⟨hcontext, hscopes⟩ := h s
  refine ⟨⟨hcontext, congrArg Scopes.depth hscopes⟩, ?_⟩
  rw [State.HasConstant, hscopes]
  exact hs

theorem of_quietAt (h : ∀ s, x.QuietAt s) : KeepsConstant key v C x :=
  of_scopes fun s => ⟨(h s).1.context, (h s).1.scopes⟩

theorem of_quiet (h : x.Quiet) : KeepsConstant key v C x := .of_quietAt h.quietAt

/-- What is kept everywhere is kept where a condition holds. -/
theorem mono (h : KeepsConstant key v anywhere x) : KeepsConstant key v C x :=
  fun s hs _ => h s hs trivial

theorem bind {k : α → Interp β} (hx : KeepsConstant key v C x)
    (hk : ∀ a, KeepsConstant key v C (k a)) : KeepsConstant key v C (x >>= k) := by
  intro s hs hC
  obtain ⟨hframe, hconst⟩ := hx s hs hC
  cases hr : x s with
  | error e s' =>
    rw [after_of_error hr] at hframe hconst
    rw [after, bind_of_error k hr]
    exact ⟨hframe, hconst⟩
  | ok a s' =>
    rw [after_of_ok hr] at hframe hconst
    have hC' : C s'.context.self s'.scopes.depth := by rwa [hframe.context, hframe.depth]
    obtain ⟨hframe', hconst'⟩ := hk a s' hconst hC'
    rw [after, bind_of_ok k hr]
    exact ⟨hframe.trans hframe', hconst'⟩

theorem found? (hx : KeepsConstant key v C x) : KeepsConstant key v C (Interp.found? x) := by
  intro s hs hC
  rw [after_found?]
  exact hx s hs hC

theorem attempt (hx : KeepsConstant key v C x) : KeepsConstant key v C (Interp.attempt x) := by
  intro s hs hC
  rw [after_attempt]
  exact hx s hs hC

theorem onFailure (f : Failure → Failure) (hx : KeepsConstant key v C x) :
    KeepsConstant key v C (Interp.onFailure f x) := by
  intro s hs hC
  rw [after_onFailure]
  exact hx s hs hC

/-- A change of context that meets the condition again gives the constant back. -/
theorem inContext {C' : Option ObjectRef → Nat → Prop} {d : Detour}
    (henter : ∀ ctx depth, C ctx.self depth → C' (d.enter ctx).self depth)
    (hx : KeepsConstant key v C' x) : KeepsConstant key v C (Interp.inContext d x) := by
  intro s hs hC
  obtain ⟨hframe, hconst⟩ := hx { s with context := d.enter s.context } hs (henter _ _ hC)
  exact ⟨hframe.inContext, by rwa [after_inContext]⟩

/-- A call keeps what its body keeps in a scope of its own. -/
theorem inCall (c : Callable) (self : Option ObjectRef) (classContext : String)
    (hx : KeepsConstant key v inLocalScope x) :
    KeepsConstant key v C (Interp.inCall c self classContext x) := by
  intro s hs _
  rw [after_inCall]
  split
  · exact ⟨.refl s, hs⟩
  · have hlocal : inLocalScope self s.scopes.push.depth := Nat.lt_succ_of_le (Nat.le_add_left 1 _)
    obtain ⟨hframe, hconst⟩ := hx.onFailure (·.leave c.name)
      { s with context := c.enter self classContext s.context, scopes := s.scopes.push } hs hlocal
    refine ⟨State.SameFrame.inContext (d := c.detour self classContext) hframe.inScope, ?_⟩
    rwa [after_inContext, after_inScope]

theorem rebind (name : String) (w : Value) : KeepsConstant key v C (Interp.rebind name w) := by
  intro s hs _
  obtain h | ⟨scopes, hset, h⟩ := after_rebind name w s
  · rw [h]
    exact ⟨.refl s, hs⟩
  · rw [h]
    exact ⟨⟨rfl, Scopes.depth_set hset⟩, Scopes.find?_globals_set hset hs rfl⟩

/-- Binding another key in the global scope keeps the constant. -/
theorem insertGlobal {other : String} (b : Binding) (hne : other ≠ key) :
    KeepsConstant key v C
      (updateScopes fun s => { s with globals := s.globals.insert other b }) := by
  intro s hs _
  refine ⟨⟨rfl, rfl⟩, ?_⟩
  exact (Table.find?_insert_of_ne _ _ hne).trans hs

/-- Binding in the innermost scope keeps the constant if the scope is a local one or the key is
another. -/
theorem insertCurrent {other : String} (b : Binding)
    (h : ∀ self depth, C self depth → 1 < depth ∨ other ≠ key) :
    KeepsConstant key v C (updateScopes (·.updateCurrent (·.insert other b))) := by
  intro s hs hC
  refine ⟨⟨rfl, Scopes.depth_updateCurrent _ _⟩, ?_⟩
  show (s.scopes.updateCurrent _).globals.find? key = _
  unfold Scopes.updateCurrent
  cases hlocals : s.scopes.locals with
  | cons l ls => exact hs
  | nil =>
    have hne : other ≠ key := by
      refine (h _ _ hC).resolve_left ?_
      rw [Scopes.depth, hlocals]
      exact Nat.lt_irrefl 1
    exact (Table.find?_insert_of_ne _ _ hne).trans hs

end Interp.KeepsConstant

end

/-- Keeping a constant is a relation that the steps of the machine respect. -/
def constantRelation (key : String) (v : Value) (C : Option ObjectRef → Nat → Prop) :
    StepRelation where
  Inv s := s.HasConstant key v ∧ C s.context.self s.scopes.depth
  Rel x _ := KeepsConstant key v C x
  quiet := KeepsConstant.of_quiet
  bind := KeepsConstant.bind
  read _ h := fun s hs hC => h s ⟨hs, hC⟩ s hs hC
  inContext _ hobject h := h.inContext fun ctx depth hC => by rwa [hobject.self]
  publish name w s hs hnone := by
    -- a name that stands for nothing is not the name of the constant
    have hne : Text.lower name ≠ key := by
      rintro rfl
      have hglobal : s.scopes.globals.find? (Text.lower name) = some ⟨v, true⟩ := hs.1
      have hlookup : s.scopes.binding? name = none := by
        simpa [Scopes.lookup?] using hnone
      simp [Scopes.binding?, hglobal] at hlookup
    exact KeepsConstant.insertGlobal _ hne

/-! ### What takes a constant away -/

/-- The ways in which a statement may take a constant of the global scope away. -/
inductive Stmt.Overwrites (key : String) (s : State) (stmt : Stmt) : Prop
  /-- A declaration outside all calls. -/
  | declaration {name : String} (hdepth : s.scopes.depth = 1) (hname : name ∈ stmt.bound)
    (hkey : Text.lower name = key)
  /-- An assignment outside all calls that makes a binding if it finds nothing, while there is a
  current object, whose property of that name may fail to be found. -/
  | fallback {name : String} (hdepth : s.scopes.depth = 1) (hself : s.context.self ≠ none)
    (hname : name ∈ stmt.redefined) (hkey : Text.lower name = key)
  /-- An assignment to a member whose flattened key may be that of the constant. -/
  | member {o : Expr} {member owner : String} (hplace : (o, member) ∈ stmt.assignedMembers)
    (hkey : Text.lower (memberKey owner member) = key)

namespace Runner

/-- A runner whose answers keep a constant, and whose assignments fail where they find it. -/
structure Preserves (key : String) (v : Value) (run : Runner) : Prop where
  frame : Related (frameRelation .any).toRunRelation run run
  answer : ∀ q, KeepsConstant key v anywhere (run.answer q)
  refuses : ∀ {s : State} {name : String} (w : Value), s.HasConstant key v →
    s.context.self = none → s.scopes.depth = 1 → Text.lower name = key →
    ∃ e, run.assignBound name w s = .error e s ∧ ∀ f, e = .failure f → f.isMissing = false

namespace Preserves

variable {key : String} {v : Value} {C : Option ObjectRef → Nat → Prop} {run : Runner}
  (h : Preserves key v run)
include h

/-- For evaluation it does not matter where it runs. -/
theorem onEvaluation : RelatedOn .all (constantRelation key v anywhere) run run where
  eval _ := h.answer (.eval _)
  exec _ := h.answer (.exec _)
  invoke _ _ _ _ := h.answer (.invoke _ _ _ _)
  assignBound name w := h.answer (.assign name w)
  declared _ _ := trivial
  fields {_ t _ _ c c'} _ _ _ _ _ _ := by
    have hfields : (constantRelation key v anywhere).Rel
        (run.setFields (t.heap.alloc c.name).1 c'.fields)
        (run.setFields (t.heap.alloc c.name).1 c'.fields) :=
      (constantRelation key v anywhere).setFields _ fun _ _ e _ => h.answer (.eval e)
    exact hfields.inContext fun _ _ _ => trivial

/-- Execution builds no instances itself, and so it keeps the current object. -/
theorem onExecution :
    RelatedOn { Domain.all with instances := fun _ => False } (constantRelation key v C)
      run run where
  eval _ := (h.answer (.eval _)).mono
  exec _ := (h.answer (.exec _)).mono
  invoke _ _ _ _ := (h.answer (.invoke _ _ _ _)).mono
  assignBound name w := (h.answer (.assign name w)).mono
  declared _ _ := trivial
  fields hfalse := hfalse.elim

/-- Outside all calls and without a current object, an assignment finds the constant, and does
nothing else instead. -/
theorem assignOr_refused {name : String} (hkey : Text.lower name = key) (w : Value)
    (y : Interp Unit) :
    KeepsConstant key v (fun self depth => self = none ∧ depth = 1) (run.assignOr name w y) := by
  intro s hs hC
  obtain ⟨e, he, hmissing⟩ := h.refuses w hs hC.1 hC.2 hkey
  have hfound : Interp.found? (run.assignBound name w) s = .error e s := by
    cases e with
    | outOfFuel => simp only [Interp.found?, he]
    | failure f => exact found?_of_failure he (hmissing f rfl)
  have hrun : run.assignOr name w y s = .error e s := bind_of_error _ hfound
  rw [after_of_error hrun]
  exact ⟨.refl s, hs⟩

omit h in
theorem bindsCurrent {s : State} {name : String}
    (hother : ¬ (s.scopes.depth = 1 ∧ Text.lower name = key)) :
    (constantRelation key v (asIn s)).BindsCurrent name := by
  intro b
  refine KeepsConstant.insertCurrent (C := asIn s) b fun self depth hC => ?_
  by_cases hdepth : s.scopes.depth = 1
  · exact .inr fun hkey => hother ⟨hdepth, hkey⟩
  · have hpos : 1 ≤ s.scopes.depth := Nat.le_add_left 1 _
    rw [hC.2]
    exact .inl (by omega)

/-- An assignment that binds in the innermost scope, or writes a field of the current object, if it
finds nothing. -/
theorem assign (s : State) (name : String) (w : Value) :
    KeepsConstant key v (asIn s) (run.assign name w) := by
  by_cases hhome : s.scopes.depth = 1 ∧ Text.lower name = key
  · obtain ⟨hdepth, hkey⟩ := hhome
    cases hself : s.context.self with
    | none =>
      intro t ht hC
      exact h.assignOr_refused hkey w _ t ht ⟨hC.1.trans hself, hC.2.trans hdepth⟩
    | some self =>
      show (constantRelation key v (asIn s)).Rel (run.assign name w) (run.assign name w)
      refine h.onExecution.assignOr KeepsConstant.found? name w ?_
      refine (constantRelation key v (asIn s)).read (fun _ _ _ => rfl) fun t ht => ?_
      rw [ht.2.1, hself]
      exact (constantRelation key v (asIn s)).quiet (quiet_setField _ _ _)
  · exact h.onExecution.assign KeepsConstant.found? (bindsCurrent hhome) w

/-- An assignment that binds in the innermost scope if it finds nothing. -/
theorem assignOrDefine {s : State} {name : String}
    (hself : s.scopes.depth = 1 → Text.lower name = key → s.context.self = none) (w : Value) :
    KeepsConstant key v (asIn s) (run.assignOrDefine name w) := by
  by_cases hhome : s.scopes.depth = 1 ∧ Text.lower name = key
  · obtain ⟨hdepth, hkey⟩ := hhome
    intro t ht hC
    exact h.assignOr_refused hkey w _ t ht ⟨hC.1.trans (hself hdepth hkey), hC.2.trans hdepth⟩
  · exact h.onExecution.assignOrDefine KeepsConstant.found? (bindsCurrent hhome) w

/-- A statement that cannot overwrite the constant asks for nothing that does. -/
theorem executes {s : State} {stmt : Stmt} (hstmt : ¬ stmt.Overwrites key s) :
    Executes (constantRelation key v (asIn s)) run run stmt where
  binds name hname := bindsCurrent fun ⟨hdepth, hkey⟩ =>
    hstmt (.declaration hdepth hname hkey)
  assign name _ w := h.assign s name w
  assignOrDefine name hname w := by
    refine h.assignOrDefine (fun hdepth hkey => ?_) w
    refine Classical.not_not.1 fun hself => ?_
    exact hstmt (.fallback hdepth hself hname hkey)
  assignMember place hplace w := by
    have hassign : KeepsConstant key v anywhere (run.assignMember place.1 place.2 w) := by
      refine h.onEvaluation.assignMember KeepsConstant.found? trivial (fun _ _ => trivial) _ w ?_
      intro owner
      have hne : Text.lower (memberKey owner place.2) ≠ key := fun hkey =>
        hstmt (.member hplace hkey)
      exact KeepsConstant.insertGlobal (C := anywhere) _ hne
    exact hassign.mono
  renames _ := (constantRelation key v (asIn s)).renames_of_forgives KeepsConstant.found?
  catches _ := fun h => KeepsConstant.attempt h
  rethrows _ := fun x => KeepsConstant.of_quietAt (quietAt_resume x)
  fuel _ := rfl
  outOfFuel _ := fun t ht _ => ⟨.refl t, ht⟩

/-- One step keeps the constant, unless it is for a statement that may overwrite it. -/
theorem step {s : State} (hs : s.HasConstant key v) {q : Request}
    (hq : ∀ stmt, q = .exec stmt → ¬ stmt.Overwrites key s) :
    ((run.step q).after s).HasConstant key v := by
  cases q with
  | eval e =>
    have hstep : KeepsConstant key v anywhere (run.evalStep e) :=
      h.onEvaluation.evalStep (fun _ _ => trivial) (fun _ _ => trivial)
        (fun _ => (constantRelation key v anywhere).renames_of_forgives KeepsConstant.found?)
        fun _ _ => KeepsConstant.found?
    exact (hstep s hs trivial).2
  | exec stmt =>
    have hstep := h.onExecution.execStep (fun _ _ => trivial) (fun _ _ _ _ => trivial)
      (h.executes (hq stmt rfl))
    exact (hstep s hs ⟨rfl, rfl⟩).2
  | invoke c self classContext args =>
    have hbody : KeepsConstant key v inLocalScope (run.runBody c args) := by
      refine h.onExecution.runBody (fun name b => ?_) (fun _ _ => trivial) (fun _ _ => trivial) args
      exact KeepsConstant.insertCurrent b fun _ _ hlocal => .inl hlocal
    exact (hbody.inCall (C := anywhere) c self classContext s hs trivial).2
  | assign name w =>
    have hstep : KeepsConstant key v anywhere (run.assignStep name w) :=
      h.onEvaluation.assignStep KeepsConstant.rebind name w
    exact (hstep s hs trivial).2

end Preserves

/-! ### Assignments to a constant -/

theorem hasLocal_of_depth {s : Scopes} {name : String} (h : s.depth = 1) :
    s.hasLocal name = false := by
  have hnil : s.locals = [] := List.length_eq_zero_iff.1 (Nat.succ.inj h)
  simp only [Scopes.hasLocal, hnil, Scopes.findIn, Option.isSome_none]

variable {key : String} {v : Value}

theorem assignStep_of_findsConstant {run : Runner} {s : State} {name found : String}
    (h : s.findsConstant name found = true) (w : Value) :
    run.assignStep name w s = .error
      (.failure (.runtime (.custom ("Cannot assign to constant '" ++ found ++ "'")) [])) s := by
  obtain ⟨ht, hconst⟩ := State.target_of_findsConstant h
  have hrun : run.assignStep name w s = rebind found w s := by
    rw [assignStep, get_bind_apply, ht]
    rfl
  have hset := Scopes.set_of_isConst w hconst
  rw [hrun]
  show (Interp.lift (s.scopes.set found w) >>= _) s = _
  rw [hset]
  rfl

/-- Whether a request is for an assignment that finds a constant under a key. -/
def meetsConstant (found : String) : Test
  | .assign name _, s, _ => s.findsConstant name found
  | _, _, _ => false

/-- A step that makes an assignment to a constant fails, and says so; only a `Try` may go on. -/
theorem exec_fails_of_asks {fuel : Nat} {stmt : Stmt} {s : State} {found : String}
    (htry : stmt.isTry = false)
    (hasks : Asks (meetsConstant found) (fuel + 1) (.exec stmt) s) :
    ∃ stack s', (withFuel (fuel + 2)).exec stmt s = .error
      (.failure (.runtime (.custom ("Cannot assign to constant '" ++ found ++ "'")) stack)) s' := by
  have hadmits : (failureRelation
      (.withText ("Cannot assign to constant '" ++ found ++ "'"))).Admits (.exec stmt) :=
    { rebinds := nofun
      forgives := fun _ => FailsOr.found?_of_not_missing fun f hf => by
        obtain ⟨stack, rfl⟩ := FailureKind.exists_of_withText hf
        rfl
      catches := fun hcatches => by simp [Request.isTry, htry] at hcatches
      rethrows := fun _ _ _ => FailsOr.of_eq rfl }
  have hfails : ∀ q s, meetsConstant found q s ((withFuel (fuel + 1)).answer q s) = true →
      ((withFuel (fuel + 1)).answer q).FailsAt
        (.withText ("Cannot assign to constant '" ++ found ++ "'")) s := by
    intro q s htest
    cases q with
    | assign name w =>
      exact ⟨_, s, assignStep_of_findsConstant htest w, beq_self_eq_true _⟩
    | _ => cases htest
  obtain ⟨f, s', hf, htext⟩ := fails_of_asks _ hadmits hfails hasks
  obtain ⟨stack, rfl⟩ := FailureKind.exists_of_withText htext
  exact ⟨stack, s', hf⟩

/-! ### Assignments to members -/

/-- The owner under whose name a member is bound, if what the owner expression stands for is no
object. -/
def flattenedOwner? (e : Expr) : Option Value → Option String
  | some (.object _) => none
  | some (.text name) => some name
  | _ => some e.ownerText

theorem exec_memberAssign_flattened {fuel : Nat} {o e : Expr} {member owner : String} {w : Value}
    {found : Option Value} {s s₁ s₂ : State} (he : (withFuel fuel).eval e s = .ok w s₁)
    (hintrinsic : intrinsicOwner? s₁ o = none)
    (howner : Interp.found? ((withFuel fuel).owner o) s₁ = .ok found s₂)
    (hflat : flattenedOwner? o found = some owner) :
    ∃ s', (withFuel (fuel + 1)).exec (.memberAssign o member e) s = .ok .normal s' ∧
      s'.scopes = s₂.scopes.defineMember owner member w := by
  -- what is done once the owner is known
  have hbind : ∀ name, name = owner → ∃ s', assignFlattened name member w s₂ = .ok () s' ∧
      s'.scopes = s₂.scopes.defineMember owner member w := by
    rintro name rfl
    exact ⟨_, rfl, rfl⟩
  have hassign : ∃ s', (withFuel fuel).assignMember o member w s₁ = .ok () s' ∧
      s'.scopes = s₂.scopes.defineMember owner member w := by
    rw [assignMember, get_bind_apply, hintrinsic]
    dsimp only
    rw [bind_of_ok _ howner]
    cases found with
    | none => exact hbind _ (Option.some.inj hflat)
    | some value =>
      cases value with
      | object r => cases hflat
      | _ => exact hbind _ (Option.some.inj hflat)
  obtain ⟨s', hrun, hscopes⟩ := hassign
  refine ⟨s', ?_, hscopes⟩
  show done ((withFuel fuel).eval e >>= fun w => (withFuel fuel).assignMember o member w) s = _
  have hbody := (bind_of_ok (fun w => (withFuel fuel).assignMember o member w) he).trans hrun
  exact bind_of_ok _ hbody

/-! ### Runs -/

end Runner

/-- The state in which a request has ended. -/
def Request.finalState {q : Request} : q.Outcome → State
  | .ok _ s => s
  | .error _ s => s

theorem Request.finalState_apply {q : Request} (x : Interp q.Answer) (s : State) :
    Request.finalState (x s) = x.after s := by
  unfold Request.finalState after
  cases x s <;> rfl

namespace Runner

open Classical in
/-- Whether a request is for a statement that may overwrite a constant, and does take it away. -/
noncomputable def losesConstant (key : String) (v : Value) : Test
  | .exec stmt, s, r => decide (stmt.Overwrites key s ∧ s.HasConstant key v ∧
      ¬ (Request.finalState r).HasConstant key v)
  | _, _, _ => false

open Classical in
theorem losesConstant_exec {stmt : Stmt} {s : State} {r : (Request.exec stmt).Outcome} :
    losesConstant key v (.exec stmt) s r = true ↔
      stmt.Overwrites key s ∧ s.HasConstant key v ∧
        ¬ (Request.finalState r).HasConstant key v :=
  decide_eq_true_iff

/-- Stopping in the middle of a run gives the frame back as well. -/
theorem frame_watched (test : Test) (fuel : Nat) :
    Related (frameRelation .any).toRunRelation (watched test (fun _ => outOfFuel) fuel)
      (watched test (fun _ => outOfFuel) fuel) := by
  refine related_watched (fun {run run'} hrel q s hs => ?_) fuel
  obtain ⟨heq, hsame⟩ := hrel.step (frameRelation_admits .any q) s hs
  refine ⟨by simp only [tested, heq], ?_⟩
  rw [after_tested]
  split
  · exact hsame
  · exact .refl s

/-- A runner that stops where a statement takes the constant away keeps it. -/
theorem preserves_watched (key : String) (v : Value) (fuel : Nat) :
    Preserves key v
      (watched (fun q s r => !losesConstant key v q s r) (fun _ => outOfFuel) fuel) := by
  induction fuel with
  | zero =>
    refine ⟨frame_watched _ 0, fun q => ?_, fun w _ _ _ _ => ⟨.outOfFuel, rfl, nofun⟩⟩
    rw [watched, answer_ofAnswers]
    exact fun s hs _ => ⟨.refl s, hs⟩
  | succ fuel ih =>
    refine ⟨frame_watched _ (fuel + 1), fun q s hs _ => ?_, ?_⟩
    · refine ⟨sameFrame_after ((frame_watched _ (fuel + 1)).answer q) s, ?_⟩
      rw [watched, answer_ofAnswers, after_tested]
      split
      · next htest =>
        by_cases hq : ∀ stmt, q = .exec stmt → ¬ stmt.Overwrites key s
        · exact ih.step hs hq
        · -- the statement may overwrite the constant, but the test says that it has not
          obtain ⟨stmt, hstmt⟩ := Classical.not_forall.1 hq
          obtain ⟨rfl, hover⟩ := Classical.not_imp.1 hstmt
          have hover := Classical.not_not.1 hover
          have hkept := mt losesConstant_exec.2 (Bool.eq_false_iff.1 (Bool.not_eq_true' _ ▸ htest))
          rw [Request.finalState_apply] at hkept
          exact Classical.not_not.1 fun hlost => hkept ⟨hover, hs, hlost⟩
      · exact hs
    · intro s name w hs hself hdepth hkey
      have hfinds : s.findsConstant name name = true := by
        refine State.findsConstant_of_hasConstant hs hkey (hasLocal_of_depth hdepth) ?_ ?_
        · simp only [State.ownProperty?, hself, Option.bind_eq_bind, Option.bind_none]
        · intro self hsome
          rw [hself] at hsome
          cases hsome
      have hpass : ∀ run : Runner, tested (fun q s r => !losesConstant key v q s r)
          (fun _ => outOfFuel) (.assign name w) (run.assignStep name w) s =
            run.assignStep name w s := fun _ => if_pos rfl
      refine ⟨_, (hpass _).trans (assignStep_of_findsConstant hfinds w), ?_⟩
      rintro f ⟨⟩
      rfl

/-- A run keeps a constant of the global scope, unless some statement in it takes the constant away,
and this can only be a declaration outside all calls, or an assignment to a member whose flattened
key is that of the constant. The name of the constant finds it unless something nearer has the name.
An assignment that finds it fails and changes nothing, and the statement that makes the assignment
fails. An assignment to a member of what is no object binds the flattened key without looking, so it
replaces a constant under this key. -/
theorem global_constants (fuel : Nat) (s : State) :
    (∀ (q : Request) (key : String) (v : Value), s.HasConstant key v →
      Always (fun q s r => !losesConstant key v q s r) fuel (·.answer q) s →
      (((withFuel fuel).answer q).after s).HasConstant key v) ∧
    (∀ (key name : String) (v : Value), s.HasConstant key v → Text.lower name = key →
      s.scopes.hasLocal name = false → s.ownProperty? name = none →
      (∀ self, s.context.self = some self → s.heap.get? self name = none) →
      s.findsConstant name name = true) ∧
    (∀ (name found : String) (w : Value), s.findsConstant name found = true →
      (withFuel (fuel + 1)).assignBound name w s = .error (.failure
        (.runtime (.custom ("Cannot assign to constant '" ++ found ++ "'")) [])) s) ∧
    (∀ (stmt : Stmt) (found : String), stmt.isTry = false →
      Asks (meetsConstant found) (fuel + 1) (.exec stmt) s →
      ∃ stack s', (withFuel (fuel + 2)).exec stmt s = .error (.failure
        (.runtime (.custom ("Cannot assign to constant '" ++ found ++ "'")) stack)) s') ∧
    ∀ (o e : Expr) (member owner : String) (w : Value) (found : Option Value) (s₁ s₂ : State),
      (withFuel fuel).eval e s = .ok w s₁ → intrinsicOwner? s₁ o = none →
      Interp.found? ((withFuel fuel).owner o) s₁ = .ok found s₂ →
      flattenedOwner? o found = some owner →
      ∃ s', (withFuel (fuel + 1)).exec (.memberAssign o member e) s = .ok .normal s' ∧
        s'.scopes = s₂.scopes.defineMember owner member w ∧
        ∀ v, ¬ s'.HasConstant (Text.lower (memberKey owner member)) v := by
  refine ⟨fun q key v hs hall => ?_, fun key name v => ?_, fun name found w hfinds => ?_,
    fun stmt found htry hasks => ?_, ?_⟩
  · rw [← after_congr (hall fun _ => outOfFuel)]
    exact ((preserves_watched key v fuel).answer q s hs trivial).2
  · exact State.findsConstant_of_hasConstant
  · exact assignStep_of_findsConstant hfinds w
  · exact exec_fails_of_asks htry hasks
  · intro o e member owner w found s₁ s₂ he hintrinsic howner hflat
    obtain ⟨s', hrun, hscopes⟩ := exec_memberAssign_flattened he hintrinsic howner hflat
    refine ⟨s', hrun, hscopes, fun v hconst => ?_⟩
    rw [State.HasConstant, hscopes, Scopes.defineMember, Scopes.defineGlobal,
      Table.find?_insert_self] at hconst
    cases hconst

/-- A state with a constant, and with a member of an enumeration. -/
def coloured : State where
  scopes := { globals := .ofList [("c", ⟨.integer 1, true⟩), ("color.red", ⟨.integer 0, true⟩)] }

/-- The constant is kept by an assignment to its name, which fails; the member of the enumeration is
replaced by an assignment to `Color.Red`. -/
theorem global_constants_coloured :
    (((withFuel 2).answer (.exec (.assign "C" (.integer 2)))).after coloured).HasConstant "c"
      (.integer 1) ∧
    coloured.findsConstant "C" "C" = true ∧
    (withFuel 1).assignBound "C" (.integer 2) coloured = .error (.failure
      (.runtime (.custom "Cannot assign to constant 'C'") [])) coloured ∧
    (∃ stack s', (withFuel 2).exec (.assign "C" (.integer 2)) coloured = .error (.failure
      (.runtime (.custom "Cannot assign to constant 'C'") stack)) s') ∧
    coloured.HasConstant "color.red" (.integer 0) ∧
    ∃ s', (withFuel 3).exec (.memberAssign (.variable "Color") "Red" (.integer 5)) coloured =
        .ok .normal s' ∧
      s'.scopes = coloured.scopes.defineMember "Color" "Red" (.integer 5) ∧
      ∀ v, ¬ s'.HasConstant (Text.lower (memberKey "Color" "Red")) v := by
  obtain ⟨hkept, hname, -, -, hflat⟩ := global_constants 2 coloured
  obtain ⟨-, -, hrefused, hfails, -⟩ := global_constants 0 coloured
  have hfinds := hname "c" "C" (.integer 1) rfl (by decide) rfl rfl nofun
  refine ⟨hkept _ "c" (.integer 1) rfl ?_, hfinds, hrefused _ _ _ hfinds, hfails _ "C" rfl ?_, rfl,
    ?_⟩
  · intro alarm
    have hpass : losesConstant "c" (.integer 1) (.exec (.assign "C" (.integer 2))) coloured
        ((watched (fun q s r => !losesConstant "c" (.integer 1) q s r) alarm 1).step
          (.exec (.assign "C" (.integer 2))) coloured) = false := by
      refine Bool.eq_false_iff.2 fun hlost => ?_
      cases (losesConstant_exec.1 hlost).1 with
      | declaration _ hname => cases hname
      | fallback _ _ hname => cases hname
      | member hplace => cases hplace
    exact if_pos (congrArg Bool.not hpass)
  · exact ⟨fun _ => outOfFuel, nofun⟩
  · refine hflat _ _ _ "Color" _ none coloured coloured rfl rfl ?_ rfl
    have hprocedure : coloured.procedure? "Color" = none :=
      State.Bare.procedure?_eq_none ⟨rfl, rfl, rfl, rfl⟩ "Color"
    have hdata : coloured.data? "Color" = none := rfl
    have hown : (withFuel 1).callOwn? coloured "Color" [] = none := rfl
    have hbuiltin : builtin? (Text.lower "Color") = none := rfl
    have hcall : (withFuel 1).callNamed "Color" [] coloured =
        .error (.failure (.runtime (.undefinedFunction "Color") [])) coloured := by
      rw [callNamed, get_bind_apply]
      simp only [hdata, hown, hprocedure, hbuiltin, Option.getD_none]
      rfl
    have howner : (withFuel 2).owner (.variable "Color") coloured =
        foundOr ((withFuel 1).callNamed "Color" []) (.undefinedVariable "Color") coloured := rfl
    have hmissing :
        foundOr ((withFuel 1).callNamed "Color" []) (.undefinedVariable "Color") coloured =
          .error (.failure (.runtime (.undefinedVariable "Color") [])) coloured :=
      bind_of_ok _ (found?_of_missing hcall rfl)
    exact found?_of_missing (howner.trans hmissing) rfl

end Runner

end FormBasic
