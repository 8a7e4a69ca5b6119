import FormBasic.Proofs.Machine.ProperRuns

/-!
# Evaluation gives proper values

One step of evaluation gives a proper value if the runner does for the parts, with two exceptions. A
call of `IIf` gives one of its arguments, which may have been omitted, and the row that a binding
source stands on is an element of an array, which may be an omitted argument as well.

There is one lemma for each function of the machine. Omitted arguments come in with `arguments`, and
the lemmas say where they end: a parameter takes its default in their place, a parameter array takes
them into an array, and what is written back is checked.

## Main results

* `Expr.mayLeak` — the exceptions
* `Runner.ProperAlike` — runners whose answers keep states proper
* `Runner.ProperAlike.invokeStep`, `Runner.ProperAlike.assignStep`, `Runner.ProperAlike.evalStep` —
  single steps
-/

namespace FormBasic

open Interp

/-- Whether the value of an expression may be an omitted argument: a call of `IIf` with one, and the
row of a binding source. -/
def Expr.mayLeak : Expr → Bool
  | .call name es => Text.lower name == "iif" && es.any Expr.isOmitted
  | .element name es => Text.lower name == "iif" && es.any Expr.isOmitted
  | .member _ name => Text.equalFold name "current"
  | _ => false

/-- A name with a point is not that of a procedure without one. -/
theorem lower_dotted_ne (name method : String) {key : String} (hkey : '.' ∉ key.toList) :
    Text.lower (name ++ "." ++ method) ≠ key := by
  rintro rfl
  apply hkey
  have hpoint : '.' ∈ (name ++ "." ++ method).toList := by simp
  rw [Text.lower, String.toList_ofList]
  exact List.mem_map.2 ⟨'.', hpoint, rfl⟩

namespace Runner

/-- Runners whose answers, unless the first one gives up with a mark, are the same and keep the
state proper: evaluation gives proper values, and assignments are asked for with such. -/
structure ProperAlike (n : Int) (run run' : Runner) : Prop where
  fuel : run.fuel = run'.fuel
  eval : ∀ e, GivesValue n (run.eval e) (run'.eval e)
  exec : ∀ s, Keeps n (run.exec s) (run'.exec s)
  invoke : ∀ c self classContext args, Yields n (fun r => r.1.isProper = true)
    (run.invoke c self classContext args) (run'.invoke c self classContext args)
  assignBound : ∀ name {v}, v.isProper = true →
    Keeps n (run.assignBound name v) (run'.assignBound name v)

namespace ProperAlike

variable {n : Int} {run run' : Runner} (h : ProperAlike n run run')
include h

/-! ### Blocks and arguments -/

theorem block (ss : List Stmt) : Keeps n (run.block ss) (run'.block ss) := by
  induction ss with
  | nil => exact .pure trivial
  | cons s ss ih =>
    refine (h.exec s).bind fun signal _ => ?_
    cases signal with
    | normal => exact ih
    | _ => exact .pure trivial

theorem condition (e : Expr) : Keeps n (run.condition e) (run'.condition e) :=
  (h.eval e).bind fun _ _ => .computed _

theorem argument (e : Expr) :
    Yields n (fun v => e.isOmitted = false → v.isProper = true) (run.argument e)
      (run'.argument e) := by
  refine .branch (fun homitted => .pure fun hgiven => ?_) fun _ => (h.eval e).mono fun v hv _ => hv
  rw [homitted] at hgiven
  cases hgiven

/-- Argument lists are where omitted arguments come in. -/
theorem arguments (es : List Expr) :
    Yields n (fun args => es.any Expr.isOmitted = false → ∀ a ∈ args, a.isProper = true)
      (run.arguments es) (run'.arguments es) := by
  induction es with
  | nil => exact .pure fun _ => nofun
  | cons e es ih =>
    refine (h.argument e).bind fun v hv => ih.bind fun args hargs => .pure fun hgiven => ?_
    obtain ⟨he, hes⟩ := Bool.or_eq_false_iff.1 hgiven
    rintro a (_ | ⟨_, ha⟩)
    · exact hv he
    · exact hargs hes a ha

/-! ### Calls -/

/-- A parameter takes its default, or what its type starts with, for an omitted argument. -/
theorem parameterValue (p : Parameter) (arg : Value) :
    GivesValue n (run.parameterValue p arg) (run'.parameterValue p arg) := by
  have hv : ∀ v : Value,
      GivesValue n (lift (v.coerceTo p.typeName)) (lift (v.coerceTo p.typeName)) := fun v =>
    .lift (Value.givesProper_coerceTo _ _)
  unfold Runner.parameterValue
  refine .ite (Yields.bind (P := fun _ => True) (.pure trivial) fun v _ => hv v) ?_
  cases p.default with
  | none => exact Yields.bind (P := fun _ => True) (.pure trivial) fun v _ => hv v
  | some e => exact (h.eval e).bind fun v _ => hv v

theorem bindParameters (ps : List Parameter) (args : List Value) :
    Keeps n (run.bindParameters ps args) (run'.bindParameters ps args) := by
  induction ps generalizing args with
  | nil => exact .pure trivial
  | cons p ps ih =>
    refine .ite ?_ ?_
    · exact (givesValue_newArrayOf _).bind fun v hv => keeps_define _ hv
    · exact (h.parameterValue p _).bind fun v hv => (keeps_define _ hv).bind fun _ _ => ih _

theorem runBody (c : Callable) (args : List Value) :
    Yields n (fun r => r.1.isProper = true) (run.runBody c args) (run'.runBody c args) := by
  have hrest : Yields n (fun r : Value × List Value => r.1.isProper = true)
      (do let signal ← run.block c.body
          let result ← resultOf c signal
          let s ← get
          return (result, c.parameters.map fun p => (s.scopes.lookup? p.name).getD .absent))
      (do let signal ← run'.block c.body
          let result ← resultOf c signal
          let s ← get
          return (result, c.parameters.map fun p => (s.scopes.lookup? p.name).getD .absent)) := by
    refine (h.block _).bind fun signal _ => (givesValue_resultOf c signal).bind fun v hv => ?_
    exact .read fun s _ => .pure hv
  refine (h.bindParameters _ _).bind fun _ _ => .ite ?_ hrest
  exact (keeps_define _ (isProper_defaultOf _)).bind fun _ _ => hrest

theorem invokeStep (c : Callable) (self : Option ObjectRef) (classContext : String)
    (args : List Value) : Yields n (fun r => r.1.isProper = true)
      (run.invokeStep c self classContext args) (run'.invokeStep c self classContext args) :=
  (h.runBody c args).inCall c self classContext

theorem invokeMethod (m : Procedure) (owner : ClassInfo) (self : Option ObjectRef)
    (args : List Value) :
    GivesValue n (run.invokeMethod m owner self args) (run'.invokeMethod m owner self args) :=
  (h.invoke _ _ _ _).map fun _ hr => hr

theorem invokeProcedure (p : ProcedureEntry) (args : List Value) :
    GivesValue n (run.invokeProcedure p args) (run'.invokeProcedure p args) :=
  (h.invoke _ _ _ _).map fun _ hr => hr

theorem readProperty (p : PropertyDecl) (owner : ClassInfo) (self : ObjectRef) :
    GivesValue n (run.readProperty p owner self) (run'.readProperty p owner self) :=
  (h.invoke _ _ _ _).map fun _ hr => hr

theorem readModuleProperty (p : PropertyDecl) (moduleName : String) :
    GivesValue n (run.readModuleProperty p moduleName) (run'.readModuleProperty p moduleName) :=
  (h.invoke _ _ _ _).map fun _ hr => hr

theorem writeProperty (p : PropertyDecl) (owner : ClassInfo) (self : ObjectRef) (v : Value) :
    Keeps n (run.writeProperty p owner self v) (run'.writeProperty p owner self v) :=
  .ite (.failWith _) ((h.invoke _ _ _ _).bind fun _ _ => .pure trivial)

/-! ### Assigning to names -/

theorem assignTo (name : String) {v : Value} (hv : v.isProper = true) (target : Target) :
    Keeps n (run.assignTo name v target) (run'.assignTo name v target) := by
  cases target with
  | binding key => exact keeps_rebind key hv
  | property self p owner => exact h.writeProperty _ _ _ _
  | field self => exact keeps_setField _ _ hv
  | moduleProperty p moduleName => exact (h.invoke _ _ _ _).bind fun _ _ => .pure trivial
  | missing => exact .fail _

theorem assignStep (name : String) {v : Value} (hv : v.isProper = true) :
    Keeps n (run.assignStep name v) (run'.assignStep name v) :=
  .read fun _ _ => h.assignTo name hv _

theorem assignOr (name : String) {v : Value} (hv : v.isProper = true) {x y : Interp Unit}
    (hx : Keeps n x y) : Keeps n (run.assignOr name v x) (run'.assignOr name v y) := by
  refine (h.assignBound name hv).found?.bind fun found _ => ?_
  cases found with
  | some _ => exact .pure trivial
  | none => exact hx

theorem assign (name : String) {v : Value} (hv : v.isProper = true) :
    Keeps n (run.assign name v) (run'.assign name v) := by
  refine h.assignOr name hv (.read fun s _ => ?_)
  cases s.context.self with
  | some self => exact keeps_setField _ _ hv
  | none => exact keeps_define _ hv

theorem assignOrDefine (name : String) {v : Value} (hv : v.isProper = true) :
    Keeps n (run.assignOrDefine name v) (run'.assignOrDefine name v) :=
  h.assignOr name hv (keeps_define _ hv)

/-! ### Calls with argument expressions -/

/-- An omitted argument is not written back. -/
theorem writeBackTo (p : Parameter) (v : Value) (e : Expr) :
    Keeps n (run.writeBackTo p v e) (run'.writeBackTo p v e) := by
  cases e with
  | «variable» name =>
    refine .branch (fun hback => ?_) fun _ => .pure trivial
    exact h.assignOr name (Bool.and_eq_true_iff.1 hback).2 (.pure trivial)
  | _ => exact .pure trivial

theorem writeBack (ps : List Parameter) (vs : List Value) (es : List Expr) :
    Keeps n (run.writeBack ps vs es) (run'.writeBack ps vs es) := by
  induction ps generalizing vs es with
  | nil => exact .pure trivial
  | cons p ps ih =>
    cases vs with
    | nil => exact .pure trivial
    | cons v vs =>
      cases es with
      | nil => exact .pure trivial
      | cons e es => exact (h.writeBackTo p v e).bind fun _ _ => ih vs es

theorem callWith (c : Callable) (self : Option ObjectRef) (classContext : String)
    (es : List Expr) :
    GivesValue n (run.callWith c self classContext es) (run'.callWith c self classContext es) := by
  refine (h.arguments es).bind fun args _ => (h.invoke _ _ _ _).bind fun r hr => ?_
  exact (h.writeBack _ _ _).bind fun _ _ => .pure hr

/-! ### Instances -/

theorem bounds (es : List Expr) : Keeps n (run.bounds es) (run'.bounds es) := by
  induction es with
  | nil => exact .pure trivial
  | cons e es ih =>
    refine (h.eval e).bind fun v _ => Yields.bind (.computed _) fun m _ => ?_
    exact ih.bind fun _ _ => .pure trivial

theorem initialValue (typeName : String) (es : List Expr) (initializer : Option Expr) :
    GivesValue n (run.initialValue typeName es initializer)
      (run'.initialValue typeName es initializer) := by
  refine .ite ?_ ((h.bounds es).bind fun bs _ => givesValue_build (isProper_defaultOf _) bs)
  cases initializer with
  | some e => exact (h.eval e).bind fun _ _ => .lift (Value.givesProper_coerceTo _ _)
  | none => exact .pure (isProper_defaultOf _)

theorem assignField (r : ObjectRef) (member : String) {v : Value} (hv : v.isProper = true) :
    Keeps n (run.assignField r member v) (run'.assignField r member v) := by
  refine .read fun s _ => ?_
  cases s.propertyOf? r member with
  | some found => exact h.writeProperty _ _ _ _
  | none =>
    refine (keeps_assignBindingMember r member hv).bind fun governed _ => .ite (.pure trivial) ?_
    refine (keeps_setField r member hv).bind fun _ _ => .read fun s _ => ?_
    cases s.heap.nameOf? r with
    | some name => exact keeps_emit _
    | none => exact .pure trivial

theorem assignFields (r : ObjectRef) (fields : List (String × Expr)) :
    Keeps n (run.assignFields r fields) (run'.assignFields r fields) := by
  induction fields with
  | nil => exact .pure trivial
  | cons field fields ih =>
    exact (h.eval _).bind fun v hv => (h.assignField r _ hv).bind fun _ _ => ih

theorem setFields (r : ObjectRef) (fs : List VariableDecl) :
    Keeps n (run.setFields r fs) (run'.setFields r fs) := by
  induction fs with
  | nil => exact .pure trivial
  | cons f fs ih =>
    exact (h.initialValue _ _ _).bind fun v hv => (keeps_setField r _ hv).bind fun _ _ => ih

theorem setAllFields (r : ObjectRef) (cs : List ClassInfo) :
    Keeps n (run.setAllFields r cs) (run'.setAllFields r cs) := by
  induction cs with
  | nil => exact .pure trivial
  | cons c cs ih =>
    refine Yields.bind (Yields.inContext ?_ (h.setFields r c.fields)) fun _ _ => ih
    exact Detour.keepsProper_of_withStack (fun _ => rfl) fun _ _ => rfl

theorem declaredInstance (c : ClassInfo) (args : List Value) :
    Keeps n (run.declaredInstance c args) (run'.declaredInstance c args) := by
  refine (keeps_newObject _).bind fun r _ => .read fun s _ => ?_
  refine (h.setAllFields r _).bind fun _ _ => .read fun t _ => ?_
  dsimp only
  cases t.methodOf? r "New" with
  | some found => exact (h.invokeMethod _ _ _ _).bind fun _ _ => .pure trivial
  | none => exact .pure trivial

theorem instantiate (className : String) (args : List Value) (fields : List (String × Expr)) :
    Keeps n (run.instantiate className args fields) (run'.instantiate className args fields) := by
  have hr : ∀ r : ObjectRef, Keeps n (run.assignFields r fields >>= fun _ => pure r)
      (run'.assignFields r fields >>= fun _ => pure r) := fun r =>
    (h.assignFields r fields).bind fun _ _ => .pure trivial
  refine .read fun s _ => ?_
  dsimp only
  cases s.class? className with
  | some c => exact (h.declaredInstance c args).bind fun r _ => hr r
  | none => exact (keeps_undeclaredInstance _ _).bind fun r _ => hr r

theorem defaultInstance (className : String) :
    Keeps n (run.defaultInstance className) (run'.defaultInstance className) := by
  refine .read fun s _ => ?_
  split
  · exact .pure trivial
  · refine (h.instantiate _ _ _).bind fun r _ => ?_
    exact (keeps_publish className r).bind fun _ _ => .pure trivial

/-! ### Names -/

theorem index {v : Value} (hv : v.isProper = true) (es : List Expr) :
    GivesValue n (run.index v es) (run'.index v es) := by
  induction es generalizing v with
  | nil => exact .pure hv
  | cons e es ih =>
    refine (h.eval e).bind fun i _ => Yields.bind (.computed _) fun m _ => ?_
    exact Yields.bind (.lift (givesProper_indexOf v _)) fun w hw => ih hw

/-- A built-in procedure gives a proper value, unless it is `IIf` and an argument is omitted. -/
theorem callBuiltin {key : String} {b : Builtin} (hb : builtin? key = some b) (es : List Expr) :
    Yields n (fun v => v.isProper = true ∨ (key == "iif" && es.any Expr.isOmitted) = true)
      (run.callBuiltin b es) (run'.callBuiltin b es) := by
  refine (h.arguments es).bind fun args hargs => ?_
  by_cases hleak : (key == "iif" && es.any Expr.isOmitted) = true
  · exact (keeps_of_builtin? hb args).mono fun _ _ => .inr hleak
  · refine (givesValue_of_builtin? hb fun hkey => hargs ?_).or
    rw [hkey, beq_self_eq_true, Bool.true_and] at hleak
    exact Bool.eq_false_iff.2 hleak

theorem callOwn? (s : State) (name : String) (es : List Expr) :
    Option.Rel (fun x y => GivesValue n x y) (run.callOwn? s name es)
      (run'.callOwn? s name es) := by
  unfold Runner.callOwn?
  cases s.context.self with
  | none => exact .none
  | some self =>
    simp only [Option.bind_eq_bind, Option.bind_some]
    cases s.methodOf? self name with
    | some found => exact .some (h.callWith _ _ _ _)
    | none =>
      dsimp only
      cases s.propertyOf? self name with
      | none => exact .none
      | some found =>
        simp only [Option.bind_some]
        split
        · exact .none
        · exact .some (h.callWith _ _ _ _)

theorem callNamed (name : String) (es : List Expr) :
    Yields n (fun v => v.isProper = true ∨ (Expr.call name es).mayLeak = true)
      (run.callNamed name es) (run'.callNamed name es) := by
  refine .read fun s _ => ?_
  split
  · exact (h.index rfl es).or
  · refine .getD (h.callOwn? s name es) (fun _ hv => .inl hv) ?_
    cases s.procedure? name with
    | some p => exact (h.callWith _ _ _ _).or
    | none =>
      dsimp only
      split
      · exact (h.index rfl es).or
      · cases hb : builtin? (Text.lower name) with
        | some b => exact h.callBuiltin hb es
        | none => exact .fail _

theorem readName (name : String) : GivesValue n (run.readName name) (run'.readName name) := by
  refine .read fun s hs => .ite (.lift (hs.scopes.givesProper_get name)) ?_
  cases s.ownProperty? name with
  | some found => exact h.readProperty _ _ _
  | none =>
    dsimp only
    cases hd : s.data? name with
    | some v => exact .pure (hs.data? hd)
    | none =>
      dsimp only
      cases s.moduleProperty? name with
      | some found => exact h.readModuleProperty _ _
      | none =>
        refine ((h.callNamed name []).mono fun v hv => hv.resolve_right ?_).foundOr _
        simp [Expr.mayLeak]

/-! ### Members -/

theorem owner (e : Expr) : GivesValue n (run.owner e) (run'.owner e) := by
  unfold Runner.owner
  split
  · exact givesValue_withTarget
  · next name =>
    refine .read fun s hs => ?_
    cases hd : s.data? name with
    | some v => exact .pure (hs.data? hd)
    | none => exact .ite ((h.defaultInstance name).bind fun _ _ => .pure rfl) (h.eval _)
  · exact h.eval _

theorem readObjectMember (r : ObjectRef) (member : String) :
    Yields n (fun v => v.isProper = true ∨ Text.equalFold member "current" = true)
      (run.readObjectMember r member) (run'.readObjectMember r member) := by
  refine .read fun s hs => ?_
  cases s.propertyOf? r member with
  | some found => exact (h.readProperty _ _ _).or
  | none =>
    dsimp only
    cases hfield : s.heap.get? r member with
    | some v => exact .pure (.inl (hs.heap _ _ _ hfield))
    | none =>
      dsimp only
      cases s.methodOf? r member with
      | some found => exact (h.callWith _ _ _ _).or
      | none =>
        dsimp only
        cases hbound : bindingMember? s.heap r member with
        | some v =>
          refine .pure ?_
          unfold bindingMember? at hbound
          split at hbound
          · next hcurrent => exact .inr (Bool.and_eq_true_iff.1 hcurrent).2
          · split at hbound <;> cases hbound
            exact .inl rfl
        | none => exact .ite (.pure (.inl rfl)) (.fail _)

theorem readMemberOf (v : Value) (member : String) :
    Yields n (fun v => v.isProper = true ∨ Text.equalFold member "current" = true)
      (run.readMemberOf v member) (run'.readMemberOf v member) := by
  have hfield : ∀ (s : State) (v : Value), s.Proper →
      Yields n (fun v => v.isProper = true ∨ Text.equalFold member "current" = true)
        (lift (memberOf s.heap v member)) (lift (memberOf s.heap v member)) :=
    fun s v hs => .lift fun w hw => .inl (hs.heap.givesProper_memberOf v member w hw)
  unfold Runner.readMemberOf
  split
  · exact h.readObjectMember _ _
  · exact .ite (.pure (.inl rfl)) ((givesValue_valueMethod _ _ _).or)
  · exact .ite (.pure (.inl rfl)) (.read fun s hs => hfield s _ hs)
  · exact .read fun s hs => hfield s _ hs

theorem specialMember? {s : State} (hs : s.Proper) (e : Expr) (member : String) :
    Option.Rel (fun x y => GivesValue n x y) (run.specialMember? s e member)
      (run'.specialMember? s e member) := by
  unfold Runner.specialMember?
  split
  · unfold Runner.qualifiedMember?
    split
    · next hv => exact .some (.pure (hs.scopes.lookup? hv))
    · split
      · exact .none
      · split
        · exact .some (givesValue_intrinsicMember _ _)
        · cases s.procedureAt? (qualify _ member) with
          | none => exact .none
          | some p => exact .some (h.callWith _ _ _ _)
  · exact .none

theorem readMember (e : Expr) (member : String) :
    Yields n (fun v => v.isProper = true ∨ Text.equalFold member "current" = true)
      (run.readMember e member) (run'.readMember e member) := by
  refine .read fun s hs => .getD (h.specialMember? hs e member) (fun _ hv => .inl hv) ?_
  exact (h.owner e).bind fun v _ => h.readMemberOf v member

/-! ### Methods -/

theorem callObjectMethod (r : ObjectRef) (method : String) (es : List Expr) :
    GivesValue n (run.callObjectMethod r method es) (run'.callObjectMethod r method es) := by
  refine .read fun s _ => ?_
  cases s.methodOf? r method with
  | some found => exact h.callWith _ _ _ _
  | none =>
    dsimp only
    cases s.propertyOf? r method with
    | some found => exact h.callWith _ _ _ _
    | none =>
      refine (h.arguments es).bind fun args _ => .read fun s _ => ?_
      cases hm : bindingMethod? s.heap r method with
      | some move => exact (keeps_of_bindingMethod? hm).bind fun _ _ => .pure rfl
      | none => exact givesValue_commonMethod _ _ _

theorem callMethodOn (v : Value) (method : String) (es : List Expr) :
    GivesValue n (run.callMethodOn v method es) (run'.callMethodOn v method es) := by
  unfold Runner.callMethodOn
  split
  · exact h.callObjectMethod _ _ _
  · exact (h.arguments es).bind fun _ _ => givesValue_valueMethod _ _ _

theorem callBase (method : String) (es : List Expr) :
    GivesValue n (run.callBase method es) (run'.callBase method es) := by
  refine .read fun s _ => ?_
  cases s.context.self with
  | none => exact .failWith _
  | some self =>
    refine .ite (givesValue_missingBase _ _) ?_
    split
    · exact givesValue_missingBase _ _
    · split
      · exact givesValue_missingBase _ _
      · exact h.callWith _ _ _ _

theorem addControl (form : Expr) (es : List Expr) :
    GivesValue n (run.addControl form es) (run'.addControl form es) := by
  refine (h.owner form).bind fun o _ => (yields_neededObject o).bind fun r _ => ?_
  refine (h.arguments es).bind fun args _ => ?_
  split
  · -- a control that was omitted is no instance, so it is not put on the form
    refine (yields_neededObject _).bind fun control hcontrol => .read fun s _ => ?_
    subst hcontrol
    refine (keeps_setField r _ rfl).bind fun _ _ => .read fun s _ => ?_
    exact (keeps_emit _).bind fun _ _ => .pure rfl
  · exact .failWith _

theorem specialCall? (s : State) (e : Expr) (method : String) (es : List Expr) :
    Option.Rel (fun x y => GivesValue n x y) (run.specialCall? s e method es)
      (run'.specialCall? s e method es) := by
  unfold Runner.specialCall?
  split
  · exact .some (h.callBase _ _)
  · split
    · exact .some (h.addControl _ _)
    · exact .none
  · next name =>
    unfold Runner.qualifiedCall?
    split
    · exact .some (h.callWith _ _ _ _)
    · split
      · exact .none
      · cases hb : builtin? (Text.lower (name ++ "." ++ method)) with
        | some b =>
          have hkey : (Text.lower (name ++ "." ++ method) == "iif") = false :=
            beq_false_of_ne (lower_dotted_ne name method (by decide))
          refine .some ((h.callBuiltin hb es).mono fun v hv => hv.resolve_right ?_)
          rw [hkey, Bool.false_and]
          exact Bool.false_ne_true
        | none =>
          dsimp only
          split
          · exact .some (.fail _)
          · exact .none
  · exact .none

theorem callMethod (e : Expr) (method : String) (es : List Expr) :
    GivesValue n (run.callMethod e method es) (run'.callMethod e method es) := by
  refine .read fun s _ => .getD (h.specialCall? s e method es) (fun _ hv => hv) ?_
  exact (h.owner e).bind fun v _ => h.callMethodOn v method es

/-! ### The step -/

theorem conditional (c t f : Expr) :
    GivesValue n (run.conditional c t f) (run'.conditional c t f) := by
  refine .ite ((h.eval c).bind fun v hv => .ite (h.eval t) (.pure hv)) ?_
  exact (h.condition c).bind fun _ _ => .ite (h.eval t) (h.eval f)

theorem evalAll (es : List Expr) : Keeps n (run.evalAll es) (run'.evalAll es) := by
  induction es with
  | nil => exact .pure trivial
  | cons e es ih => exact (h.eval e).bind fun _ _ => ih.bind fun _ _ => .pure trivial

theorem binary (op : Operator) (l r : Expr) :
    GivesValue n (run.binary op l r) (run'.binary op l r) := by
  refine (h.eval l).bind fun a _ => ?_
  split
  · refine Yields.bind (.computed _) fun b _ => .ite ?_ (.pure rfl)
    exact (h.condition r).bind fun _ _ => .pure rfl
  · refine Yields.bind (.computed _) fun b _ => .ite (.pure rfl) ?_
    exact (h.condition r).bind fun _ _ => .pure rfl
  · exact (h.eval r).bind fun b _ => .lift (Operator.givesProper_apply _ _ _)

/-- Evaluation gives a proper value, or the expression is one of the exceptions. -/
theorem evalStep (e : Expr) :
    Yields n (fun v => v.isProper = true ∨ e.mayLeak = true) (run.evalStep e)
      (run'.evalStep e) := by
  cases e with
  | «variable» name => exact (h.readName name).or
  | member o name => exact h.readMember o name
  | element name es => exact h.callNamed name es
  | call name es => exact h.callNamed name es
  | method o name es => exact (h.callMethod o name es).or
  | new className es fields =>
    refine (h.arguments es).bind fun args _ => ?_
    exact (h.instantiate className args fields).bind fun _ _ => .pure (.inl rfl)
  | me => exact givesValue_currentObject.or
  | myBase => exact givesValue_currentObject.or
  | withTarget => exact givesValue_withTarget.or
  | conditional c t f => exact (h.conditional c t f).or
  | typeOf e typeName =>
    refine (h.eval e).bind fun v _ => ?_
    split
    · exact .read fun s _ => .pure (.inl rfl)
    · exact .pure (.inl rfl)
  | cast kind e targetType => exact (h.eval e).bind fun v _ => (givesValue_cast _ _ v).or
  | addressOf name => exact .pure (.inl rfl)
  | await e => exact (h.eval e).or
  | lambda ps body => exact .failWith _
  | array es => exact (h.evalAll es).bind fun vs _ => (givesValue_newArrayOf vs).or
  | binary op l r => exact (h.binary op l r).or
  | unary op e =>
    exact (h.eval e).bind fun v _ => (Yields.lift (Operator.givesProper_applyUnary op v)).or
  | date s => exact (Yields.lift (Expr.givesProper_of_literal? (e := .date s) rfl)).or
  | _ => exact .pure (.inl rfl)

end ProperAlike

end Runner

end FormBasic
