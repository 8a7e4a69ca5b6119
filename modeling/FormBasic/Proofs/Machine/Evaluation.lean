import FormBasic.Proofs.Machine.Domain
import FormBasic.Proofs.Machine.RunRelation

/-!
# Evaluation respects run relations

Two runners are related on a domain when their answers to the requests in the domain are. This
module shows that everything one step of evaluation is made of takes related runners to related
runs: arguments and parameters, assignments to names, calls with write-back, instances, members and
methods. There is one lemma for each function of the machine, and each follows the text of its
function. What it asks for has to be in the domain, and this is where the lists of `Domain` come
from.

Where a function rebinds names or takes a missing name for an answer, the lemma asks for a relation
that allows it.

## Main results

* `Runner.RelatedOn` — runners whose answers are related on a domain
* `Runner.RelatedOn.runBody` — the body of a call
* `Runner.RelatedOn.assignStep` — one step of an assignment
* `Runner.RelatedOn.evalStep` — one step of evaluation
-/

namespace FormBasic

open Interp

/-! ### Initial values -/

namespace StepRelation

variable (L : StepRelation) {run run' : Runner}

theorem bounds {es : List Expr} (hes : ∀ e ∈ es, L.Rel (run.eval e) (run'.eval e)) :
    L.Rel (run.bounds es) (run'.bounds es) := by
  induction es with
  | nil => exact L.pure _
  | cons e es ih =>
    refine L.bind (hes e List.mem_cons_self) fun v => L.bind (L.lift _) fun n => ?_
    exact L.bind (ih fun e he => hes e (List.mem_cons_of_mem _ he)) fun ns => L.pure _

theorem initialValue (typeName : String) {es : List Expr} {initializer : Option Expr}
    (hes : ∀ e ∈ es ++ initializer.toList, L.Rel (run.eval e) (run'.eval e)) :
    L.Rel (run.initialValue typeName es initializer)
      (run'.initialValue typeName es initializer) := by
  refine L.ite ?_ (L.bind (L.bounds fun e he => hes e (List.mem_append_left _ he)) fun _ =>
    L.quiet (quiet_build _))
  cases initializer with
  | some e => exact L.bind (hes e (by simp)) fun _ => L.lift _
  | none => exact L.pure _

theorem setFields (r : ObjectRef) {fs : List VariableDecl}
    (hfs : ∀ f ∈ fs, ∀ e ∈ f.exprs, L.Rel (run.eval e) (run'.eval e)) :
    L.Rel (run.setFields r fs) (run'.setFields r fs) := by
  induction fs with
  | nil => exact L.pure _
  | cons f fs ih =>
    refine L.bind (L.initialValue _ (hfs f List.mem_cons_self)) fun v => ?_
    refine L.bind (L.quiet (quiet_setField _ _ _)) fun _ => ?_
    exact ih fun f hf => hfs f (List.mem_cons_of_mem _ hf)

end StepRelation

namespace Runner

/-- Set the fields that one class declares for an instance, in the context of the two. -/
def setOwnFields (run : Runner) (r : ObjectRef) (c : ClassInfo) : Interp Unit :=
  Interp.inContext (.setting r c.name) (run.setFields r c.fields)

/-- Runners whose answers to the requests in a domain are related. What is declared belongs to the
domain, and the fields of the classes in it are set by related runs. -/
structure RelatedOn (D : Domain) (L : StepRelation) (run run' : Runner) : Prop where
  eval : ∀ {e}, D.expr e → L.Rel (run.eval e) (run'.eval e)
  exec : ∀ {s}, D.stmt s → L.Rel (run.exec s) (run'.exec s)
  invoke : ∀ {c} self classContext args, D.call c →
    L.Rel (run.invoke c self classContext args) (run'.invoke c self classContext args)
  assignBound : ∀ name v, L.Rel (run.assignBound name v) (run'.assignBound name v)
  declared : ∀ {s c}, L.Inv s → s.Declares c → D.call c
  fields : ∀ {s t u className c c'}, D.instances className → L.Inv s →
    s.class? className = some c → L.Inv t → L.Inv u → c' ∈ u.classTable.chain c.name →
    L.Rel (run.setOwnFields (t.heap.alloc c.name).1 c')
      (run'.setOwnFields (t.heap.alloc c.name).1 c')

namespace RelatedOn

variable {D : Domain} {L : StepRelation} {run run' : Runner} (h : RelatedOn D L run run')
include h

/-! ### Blocks and arguments -/

theorem block {ss : List Stmt} (hss : ∀ s ∈ ss, D.stmt s) :
    L.Rel (run.block ss) (run'.block ss) := by
  induction ss with
  | nil => exact L.pure _
  | cons s ss ih =>
    refine L.bind (h.exec (hss s List.mem_cons_self)) fun signal => ?_
    cases signal with
    | normal => exact ih fun s hs => hss s (List.mem_cons_of_mem _ hs)
    | _ => exact L.pure _

theorem condition {e : Expr} (he : D.expr e) : L.Rel (run.condition e) (run'.condition e) :=
  L.bind (h.eval he) fun _ => L.lift _

theorem argument {e : Expr} (he : D.expr e) : L.Rel (run.argument e) (run'.argument e) :=
  L.ite (L.pure _) (h.eval he)

theorem arguments {es : List Expr} (hes : ∀ e ∈ es, D.expr e) :
    L.Rel (run.arguments es) (run'.arguments es) := by
  induction es with
  | nil => exact L.pure _
  | cons e es ih =>
    refine L.bind (h.argument (hes e List.mem_cons_self)) fun v => ?_
    exact L.bind (ih fun e he => hes e (List.mem_cons_of_mem _ he)) fun vs => L.pure _

/-! ### Calls -/

theorem parameterValue (p : Parameter) (hp : ∀ e, p.default = some e → D.expr e) (arg : Value) :
    L.Rel (run.parameterValue p arg) (run'.parameterValue p arg) := by
  have hv : ∀ v : Value, L.Rel (lift (v.coerceTo p.typeName)) (lift (v.coerceTo p.typeName)) :=
    fun v => L.lift _
  refine L.ite (L.bind (L.pure _) hv) ?_
  cases hd : p.default with
  | none => exact L.bind (L.pure _) hv
  | some e => exact L.bind (h.eval (hp e hd)) hv

theorem bindParameters (hb : ∀ name, L.BindsCurrent name) (ps : List Parameter)
    (hps : ∀ e ∈ ps.filterMap (·.default), D.expr e) (args : List Value) :
    L.Rel (run.bindParameters ps args) (run'.bindParameters ps args) := by
  induction ps generalizing args with
  | nil => exact L.pure _
  | cons p ps ih =>
    refine L.ite ?_ ?_
    · exact L.bind (L.quiet (quiet_newArrayOf _)) fun v => hb _ _
    · have hp : ∀ e, p.default = some e → D.expr e := fun e he =>
        hps e (List.mem_filterMap.2 ⟨p, List.mem_cons_self, he⟩)
      refine L.bind (h.parameterValue p hp _) fun v => L.bind (hb _ _) fun _ => ih ?_ _
      intro e he
      obtain ⟨q, hq, hd⟩ := List.mem_filterMap.1 he
      exact hps e (List.mem_filterMap.2 ⟨q, List.mem_cons_of_mem _ hq, hd⟩)

theorem runBody (hb : ∀ name, L.BindsCurrent name) {c : Callable}
    (hdefaults : ∀ e ∈ c.defaults, D.expr e) (hbody : ∀ s ∈ c.body, D.stmt s)
    (args : List Value) : L.Rel (run.runBody c args) (run'.runBody c args) := by
  have hrest : L.Rel
      (do let signal ← run.block c.body
          let result ← resultOf c signal
          let s ← get
          return (result, c.parameters.map fun p => (s.scopes.lookup? p.name).getD .absent))
      (do let signal ← run'.block c.body
          let result ← resultOf c signal
          let s ← get
          return (result, c.parameters.map fun p => (s.scopes.lookup? p.name).getD .absent)) := by
    refine L.bind (h.block hbody) fun signal => ?_
    refine L.bind (L.quiet (quiet_resultOf c signal)) fun v => ?_
    exact L.read (fun _ _ _ => rfl) fun s _ => L.pure _
  refine L.bind (h.bindParameters hb _ hdefaults _) fun _ => L.ite ?_ hrest
  exact L.bind (hb _ _) fun _ => hrest

theorem invokeMethod {m : Procedure} {owner : ClassInfo}
    (hm : D.call (.ofProcedure m owner.moduleName)) (self : Option ObjectRef) (args : List Value) :
    L.Rel (run.invokeMethod m owner self args) (run'.invokeMethod m owner self args) :=
  L.map _ (h.invoke _ _ _ hm)

theorem invokeProcedure {p : ProcedureEntry} (hp : D.call (.ofEntry p)) (args : List Value) :
    L.Rel (run.invokeProcedure p args) (run'.invokeProcedure p args) :=
  L.map _ (h.invoke _ _ _ hp)

theorem readProperty {p : PropertyDecl} {owner : ClassInfo}
    (hp : D.call (.getter p owner.moduleName)) (self : ObjectRef) :
    L.Rel (run.readProperty p owner self) (run'.readProperty p owner self) :=
  L.map _ (h.invoke _ _ _ hp)

theorem readModuleProperty {p : PropertyDecl} {moduleName : String}
    (hp : D.call (.getter p moduleName)) :
    L.Rel (run.readModuleProperty p moduleName) (run'.readModuleProperty p moduleName) :=
  L.map _ (h.invoke _ _ _ hp)

theorem writeProperty {p : PropertyDecl} {owner : ClassInfo}
    (hp : D.call (.setter p owner.moduleName)) (self : ObjectRef) (v : Value) :
    L.Rel (run.writeProperty p owner self v) (run'.writeProperty p owner self v) :=
  L.ite (L.failWith _) (L.bind (h.invoke _ _ _ hp) fun _ => L.pure _)

/-! ### Assignments to names -/

theorem assignTo (name : String) (v : Value) {s : State} (hs : L.Inv s)
    (ht : ∀ key, s.target name = .binding key → L.Rel (rebind key v) (rebind key v)) :
    L.Rel (run.assignTo name v (s.target name)) (run'.assignTo name v (s.target name)) := by
  revert ht
  unfold State.target
  split
  · exact fun ht => ht _ rfl
  · split
    · next hp =>
      refine fun _ => h.writeProperty (h.declared hs ?_) _ _
      exact State.declares_setter (State.property?_of_ownProperty? hp)
    · split
      · exact fun _ => L.quiet (quiet_setField _ _ _)
      · split
        · exact fun ht => ht _ rfl
        · split
          · exact fun ht => ht _ rfl
          · split
            · next hp =>
              obtain ⟨key, hkey⟩ := State.exists_find?_of_moduleProperty? hp
              exact fun _ => L.bind (h.invoke _ _ _ (h.declared hs (.moduleSetter hkey _))) fun _ =>
                L.pure _
            · exact fun _ => L.fail _

theorem assignStep (hr : L.Rebinds) (name : String) (v : Value) :
    L.Rel (run.assignStep name v) (run'.assignStep name v) :=
  L.read (fun _ _ _ => rfl) fun _ hs => h.assignTo name v hs fun key _ => hr key v

theorem assignOr (hf : L.Forgives) (name : String) (v : Value) {x y : Interp Unit}
    (hx : L.Rel x y) :
    L.Rel (run.assignOr name v x) (run'.assignOr name v y) := by
  refine L.bind (hf (h.assignBound name v)) fun found => ?_
  cases found with
  | some _ => exact L.pure _
  | none => exact hx

theorem assign (hf : L.Forgives) {name : String} (hb : L.BindsCurrent name) (v : Value) :
    L.Rel (run.assign name v) (run'.assign name v) := by
  refine h.assignOr hf name v (L.read (fun _ _ _ => rfl) fun s _ => ?_)
  cases s.context.self with
  | some self => exact L.quiet (quiet_setField _ _ _)
  | none => exact hb _

theorem assignOrDefine (hf : L.Forgives) {name : String} (hb : L.BindsCurrent name) (v : Value) :
    L.Rel (run.assignOrDefine name v) (run'.assignOrDefine name v) :=
  h.assignOr hf name v (hb _)

/-! ### Calls with argument expressions -/

theorem writeBackTo (p : Parameter) (v : Value) {e : Expr}
    (he : ∀ name, .variable name = e → L.Forgives) :
    L.Rel (run.writeBackTo p v e) (run'.writeBackTo p v e) := by
  cases e with
  | «variable» name =>
    exact L.ite (h.assignOr (he name rfl) name v (L.pure _)) (L.pure _)
  | _ => exact L.pure _

theorem writeBack (ps : List Parameter) (vs : List Value) {es : List Expr}
    (he : ∀ name, .variable name ∈ es → L.Forgives) :
    L.Rel (run.writeBack ps vs es) (run'.writeBack ps vs es) := by
  induction es generalizing ps vs with
  | nil => cases ps <;> cases vs <;> exact L.pure _
  | cons e es ih =>
    have ih := fun ps vs => ih ps vs fun name hname => he name (List.mem_cons_of_mem _ hname)
    cases ps with
    | nil => exact L.pure _
    | cons p ps =>
      cases vs with
      | nil => exact L.pure _
      | cons v vs =>
        refine L.bind (h.writeBackTo p v fun name hname => he name ?_) fun _ => ih ps vs
        exact hname ▸ List.mem_cons_self

theorem invokeOn {c : Callable} (hc : D.call c) (self : Option ObjectRef) (classContext : String)
    (args : List Value) {es : List Expr} (he : ∀ name, .variable name ∈ es → L.Forgives) :
    L.Rel (run.invokeOn c self classContext args es) (run'.invokeOn c self classContext args es) :=
  L.bind (h.invoke _ _ _ hc) fun _ => L.bind (h.writeBack _ _ he) fun _ => L.pure _

theorem callWith {c : Callable} (hc : D.call c) (self : Option ObjectRef) (classContext : String)
    {es : List Expr} (hes : ∀ e ∈ es, D.expr e) (he : ∀ name, .variable name ∈ es → L.Forgives) :
    L.Rel (run.callWith c self classContext es) (run'.callWith c self classContext es) :=
  L.bind (h.arguments hes) fun _ => h.invokeOn hc _ _ _ he

/-! ### Instances -/

theorem bounds {es : List Expr} (hes : ∀ e ∈ es, D.expr e) :
    L.Rel (run.bounds es) (run'.bounds es) :=
  L.bounds fun e he => h.eval (hes e he)

theorem initialValue (typeName : String) {es : List Expr} {initializer : Option Expr}
    (hes : ∀ e ∈ es ++ initializer.toList, D.expr e) :
    L.Rel (run.initialValue typeName es initializer)
      (run'.initialValue typeName es initializer) :=
  L.initialValue typeName fun e he => h.eval (hes e he)

theorem assignField (r : ObjectRef) (member : String) (v : Value) :
    L.Rel (run.assignField r member v) (run'.assignField r member v) := by
  refine L.read (fun _ _ _ => rfl) fun s hs => ?_
  cases hp : s.propertyOf? r member with
  | some found => exact h.writeProperty (h.declared hs (State.declares_setter hp)) _ _
  | none =>
    refine L.bind (L.quiet (quiet_assignBindingMember r member v)) fun governed => ?_
    refine L.ite (L.pure _) (L.bind (L.quiet (quiet_setField _ _ _)) fun _ => ?_)
    refine L.read (fun _ _ _ => rfl) fun s _ => ?_
    cases s.heap.nameOf? r with
    | some name => exact L.quiet (quiet_emit _ rfl)
    | none => exact L.pure _

theorem assignFields (r : ObjectRef) {fields : List (String × Expr)}
    (hfields : ∀ e ∈ fields.map (·.2), D.expr e) :
    L.Rel (run.assignFields r fields) (run'.assignFields r fields) := by
  induction fields with
  | nil => exact L.pure _
  | cons field fields ih =>
    refine L.bind (h.eval (hfields _ List.mem_cons_self)) fun v => ?_
    exact L.bind (h.assignField _ _ _) fun _ => ih fun e he => hfields e (List.mem_cons_of_mem _ he)

omit h in
theorem setAllFields {r : ObjectRef} {cs : List ClassInfo}
    (hcs : ∀ c ∈ cs, L.Rel (run.setOwnFields r c) (run'.setOwnFields r c)) :
    L.Rel (run.setAllFields r cs) (run'.setAllFields r cs) := by
  induction cs with
  | nil => exact L.pure _
  | cons c cs ih =>
    refine L.bind (hcs c List.mem_cons_self) fun _ => ?_
    exact ih fun c hc => hcs c (List.mem_cons_of_mem _ hc)

theorem declaredInstance {className : String} (hname : D.instances className) {s : State}
    (hs : L.Inv s) {c : ClassInfo} (hc : s.class? className = some c) (args : List Value) :
    L.Rel (run.declaredInstance c args) (run'.declaredInstance c args) := by
  refine L.bindNewObject fun t ht => L.read (fun _ _ _ => rfl) fun s' hs' => ?_
  refine L.bind (setAllFields fun c' hc' => ?_) fun _ => ?_
  · exact h.fields hname hs hc ht hs' (List.mem_reverse.1 hc')
  · refine L.read (fun _ _ _ => rfl) fun u hu => ?_
    dsimp only
    cases hm : u.methodOf? (t.heap.alloc c.name).1 "New" with
    | some found =>
      refine L.bind (h.invokeMethod (h.declared hu (State.declares_of_method? hm)) _ _) fun _ => ?_
      exact L.pure _
    | none => exact L.pure _

theorem instantiate {className : String} (hname : D.instances className) (args : List Value)
    {fields : List (String × Expr)} (hfields : ∀ e ∈ fields.map (·.2), D.expr e) :
    L.Rel (run.instantiate className args fields) (run'.instantiate className args fields) := by
  refine L.read (fun _ _ _ => rfl) fun s hs => ?_
  have hr : ∀ r, L.Rel (run.assignFields r fields >>= fun _ => Pure.pure r)
      (run'.assignFields r fields >>= fun _ => Pure.pure r) := fun r =>
    L.bind (h.assignFields r hfields) fun _ => L.pure r
  dsimp only
  cases hc : s.class? className with
  | some c => exact L.bind (h.declaredInstance hname hs hc args) hr
  | none => exact L.bind (L.quiet (quiet_undeclaredInstance _ _)) hr

theorem defaultInstance {className : String} (hname : D.instances className)
    (hp : ∀ r, L.Rel (Interp.publish className r) (Interp.publish className r)) :
    L.Rel (run.defaultInstance className) (run'.defaultInstance className) := by
  refine L.read (fun _ _ _ => rfl) fun s _ => ?_
  split
  · exact L.pure _
  · exact L.bind (h.instantiate hname _ nofun) fun r => L.bind (hp r) fun _ => L.pure _

/-! ### Names -/

theorem index (v : Value) {es : List Expr} (hes : ∀ e ∈ es, D.expr e) :
    L.Rel (run.index v es) (run'.index v es) := by
  induction es generalizing v with
  | nil => exact L.pure _
  | cons e es ih =>
    refine L.bind (h.eval (hes e List.mem_cons_self)) fun i => L.bind (L.lift _) fun n => ?_
    exact L.bind (L.lift _) fun w => ih w fun e he => hes e (List.mem_cons_of_mem _ he)

theorem callBuiltin {key : String} {b : Builtin} (hb : builtin? key = some b) {es : List Expr}
    (hes : ∀ e ∈ es, D.expr e) :
    L.Rel (run.callBuiltin b es) (run'.callBuiltin b es) :=
  L.bind (h.arguments hes) fun args => L.quiet (quiet_of_builtin? hb args)

section
variable {es : List Expr} (hes : ∀ e ∈ es, D.expr e)
  (he : ∀ name, .variable name ∈ es → L.Forgives)
include hes he

theorem callOwn? {s : State} (hs : L.Inv s) (name : String) :
    Option.Rel L.Rel (run.callOwn? s name es) (run'.callOwn? s name es) := by
  unfold Runner.callOwn?
  cases s.context.self with
  | none => exact .none
  | some self =>
    simp only [Option.bind_eq_bind, Option.bind_some]
    cases hm : s.methodOf? self name with
    | some found =>
      exact .some (h.callWith (h.declared hs (State.declares_of_method? hm)) _ _ hes he)
    | none =>
      dsimp only
      cases hp : s.propertyOf? self name with
      | none => exact .none
      | some found =>
        simp only [Option.bind_some]
        split
        · exact .none
        · exact .some (h.callWith (h.declared hs (State.declares_getter hp)) _ _ hes he)

theorem callNamed (name : String) : L.Rel (run.callNamed name es) (run'.callNamed name es) := by
  refine L.read (fun _ _ _ => rfl) fun s hs => ?_
  split
  · exact h.index _ hes
  · refine L.getD (h.callOwn? hes he hs name) ?_
    cases hp : s.procedure? name with
    | some p => exact h.callWith (h.declared hs (State.declares_of_procedure? hp)) _ _ hes he
    | none =>
      dsimp only
      split
      · exact h.index _ hes
      · cases hb : builtin? (Text.lower name) with
        | some b => exact h.callBuiltin hb hes
        | none => exact L.fail _

end

theorem readName (hr : L.Renames) (name : String) :
    L.Rel (run.readName name) (run'.readName name) := by
  refine L.read (fun _ _ _ => rfl) fun s hs => L.ite (L.lift _) ?_
  cases hown : s.ownProperty? name with
  | some found =>
    have hp := State.declares_getter (State.property?_of_ownProperty? hown)
    exact h.readProperty (h.declared hs hp) _
  | none =>
    dsimp only
    cases s.data? name with
    | some v => exact L.pure _
    | none =>
      dsimp only
      cases hp : s.moduleProperty? name with
      | some found =>
        obtain ⟨key, hkey⟩ := State.exists_find?_of_moduleProperty? hp
        exact h.readModuleProperty (h.declared hs (.moduleGetter hkey _))
      | none => exact hr _ (h.callNamed (by nofun) (by nofun) name)

/-! ### Members -/

theorem owner {e : Expr} (he : D.expr e) (hc : ∀ name ∈ e.ownerClass, D.instances name) :
    L.Rel (run.owner e) (run'.owner e) := by
  unfold Runner.owner
  split
  · exact L.quiet quiet_withTarget
  · next name =>
    refine L.read (fun _ _ _ => rfl) fun s hs => ?_
    cases hd : s.data? name with
    | some v => exact L.pure _
    | none =>
      have hnone := State.lookup?_eq_none_of_data? hd
      have hi := h.defaultInstance (hc name List.mem_cons_self)
        (L.publishes fun v => L.publish name v hs hnone)
      exact L.ite (L.bind hi fun _ => L.pure _) (h.eval he)
  · exact h.eval he

theorem readObjectMember (r : ObjectRef) (member : String) :
    L.Rel (run.readObjectMember r member) (run'.readObjectMember r member) := by
  refine L.read (fun _ _ _ => rfl) fun s hs => ?_
  cases hp : s.propertyOf? r member with
  | some found => exact h.readProperty (h.declared hs (State.declares_getter hp)) _
  | none =>
    dsimp only
    cases s.heap.get? r member with
    | some v => exact L.pure _
    | none =>
      dsimp only
      cases hm : s.methodOf? r member with
      | some found =>
        exact h.callWith (h.declared hs (State.declares_of_method? hm)) _ _ nofun nofun
      | none =>
        dsimp only
        cases bindingMember? s.heap r member with
        | some v => exact L.pure _
        | none => exact L.ite (L.pure _) (L.fail _)

theorem readMemberOf (v : Value) (member : String) :
    L.Rel (run.readMemberOf v member) (run'.readMemberOf v member) := by
  unfold Runner.readMemberOf
  split
  · exact h.readObjectMember _ _
  · exact L.ite (L.pure _) (L.quiet (quiet_valueMethod _ _ _))
  · exact L.ite (L.pure _) (L.read (fun _ _ _ => rfl) fun s _ => L.lift _)
  · exact L.read (fun _ _ _ => rfl) fun s _ => L.lift _

theorem qualifiedMember? {s : State} (hs : L.Inv s) (name member : String) :
    Option.Rel L.Rel (run.qualifiedMember? s name member)
      (run'.qualifiedMember? s name member) := by
  unfold Runner.qualifiedMember?
  split
  · exact .some (L.pure _)
  · split
    · exact .none
    · split
      · exact .some (L.quiet (quiet_intrinsicMember _ _))
      · cases hp : s.procedureAt? (qualify name member) with
        | none => exact .none
        | some p =>
          have hd := h.declared hs (State.declares_of_procedureAt? hp)
          exact .some (h.callWith hd _ _ nofun nofun)

theorem specialMember? {s : State} (hs : L.Inv s) (e : Expr) (member : String) :
    Option.Rel L.Rel (run.specialMember? s e member) (run'.specialMember? s e member) := by
  unfold Runner.specialMember?
  split
  · exact h.qualifiedMember? hs _ member
  · exact .none

theorem readMember {e : Expr} (he : D.expr e) (hc : ∀ name ∈ e.ownerClass, D.instances name)
    (member : String) : L.Rel (run.readMember e member) (run'.readMember e member) := by
  refine L.read (fun _ _ _ => rfl) fun s hs => L.getD (h.specialMember? hs e member) ?_
  exact L.bind (h.owner he hc) fun v => h.readMemberOf v member

/-! ### Methods -/

section
variable {es : List Expr} (hes : ∀ e ∈ es, D.expr e)
  (he : ∀ name, .variable name ∈ es → L.Forgives)
include hes he

theorem callObjectMethod (r : ObjectRef) (method : String) :
    L.Rel (run.callObjectMethod r method es) (run'.callObjectMethod r method es) := by
  refine L.read (fun _ _ _ => rfl) fun s hs => ?_
  cases hm : s.methodOf? r method with
  | some found => exact h.callWith (h.declared hs (State.declares_of_method? hm)) _ _ hes he
  | none =>
    dsimp only
    cases hp : s.propertyOf? r method with
    | some found => exact h.callWith (h.declared hs (State.declares_getter hp)) _ _ hes he
    | none =>
      refine L.bind (h.arguments hes) fun args => L.read (fun _ _ _ => rfl) fun s _ => ?_
      cases hm : bindingMethod? s.heap r method with
      | some move => exact L.bind (L.quiet (quiet_of_bindingMethod? hm)) fun _ => L.pure _
      | none => exact L.quiet (quiet_commonMethod _ _ _)

theorem callMethodOn (v : Value) (method : String) :
    L.Rel (run.callMethodOn v method es) (run'.callMethodOn v method es) := by
  unfold Runner.callMethodOn
  split
  · exact h.callObjectMethod hes he _ _
  · exact L.bind (h.arguments hes) fun _ => L.quiet (quiet_valueMethod _ _ _)

theorem callBase (method : String) : L.Rel (run.callBase method es) (run'.callBase method es) := by
  refine L.read (fun _ _ _ => rfl) fun s hs => ?_
  cases s.context.self with
  | none => exact L.failWith _
  | some self =>
    refine L.ite (L.quiet (quiet_missingBase _ _)) ?_
    split
    · exact L.quiet (quiet_missingBase _ _)
    · split
      · exact L.quiet (quiet_missingBase _ _)
      · next hm =>
        exact h.callWith (h.declared hs (State.declares_of_method? hm)) _ _ hes he

theorem qualifiedCall? {s : State} (hs : L.Inv s) (name method : String) :
    Option.Rel L.Rel (run.qualifiedCall? s name method es)
      (run'.qualifiedCall? s name method es) := by
  unfold Runner.qualifiedCall?
  split
  · next hp =>
    exact .some (h.callWith (h.declared hs (State.declares_of_procedureAt? hp)) _ _ hes he)
  · split
    · exact .none
    · cases hb : builtin? (Text.lower (name ++ "." ++ method)) with
      | some b => exact .some (h.callBuiltin hb hes)
      | none =>
        dsimp only
        split
        · exact .some (L.fail _)
        · exact .none

end

theorem addControl {form : Expr} (hform : D.expr form)
    (hc : ∀ name ∈ form.ownerClass, D.instances name) {es : List Expr}
    (hes : ∀ e ∈ es, D.expr e) :
    L.Rel (run.addControl form es) (run'.addControl form es) := by
  refine L.bind (h.owner hform hc) fun v => L.bind (L.quiet (quiet_neededObject v)) fun r => ?_
  refine L.bind (h.arguments hes) fun args => ?_
  split
  · refine L.bind (L.quiet (quiet_neededObject _)) fun control => ?_
    refine L.read (fun _ _ _ => rfl) fun s _ => L.bind (L.quiet (quiet_setField _ _ _)) fun _ => ?_
    refine L.read (fun _ _ _ => rfl) fun s _ => ?_
    exact L.bind (L.quiet (quiet_emit _ rfl)) fun _ => L.pure _
  · exact L.failWith _

theorem callMethod {e : Expr} (hparts : ∀ e' ∈ e.owners, D.expr e')
    (hc : ∀ name ∈ e.owners.flatMap Expr.ownerClass, D.instances name) (method : String)
    {es : List Expr} (hes : ∀ e ∈ es, D.expr e) (he : ∀ name, .variable name ∈ es → L.Forgives) :
    L.Rel (run.callMethod e method es) (run'.callMethod e method es) := by
  have hs : ∀ {s}, L.Inv s → Option.Rel L.Rel (run.specialCall? s e method es)
      (run'.specialCall? s e method es) := by
    intro s hs
    unfold specialCall?
    split
    · exact .some (h.callBase hes he method)
    · next form m =>
      split
      · refine .some (h.addControl (hparts form (by simp [Expr.owners])) (fun name hname => ?_) hes)
        exact hc name (List.mem_flatMap.2 ⟨form, by simp [Expr.owners], hname⟩)
      · exact .none
    · exact h.qualifiedCall? hes he hs _ method
    · exact .none
  have hself : e ∈ e.owners := by cases e <;> simp [Expr.owners]
  refine L.read (fun _ _ _ => rfl) fun s hs' => L.getD (hs hs') ?_
  refine L.bind (h.owner (hparts e hself) fun name hname => ?_) fun v => ?_
  · exact hc name (List.mem_flatMap.2 ⟨e, hself, hname⟩)
  · exact h.callMethodOn hes he v method

/-! ### The step -/

theorem conditional {c t f : Expr} (hparts : ∀ e ∈ [c, t, f], D.expr e) :
    L.Rel (run.conditional c t f) (run'.conditional c t f) := by
  have hc := h.eval (hparts c (by simp))
  have ht := h.eval (hparts t (by simp))
  have hf := h.eval (hparts f (by simp))
  refine L.ite (L.bind hc fun v => L.ite ht (L.pure _)) ?_
  exact L.bind (L.bind hc fun _ => L.lift _) fun _ => L.ite ht hf

theorem evalAll {es : List Expr} (hes : ∀ e ∈ es, D.expr e) :
    L.Rel (run.evalAll es) (run'.evalAll es) := by
  induction es with
  | nil => exact L.pure _
  | cons e es ih =>
    refine L.bind (h.eval (hes e List.mem_cons_self)) fun v => ?_
    exact L.bind (ih fun e he => hes e (List.mem_cons_of_mem _ he)) fun vs => L.pure _

theorem binary (op : Operator) {l r : Expr} (hl : D.expr l) (hr : D.expr r) :
    L.Rel (run.binary op l r) (run'.binary op l r) := by
  refine L.bind (h.eval hl) fun a => ?_
  split
  · refine L.bind (L.lift _) fun b => L.ite ?_ (L.pure _)
    exact L.bind (h.condition hr) fun _ => L.pure _
  · refine L.bind (L.lift _) fun b => L.ite (L.pure _) ?_
    exact L.bind (h.condition hr) fun _ => L.pure _
  · exact L.bind (h.eval hr) fun _ => L.lift _

theorem evalStep {e : Expr} (hparts : ∀ e' ∈ e.parts, D.expr e')
    (hclasses : ∀ name ∈ e.classes, D.instances name) (hr : e.isVariable = true → L.Renames)
    (he : ∀ name, .variable name ∈ e.callArguments → L.Forgives) :
    L.Rel (run.evalStep e) (run'.evalStep e) := by
  unfold Runner.evalStep
  split
  · exact h.readName (hr rfl) _
  · exact h.readMember (hparts _ (by simp [Expr.parts])) hclasses _
  · exact h.callNamed hparts he _
  · exact h.callNamed hparts he _
  · exact h.callMethod (fun e he => hparts e (List.mem_append_left _ he)) hclasses _
      (fun e he => hparts e (List.mem_append_right _ he)) he
  · refine L.bind (h.arguments fun e he => hparts e (List.mem_append_left _ he)) fun args => ?_
    refine L.bind (h.instantiate (hclasses _ List.mem_cons_self) _ fun e he => ?_) fun r => L.pure _
    exact hparts e (List.mem_append_right _ he)
  · exact L.quiet quiet_currentObject
  · exact L.quiet quiet_currentObject
  · exact L.quiet quiet_withTarget
  · exact h.conditional hparts
  · refine L.bind (h.eval (hparts _ (by simp [Expr.parts]))) fun v => ?_
    split
    · exact L.read (fun _ _ _ => rfl) fun s _ => L.pure _
    · exact L.pure _
  · exact L.bind (h.eval (hparts _ (by simp [Expr.parts]))) fun v => L.quiet (quiet_cast _ _ _)
  · exact L.pure _
  · exact h.eval (hparts _ (by simp [Expr.parts]))
  · exact L.failWith _
  · exact L.bind (h.evalAll hparts) fun vs => L.quiet (quiet_newArrayOf _)
  · exact h.binary _ (hparts _ (by simp [Expr.parts])) (hparts _ (by simp [Expr.parts]))
  · exact L.bind (h.eval (hparts _ (by simp [Expr.parts]))) fun v => L.lift _
  · split
    · exact L.lift _
    · exact L.fail _

end RelatedOn

end Runner

end FormBasic
