import FormBasic.Proofs.Machine.Evaluation

/-!
# Execution respects run relations

The second half of the account that `Evaluation` begins: events and statements. What a statement
asks of the relation depends on the statement: which names it binds, what it assigns to, whether it
takes failures and whether it is a loop. `Executes` collects these demands, since the relations of
interest meet them on different grounds.

## Main results

* `Runner.Executes` — what a statement asks of a relation, beside what it asks of its parts
* `Runner.RelatedOn.dispatch` — events
* `Runner.RelatedOn.execStep` — one step of execution
* `Runner.Related` — runners all of whose answers are related, by a relation between all runs
-/

namespace FormBasic

open Interp

/-- The handler that is found for an event is declared, unless it was added at run time. -/
theorem State.declares_of_handler? {s : State} {form control event : String} {handler : Handler}
    (h : s.handler? form control event = some handler) :
    (∀ m c, handler.target = .method m c → s.Declares (.ofProcedure m c.moduleName)) ∧
      ∀ p, handler.target = .procedure p → s.Declares (.ofEntry p) := by
  unfold handler? at h
  split at h
  · next hexplicit =>
    cases h
    unfold explicitHandler? at hexplicit
    split at hexplicit
    · next hm =>
      cases hexplicit
      refine ⟨?_, nofun⟩
      rintro _ _ ⟨⟩
      exact declares_of_firstMember_methods hm
    · obtain ⟨r, -, rfl⟩ := Option.map_eq_some_iff.1 hexplicit
      exact ⟨nofun, nofun⟩
  · split at h
    · next hnamed =>
      cases h
      obtain ⟨⟨m, c⟩, hm, rfl⟩ := Option.map_eq_some_iff.1 hnamed
      obtain ⟨name, -, hm⟩ := List.exists_of_findSome?_eq_some hm
      refine ⟨?_, nofun⟩
      rintro _ _ ⟨⟩
      exact declares_of_method? hm
    · obtain ⟨p, hp, rfl⟩ := Option.map_eq_some_iff.1 h
      refine ⟨nofun, ?_⟩
      rintro _ ⟨⟩
      unfold eventProcedure? at hp
      dsimp only at hp
      split at hp
      · next hkey =>
        cases hp
        exact declares_of_procedureAt? hkey
      · exact declares_of_procedureInModule? hp

namespace Runner

/-- What a statement asks of a relation between two runners, beside what it asks of its parts. -/
structure Executes (L : StepRelation) (run run' : Runner) (s : Stmt) : Prop where
  binds : ∀ name ∈ s.bound, L.BindsCurrent name
  assign : ∀ name ∈ s.assigned, ∀ v, L.Rel (run.assign name v) (run'.assign name v)
  assignOrDefine : ∀ name ∈ s.redefined, ∀ v,
    L.Rel (run.assignOrDefine name v) (run'.assignOrDefine name v)
  assignMember : ∀ place ∈ s.assignedMembers, ∀ v,
    L.Rel (run.assignMember place.1 place.2 v) (run'.assignMember place.1 place.2 v)
  renames : s.isForgiving = true → L.Renames
  catches : s.isTry = true → L.Catches
  rethrows : s.isTry = true → L.Rethrows
  fuel : s.isLoop = true → run.fuel = run'.fuel
  outOfFuel : s.isLoop = true → ∀ {α : Type},
    L.Rel (Interp.outOfFuel : Interp α) Interp.outOfFuel

namespace RelatedOn

variable {D : Domain} {L : StepRelation} {run run' : Runner} (h : RelatedOn D L run run')
include h

/-! ### Events -/

theorem runRegistration (r : Registration) (args : List Value) :
    L.Rel (run.runRegistration r args) (run'.runRegistration r args) := by
  refine L.read (fun _ _ _ => rfl) fun s hs => ?_
  split
  · next self m c hm =>
    obtain ⟨self', -, hm⟩ := Option.bind_eq_some_iff.1 hm
    obtain ⟨found, hm, heq⟩ := Option.map_eq_some_iff.1 hm
    cases heq
    have hd := h.declared hs (State.declares_of_method? hm)
    exact L.bind (h.invokeMethod hd _ _) fun _ => L.pure _
  · cases hp : s.procedure? r.handler with
    | some p =>
      have hd := h.declared hs (State.declares_of_procedure? hp)
      exact L.bind (h.invokeProcedure hd _) fun _ => L.pure _
    | none => exact L.fail _

theorem eventSource {e : Expr} (he : D.expr e) :
    L.Rel (run.eventSource e) (run'.eventSource e) := by
  refine L.read (fun _ _ _ => rfl) fun s _ => ?_
  split
  · exact L.pure _
  · exact L.pure _
  · exact L.pure _
  · split
    · exact L.pure _
    · exact L.bind (h.eval he) fun v => L.pure _

theorem changeHandler (remove : Bool) {event handler : Expr}
    (hes : ∀ e ∈ handler :: event.parts, D.expr e) :
    L.Rel (run.changeHandler remove event handler) (run'.changeHandler remove event handler) := by
  unfold Runner.changeHandler
  split
  · refine L.bind (h.eval (hes _ List.mem_cons_self)) fun v => ?_
    refine L.read (fun _ _ _ => rfl) fun s _ => ?_
    refine L.bind (h.eventSource (hes _ (by simp [Expr.parts]))) fun source => ?_
    exact L.quiet (quiet_changeRegistrations _ _)
  · exact L.failWith _

theorem runRegistrations (args : List Value) (rs : List Registration) :
    L.Rel (run.runRegistrations args rs) (run'.runRegistrations args rs) := by
  induction rs with
  | nil => exact L.pure _
  | cons r rs ih => exact L.bind (h.runRegistration r args) fun _ => ih

theorem raiseEvent (name : String) {es : List Expr} (hes : ∀ e ∈ es, D.expr e) :
    L.Rel (run.raiseEvent name es) (run'.raiseEvent name es) :=
  L.bind (h.arguments hes) fun _ => L.read (fun _ _ _ => rfl) fun _ _ => h.runRegistrations _ _

theorem runHandler (form : Option ObjectRef) (args : List Value) {handler : Handler}
    (hm : ∀ m c, handler.target = .method m c → D.call (.ofProcedure m c.moduleName))
    (hp : ∀ p, handler.target = .procedure p → D.call (.ofEntry p)) :
    L.Rel (run.runHandler form args handler) (run'.runHandler form args handler) := by
  unfold Runner.runHandler
  split
  · next htarget => exact L.bind (h.invokeMethod (hm _ _ htarget) _ _) fun _ => L.pure _
  · next htarget => exact L.bind (h.invokeProcedure (hp _ htarget) _) fun _ => L.pure _
  · exact h.runRegistration _ _

theorem formInstance? {form : String} (hname : D.instances form)
    (hp : ∀ r, L.Rel (Interp.publish form r) (Interp.publish form r)) :
    L.Rel (run.formInstance? form) (run'.formInstance? form) :=
  L.read (fun _ _ _ => rfl) fun _ _ => L.ite (L.map _ (h.defaultInstance hname hp)) (L.pure _)

theorem dispatch {form : String} (hname : D.instances form)
    (hp : ∀ r, L.Rel (Interp.publish form r) (Interp.publish form r)) (control event : String)
    (args : List Value) :
    L.Rel (run.dispatch form control event args) (run'.dispatch form control event args) := by
  refine L.read (fun _ _ _ => rfl) fun s hs => ?_
  cases hh : s.handler? form control event with
  | none => exact L.pure _
  | some handler =>
    obtain ⟨hmethod, hprocedure⟩ := State.declares_of_handler? hh
    refine L.bind (h.formInstance? hname hp) fun formRef => ?_
    refine L.bind (L.quiet (quiet_eventArguments formRef control args)) fun args => ?_
    refine L.bind (h.runHandler formRef args (fun m c htarget => ?_) fun p htarget => ?_) fun _ =>
      L.pure _
    · exact h.declared hs (hmethod m c htarget)
    · exact h.declared hs (hprocedure p htarget)

/-! ### Assignments -/

theorem assignElement (name : String) {es : List Expr} (hes : ∀ e ∈ es, D.expr e) (v : Value) :
    L.Rel (run.assignElement name es v) (run'.assignElement name es v) := by
  refine L.read (fun _ _ _ => rfl) fun s _ => ?_
  cases s.data? name with
  | none => exact L.fail _
  | some current =>
    refine L.ite (L.failWith _) (L.bind (h.bounds hes) fun indices => ?_)
    exact L.bind (L.quiet (quiet_withTags _)) fun w => h.assignBound name w

theorem reDim {name : String}
    (hname : ∀ v, L.Rel (run.assignOrDefine name v) (run'.assignOrDefine name v)) (preserve : Bool)
    {es : List Expr} (hes : ∀ e ∈ es, D.expr e) :
    L.Rel (run.reDim name preserve es) (run'.reDim name preserve es) := by
  refine L.bind (h.bounds hes) fun bs => L.ite (L.failWith _) ?_
  exact L.bind (L.quiet (quiet_build _)) fun fresh => L.read (fun _ _ _ => rfl) fun s _ => hname _

omit h in
theorem assignFlattened (owner member : String) (v : Value)
    (hd : L.Rel (updateScopes (·.defineMember owner member v))
      (updateScopes (·.defineMember owner member v))) :
    L.Rel (Runner.assignFlattened owner member v) (Runner.assignFlattened owner member v) :=
  L.bind hd fun _ => L.quiet (quiet_emit _ rfl)

theorem assignMemberOf (ownerText : String) (o : Value) (member : String) (v : Value)
    (hd : ∀ owner, L.Rel (updateScopes (·.defineMember owner member v))
      (updateScopes (·.defineMember owner member v))) :
    L.Rel (run.assignMemberOf ownerText o member v) (run'.assignMemberOf ownerText o member v) := by
  unfold Runner.assignMemberOf
  split
  · exact h.assignField _ _ _
  · exact assignFlattened _ _ _ (hd _)
  · exact assignFlattened _ _ _ (hd _)

theorem assignMember (hf : L.Forgives) {e : Expr} (he : D.expr e)
    (hc : ∀ name ∈ e.ownerClass, D.instances name) (member : String) (v : Value)
    (hd : ∀ owner, L.Rel (updateScopes (·.defineMember owner member v))
      (updateScopes (·.defineMember owner member v))) :
    L.Rel (run.assignMember e member v) (run'.assignMember e member v) := by
  refine L.read (fun _ _ _ => rfl) fun s _ => ?_
  split
  · refine L.ite ?_ (L.ite ?_ (L.ite (hd _) (L.failWith _)))
    · exact L.bind (L.quiet (quiet_colorNumber v)) fun _ =>
        L.quiet (quiet_modify (fun _ => .of_eq rfl) fun _ _ _ => rfl)
    · exact L.bind (L.quiet (quiet_colorNumber v)) fun _ =>
        L.quiet (quiet_modify (fun _ => .of_eq rfl) fun _ _ _ => rfl)
  · refine L.bind (hf (h.owner he hc)) fun o => ?_
    cases o with
    | some o => exact h.assignMemberOf _ _ _ _ hd
    | none => exact assignFlattened _ _ _ (hd _)

/-! ### Branches and loops -/

theorem elseBranches {otherwise : List Stmt} (ho : ∀ s ∈ otherwise, D.stmt s) {bs : List ElseIf}
    (he : ∀ b ∈ bs, D.expr b.condition) (hb : ∀ b ∈ bs, ∀ s ∈ b.body, D.stmt s) :
    L.Rel (run.elseBranches otherwise bs) (run'.elseBranches otherwise bs) := by
  induction bs with
  | nil => exact h.block ho
  | cons b bs ih =>
    refine L.bind (h.condition (he b List.mem_cons_self)) fun _ => ?_
    refine L.ite (h.block (hb b List.mem_cons_self)) (ih (fun c hc => ?_) fun c hc => ?_)
    · exact he c (List.mem_cons_of_mem _ hc)
    · exact hb c (List.mem_cons_of_mem _ hc)

theorem meets (test : Value) {c : CaseCondition} (hc : ∀ e ∈ c.exprs, D.expr e) :
    L.Rel (run.meets test c) (run'.meets test c) := by
  cases c with
  | value e => exact L.bind (h.eval (hc e (by simp [CaseCondition.exprs]))) fun _ => L.pure _
  | range low high =>
    refine L.bind (h.eval (hc low (by simp [CaseCondition.exprs]))) fun _ => ?_
    exact L.bind (h.eval (hc high (by simp [CaseCondition.exprs]))) fun _ => L.pure _
  | is op e => exact L.bind (h.eval (hc e (by simp [CaseCondition.exprs]))) fun _ => L.lift _

theorem meetsAny (test : Value) {cs : List CaseCondition}
    (hcs : ∀ c ∈ cs, ∀ e ∈ c.exprs, D.expr e) :
    L.Rel (run.meetsAny test cs) (run'.meetsAny test cs) := by
  induction cs with
  | nil => exact L.pure _
  | cons c cs ih =>
    refine L.bind (h.meets test (hcs c List.mem_cons_self)) fun _ => L.ite (L.pure _) ?_
    exact ih fun c hc => hcs c (List.mem_cons_of_mem _ hc)

/-- The block that a `Case` line chooses is one of the blocks that are written. -/
theorem select {otherwise : List Stmt} {cases : List CaseClause} (test : Value)
    (he : ∀ c ∈ cases, ∀ condition ∈ c.conditions, ∀ e ∈ condition.exprs, D.expr e)
    {k l : List Stmt → Interp Signal} (ho : L.Rel (k otherwise) (l otherwise))
    (hb : ∀ c ∈ cases, L.Rel (k c.body) (l c.body)) :
    L.Rel (run.caseBlock test otherwise cases >>= k)
      (run'.caseBlock test otherwise cases >>= l) := by
  induction cases with
  | nil => exact ho
  | cons c cs ih =>
    have hrest := ih (fun c hc => he c (List.mem_cons_of_mem _ hc))
      fun c hc => hb c (List.mem_cons_of_mem _ hc)
    unfold caseBlock
    rw [bind_assoc, bind_assoc]
    refine L.bind (h.meetsAny test (he c List.mem_cons_self)) fun meets => ?_
    cases meets with
    | true => exact hb c List.mem_cons_self
    | false => exact hrest

theorem round (kind : BlockKind) {body : List Stmt} (hbody : ∀ s ∈ body, D.stmt s) :
    L.Rel (run.round kind body) (run'.round kind body) := by
  refine L.bind (h.block hbody) fun signal => ?_
  cases signal <;> exact L.pure _

section
variable (ho : ∀ {α : Type}, L.Rel (Interp.outOfFuel : Interp α) Interp.outOfFuel)
  {body : List Stmt} (hbody : ∀ s ∈ body, D.stmt s)
include ho hbody

theorem forRounds (hr : L.Renames) {name : String}
    (hname : ∀ v, L.Rel (run.assign name v) (run'.assign name v)) (stop step : Value)
    (stepNumber : Float) (fuel : Nat) :
    L.Rel (run.forRounds name stop step stepNumber body fuel)
      (run'.forRounds name stop step stepNumber body fuel) := by
  induction fuel with
  | zero => exact ho
  | succ fuel ih =>
    refine L.bind (h.readName hr name) fun current => L.bind (L.lift _) fun order => ?_
    refine L.ite (L.pure _) (L.bind (h.round _ hbody) fun ended => ?_)
    cases ended with
    | some signal => exact L.pure _
    | none =>
      refine L.bind (h.readName hr name) fun current => L.bind (L.lift _) fun next => ?_
      exact L.bind (hname next) fun _ => ih

theorem forTo (hr : L.Renames) {name : String}
    (hname : ∀ v, L.Rel (run.assign name v) (run'.assign name v))
    (hfirst : ∀ v, L.Rel (run.assignOrDefine name v) (run'.assignOrDefine name v))
    (hfuel : run.fuel = run'.fuel) {start stop : Expr} {step : Option Expr}
    (hes : ∀ e ∈ start :: stop :: step.toList, D.expr e) :
    L.Rel (run.forTo name start stop step body) (run'.forTo name start stop step body) := by
  refine L.bind (h.eval (hes start (by simp))) fun start => ?_
  refine L.bind (h.eval (hes stop (by simp))) fun stop => ?_
  have hrounds : ∀ step : Value, L.Rel
      (do let stepNumber ← lift step.asDouble
          run.assignOrDefine name start
          run.forRounds name stop step stepNumber body run.fuel)
      (do let stepNumber ← lift step.asDouble
          run'.assignOrDefine name start
          run'.forRounds name stop step stepNumber body run'.fuel) := by
    intro step
    refine L.bind (L.lift _) fun stepNumber => L.bind (hfirst _) fun _ => ?_
    rw [hfuel]
    exact h.forRounds ho hbody hr hname _ _ _ _
  cases step with
  | some e => exact L.bind (h.eval (hes e (by simp))) hrounds
  | none => exact L.bind (L.pure _) hrounds

omit ho in
theorem eachRounds {name : String}
    (hname : ∀ v, L.Rel (run.assignOrDefine name v) (run'.assignOrDefine name v))
    (vs : List Value) : L.Rel (run.eachRounds name body vs) (run'.eachRounds name body vs) := by
  induction vs with
  | nil => exact L.pure _
  | cons v vs ih =>
    refine L.bind (hname v) fun _ => L.bind (h.round _ hbody) fun ended => ?_
    cases ended with
    | some signal => exact L.pure _
    | none => exact ih

theorem forEach (hfuel : run.fuel = run'.fuel) {name : String}
    (hname : ∀ v, L.Rel (run.assignOrDefine name v) (run'.assignOrDefine name v))
    {collection : Expr} (he : D.expr collection) :
    L.Rel (run.forEach name collection body) (run'.forEach name collection body) := by
  refine L.bind (h.eval he) fun v => L.read (fun _ _ _ => rfl) fun s _ => ?_
  rw [← hfuel]
  cases s.heap.itemsFrom run.fuel v with
  | none => exact ho
  | some items => exact L.bind (L.lift _) fun vs => h.eachRounds hbody hname vs

theorem whileRounds {condition : Expr} (he : D.expr condition) (fuel : Nat) :
    L.Rel (run.whileRounds condition body fuel) (run'.whileRounds condition body fuel) := by
  induction fuel with
  | zero => exact ho
  | succ fuel ih =>
    refine L.bind (h.condition he) fun _ => L.ite ?_ (L.pure _)
    refine L.bind (h.round _ hbody) fun ended => ?_
    cases ended with
    | some signal => exact L.pure _
    | none => exact ih

omit ho hbody in
theorem goesOn {c : Option LoopCondition} (hc : ∀ c' ∈ c, D.expr c'.condition) :
    L.Rel (run.goesOn c) (run'.goesOn c) := by
  cases c with
  | none => exact L.pure _
  | some c => exact L.bind (h.condition (hc c rfl)) fun _ => L.pure _

theorem doRounds {pre post : Option LoopCondition} (hpre : ∀ c ∈ pre, D.expr c.condition)
    (hpost : ∀ c ∈ post, D.expr c.condition) (fuel : Nat) :
    L.Rel (run.doRounds pre post body fuel) (run'.doRounds pre post body fuel) := by
  induction fuel with
  | zero => exact ho
  | succ fuel ih =>
    refine L.bind (h.goesOn hpre) fun _ => L.ite ?_ (L.pure _)
    refine L.bind (h.round _ hbody) fun ended => ?_
    cases ended with
    | some signal => exact L.pure _
    | none => exact L.bind (h.goesOn hpost) fun _ => L.ite ih (L.pure _)

end

/-! ### Exceptions -/

theorem passesFilter {c : CatchClause} (hc : ∀ e ∈ c.filter, D.expr e) :
    L.Rel (run.passesFilter c) (run'.passesFilter c) := by
  unfold Runner.passesFilter
  cases hfilter : c.filter with
  | none => exact L.pure _
  | some e => exact h.condition (hc e hfilter)

theorem catches {c : CatchClause} (hb : L.BindsCurrent c.name) (hc : ∀ e ∈ c.filter, D.expr e)
    (r : ObjectRef) : L.Rel (run.catches c r) (run'.catches c r) := by
  refine L.read (fun _ _ _ => rfl) fun s _ => L.ite ?_ (L.pure _)
  exact L.ite (L.bind (hb _) fun _ => h.passesFilter hc) (h.passesFilter hc)

section
variable {cs : List CatchClause} (hb : ∀ c ∈ cs, L.BindsCurrent c.name)
  (hfilter : ∀ c ∈ cs, ∀ e ∈ c.filter, D.expr e) (hcs : ∀ c ∈ cs, ∀ s ∈ c.body, D.stmt s)
include hb hfilter hcs

theorem runCatch (ht : L.Rethrows) (f : Failure) (r : ObjectRef) :
    L.Rel (run.runCatch f r cs) (run'.runCatch f r cs) := by
  induction cs with
  | nil => exact ht _
  | cons c cs ih =>
    have hself := List.mem_cons_self (a := c) (l := cs)
    have hrest := ih (fun c hc => hb c (List.mem_cons_of_mem _ hc))
      (fun c hc => hfilter c (List.mem_cons_of_mem _ hc))
      fun c hc => hcs c (List.mem_cons_of_mem _ hc)
    refine L.bind (h.catches (hb c hself) (hfilter c hself) r) fun _ => L.ite ?_ hrest
    exact L.inContext (Detour.keepsFrames_handling r) (Detour.keepsObject_handling r)
      (h.block (hcs c hself))

theorem guarded (hc : L.Catches) (ht : L.Rethrows) {body : List Stmt}
    (hbody : ∀ s ∈ body, D.stmt s) :
    L.Rel (run.guarded body cs) (run'.guarded body cs) := by
  refine L.bind (hc (h.block hbody)) fun outcome => ?_
  split
  · exact L.pure _
  · exact ht _
  · exact L.bind (L.quiet (quiet_exceptionFor _)) fun r => h.runCatch hb hfilter hcs ht _ r

theorem tryCatch (hc : L.Catches) (ht : L.Rethrows) {body : List Stmt}
    (hbody : ∀ s ∈ body, D.stmt s)
    {cleanup : Option (List Stmt)} (hcleanup : ∀ s ∈ cleanup.getD [], D.stmt s) :
    L.Rel (run.tryCatch body cs cleanup) (run'.tryCatch body cs cleanup) := by
  refine L.bind (hc (h.guarded hb hfilter hcs hc ht hbody)) fun outcome => ?_
  refine L.bind (h.block hcleanup) fun signal => ?_
  refine L.bind (ht _) fun ended => ?_
  split <;> exact L.pure _

end

theorem throwValue {value : Option Expr} (hv : ∀ e ∈ value, D.expr e) :
    L.Rel (run.throwValue value) (run'.throwValue value) := by
  cases value with
  | none =>
    refine L.read (fun _ _ _ => rfl) fun s _ => ?_
    cases s.context.exceptions with
    | nil => exact L.failWith _
    | cons r rs => exact L.throw _ rfl
  | some e =>
    refine L.bind (h.eval (hv e rfl)) fun v => ?_
    split
    · exact L.throw _ rfl
    · exact L.bind (L.quiet (quiet_newException _ _)) fun r => L.throw _ rfl
    · exact L.fail _

/-! ### The step -/

theorem compound {target : Expr} {op : Operator} {value : Expr}
    (hes : ∀ e ∈ target :: value :: target.parts, D.expr e)
    (hx : Executes L run run' (.compound target op value)) :
    L.Rel (run.compound target op value) (run'.compound target op value) := by
  refine L.bind (h.eval (hes target (by simp))) fun current => ?_
  refine L.bind (h.eval (hes value (by simp))) fun operand => L.bind (L.lift _) fun v => ?_
  cases target with
  | «variable» name => exact hx.assign name List.mem_cons_self v
  | member o member => exact hx.assignMember (o, member) List.mem_cons_self v
  | element name es =>
    refine h.assignElement name (fun e he => hes e ?_) v
    exact List.mem_cons_of_mem _ (List.mem_cons_of_mem _ he)
  | _ => exact L.failWith _

omit h in
theorem done {α : Type} {x y : Interp α} (hx : L.Rel x y) :
    L.Rel (Runner.done x) (Runner.done y) :=
  L.bind hx fun _ => L.pure _

theorem execStep {s : Stmt} (hes : ∀ e ∈ s.exprs, D.expr e)
    (hbs : ∀ b ∈ s.blocks, ∀ t ∈ b, D.stmt t) (hx : Executes L run run' s) :
    L.Rel (run.execStep s) (run'.execStep s) := by
  cases s with
  | dim name typeName bs initializer =>
    exact done (L.bind (h.initialValue _ hes) fun v => hx.binds name List.mem_cons_self _)
  | const name e =>
    exact done (L.bind (h.eval (hes e List.mem_cons_self)) fun v =>
      hx.binds name List.mem_cons_self _)
  | assign name e =>
    exact done (L.bind (h.eval (hes e List.mem_cons_self)) fun v =>
      hx.assign name List.mem_cons_self v)
  | setAssign name e =>
    exact done (L.bind (h.eval (hes e List.mem_cons_self)) fun v => h.assignBound name v)
  | memberAssign o member e =>
    exact done (L.bind (h.eval (hes e (by simp [Stmt.exprs]))) fun v =>
      hx.assignMember (o, member) List.mem_cons_self v)
  | elementAssign name es e =>
    refine done (L.bind (h.eval (hes e List.mem_cons_self)) fun v => ?_)
    exact h.assignElement name (fun e he => hes e (List.mem_cons_of_mem _ he)) v
  | reDim name preserve es =>
    exact done (h.reDim (hx.assignOrDefine name List.mem_cons_self) preserve hes)
  | compound target op e => exact done (h.compound hes hx)
  | ifThen condition whenTrue elseIfs whenFalse =>
    refine L.bind (h.condition (hes condition List.mem_cons_self)) fun _ => ?_
    refine L.ite (h.block (hbs _ List.mem_cons_self)) (h.elseBranches (hbs _ ?_) ?_ ?_)
    · exact List.mem_cons_of_mem _ List.mem_cons_self
    · exact fun b hb => hes _ (List.mem_cons_of_mem _ (List.mem_map_of_mem hb))
    · exact fun b hb => hbs _ (List.mem_cons_of_mem _ (List.mem_cons_of_mem _
        (List.mem_map_of_mem hb)))
  | forTo name start stop step body =>
    exact h.forTo (hx.outOfFuel rfl) (hbs body List.mem_cons_self) (hx.renames rfl)
      (hx.assign name List.mem_cons_self) (hx.assignOrDefine name List.mem_cons_self) (hx.fuel rfl)
      hes
  | forEach name collection body =>
    exact h.forEach (hx.outOfFuel rfl) (hbs body List.mem_cons_self) (hx.fuel rfl)
      (hx.assignOrDefine name List.mem_cons_self) (hes collection List.mem_cons_self)
  | whileLoop condition body =>
    unfold Runner.execStep
    rw [hx.fuel rfl]
    exact h.whileRounds (hx.outOfFuel rfl) (hbs body List.mem_cons_self)
      (hes condition List.mem_cons_self) _
  | doLoop pre post body =>
    unfold Runner.execStep
    rw [hx.fuel rfl]
    refine h.doRounds (hx.outOfFuel rfl) (hbs body List.mem_cons_self) (fun c hc => ?_)
      (fun c hc => ?_) _
    · exact hes _ (List.mem_append_left _ (List.mem_map_of_mem (Option.mem_toList.2 hc)))
    · exact hes _ (List.mem_append_right _ (List.mem_map_of_mem (Option.mem_toList.2 hc)))
  | select test cases otherwise =>
    refine L.bind (h.eval (hes test List.mem_cons_self)) fun v => ?_
    refine h.select v (fun c hc condition hcondition e he => ?_) ?_ fun c hc => ?_
    · refine hes e (List.mem_cons_of_mem _ ?_)
      exact List.mem_flatMap.2 ⟨c, hc, List.mem_flatMap.2 ⟨condition, hcondition, he⟩⟩
    · exact L.bind (h.block (hbs _ List.mem_cons_self)) fun signal => L.pure _
    · refine L.bind (h.block (hbs _ ?_)) fun signal => L.pure _
      exact List.mem_cons_of_mem _ (List.mem_map_of_mem hc)
  | withBlock e body =>
    refine L.bind (h.eval (hes e List.mem_cons_self)) fun v => ?_
    have hbody := h.block (hbs body List.mem_cons_self)
    exact L.inContext (Detour.keepsFrames_withBlock v) (Detour.keepsObject_withBlock v) hbody
  | exitBlock kind => exact L.pure _
  | continueLoop kind => exact L.pure _
  | returnValue value =>
    cases value with
    | none => exact L.pure _
    | some e => exact L.bind (h.eval (hes e List.mem_cons_self)) fun v => L.pure _
  | call e => exact done (h.eval (hes e List.mem_cons_self))
  | expression e => exact done (h.eval (hes _ List.mem_cons_self))
  | tryCatch body cs cleanup =>
    refine h.tryCatch (fun c hc => hx.binds _ (List.mem_map_of_mem hc)) (fun c hc e he => ?_)
      (fun c hc => hbs _ ?_) (hx.catches rfl) (hx.rethrows rfl) (hbs body List.mem_cons_self)
      (hbs _ ?_)
    · exact hes e (List.mem_filterMap.2 ⟨c, hc, he⟩)
    · exact List.mem_cons_of_mem _ (List.mem_cons_of_mem _ (List.mem_map_of_mem hc))
    · exact List.mem_cons_of_mem _ List.mem_cons_self
  | throwValue e => exact h.throwValue fun e he => hes e (Option.mem_toList.2 he)
  | addHandler remove event handler => exact done (h.changeHandler _ hes)
  | raiseEvent name es => exact done (h.raiseEvent _ hes)

/-! ### What a host runs -/

theorem runTop {ss : List Stmt} (hss : ∀ s ∈ ss, D.stmt s) :
    L.Rel (run.runTop ss) (run'.runTop ss) :=
  L.bind (h.block hss) fun _ => L.pure _

theorem callProcedure (name : String) (args : List Value) :
    L.Rel (run.callProcedure name args) (run'.callProcedure name args) := by
  refine L.read (fun _ _ _ => rfl) fun s hs => ?_
  cases hp : s.procedure? name with
  | some p => exact h.invokeProcedure (h.declared hs (State.declares_of_procedure? hp)) args
  | none =>
    dsimp only
    cases hb : builtin? (Text.lower name) with
    | some b => exact L.quiet (quiet_of_builtin? hb args)
    | none => exact L.fail _

end RelatedOn

/-! ### Relations between all runs -/

namespace RelatedOn

variable {L : BindingRelation} {run run' : Runner} (h : RelatedOn .all L.toStepRelation run run')
include h

theorem executes (hfuel : run.fuel = run'.fuel)
    (ho : ∀ {α : Type}, L.Rel (Interp.outOfFuel : Interp α) Interp.outOfFuel) {s : Stmt}
    (hf : s.isForgiving = true → L.Forgives) (hr : s.isForgiving = true → L.Renames)
    (hc : s.isTry = true → L.Catches) (ht : s.isTry = true → L.Rethrows) :
    Executes L.toStepRelation run run' s where
  binds name _ := L.bindsCurrent name
  assign name hname := h.assign (hf (by
    unfold Stmt.assigned at hname
    split at hname <;> first | rfl | cases hname)) (L.bindsCurrent name)
  assignOrDefine name hname := h.assignOrDefine (hf (by
    unfold Stmt.redefined at hname
    split at hname <;> first | rfl | cases hname)) (L.bindsCurrent name)
  assignMember place hplace v := h.assignMember (hf (by
    unfold Stmt.assignedMembers at hplace
    split at hplace <;> first | rfl | cases hplace)) trivial (fun _ _ => trivial) _ v
      fun owner => L.defineMember owner _ _
  renames := hr
  catches := hc
  rethrows := ht
  fuel _ := hfuel
  outOfFuel _ := ho

theorem anyInstance (className : String) :
    L.Rel (run.defaultInstance className) (run'.defaultInstance className) :=
  h.defaultInstance trivial (L.publishes (L.defineGlobal className))

theorem anyDispatch (form control event : String) (args : List Value) :
    L.Rel (run.dispatch form control event args) (run'.dispatch form control event args) :=
  h.dispatch trivial (L.publishes (L.defineGlobal form)) control event args

end RelatedOn

/-- Runners whose evaluations, executions, calls and assignments are related. -/
structure Related (L : RunRelation) (run run' : Runner) : Prop where
  fuel : run.fuel = run'.fuel
  eval : ∀ e, L.Rel (run.eval e) (run'.eval e)
  exec : ∀ s, L.Rel (run.exec s) (run'.exec s)
  invoke : ∀ c self classContext args,
    L.Rel (run.invoke c self classContext args) (run'.invoke c self classContext args)
  assignBound : ∀ name v, L.Rel (run.assignBound name v) (run'.assignBound name v)

namespace Related

variable {L : RunRelation} {run run' : Runner} (h : Related L run run')
include h

theorem on : RelatedOn .all L.toStepRelation run run' where
  eval _ := h.eval _
  exec _ := h.exec _
  invoke _ _ _ _ := h.invoke _ _ _ _
  assignBound := h.assignBound
  declared _ _ := trivial
  fields _ _ _ _ _ _ := L.enters (Detour.keepsFrames_setting _ _)
    (L.setFields _ fun _ _ _ _ => h.eval _)

theorem evalStep {e : Expr} (he : ∀ name, .variable name ∈ e.callArguments → L.Forgives) :
    L.Rel (run.evalStep e) (run'.evalStep e) :=
  h.on.evalStep (fun _ _ => trivial) (fun _ _ => trivial) (fun _ => L.foundOr) he

theorem runBody (c : Callable) (args : List Value) :
    L.Rel (run.runBody c args) (run'.runBody c args) :=
  h.on.runBody L.bindsCurrent (fun _ _ => trivial) (fun _ _ => trivial) args

theorem invokeStep (c : Callable) (self : Option ObjectRef) (classContext : String)
    (args : List Value) :
    L.Rel (run.invokeStep c self classContext args) (run'.invokeStep c self classContext args) :=
  L.inCall c self classContext (h.runBody c args)

theorem execStep {s : Stmt} (hf : s.isForgiving = true → L.Forgives)
    (hc : s.isTry = true → L.Catches) (ht : s.isTry = true → L.Rethrows) :
    L.Rel (run.execStep s) (run'.execStep s) :=
  h.on.execStep (fun _ _ => trivial) (fun _ _ _ _ => trivial)
    (h.on.executes h.fuel L.outOfFuel hf (fun _ => L.foundOr) hc ht)

theorem defaultInstance (className : String) :
    L.Rel (run.defaultInstance className) (run'.defaultInstance className) :=
  h.on.anyInstance className

theorem dispatch (form control event : String) (args : List Value) :
    L.Rel (run.dispatch form control event args) (run'.dispatch form control event args) :=
  h.on.anyDispatch form control event args

end Related

end Runner

end FormBasic
