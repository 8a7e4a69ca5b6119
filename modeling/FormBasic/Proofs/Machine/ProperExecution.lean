import FormBasic.Proofs.Machine.ProperEvaluation

/-!
# Execution keeps states proper

The second half of the account that `ProperEvaluation` begins: events and statements. What is
assigned comes from an expression, an operator, an array or an instance, and so it is proper. A
`With` block keeps its object, which is proper for the same reason.

## Main results

* `Runner.ProperAlike.dispatch` — events
* `Runner.ProperAlike.execStep` — one step of execution
-/

namespace FormBasic

open Interp

theorem Heap.isProper_of_itemsStep {h : Heap} {items : Value → Option (Fallible (List Value))}
    {vs : List Value} (hrest : ∀ v, items v = some (.ok vs) → ∀ w ∈ vs, w.isProper = true)
    {v : Value} : h.itemsStep items v = some (.ok vs) → ∀ w ∈ vs, w.isProper = true := by
  fun_cases Heap.itemsStep h items v with
  | case1 tag elements =>
    rintro ⟨⟩ w hw
    obtain ⟨e, -, rfl⟩ := List.mem_map.1 hw
    exact Value.isProper_orNothing e
  | case2 s =>
    rintro ⟨⟩ w hw
    obtain ⟨c, -, rfl⟩ := List.mem_map.1 hw
    rfl
  | case3 r v hfield => exact hrest v
  | case4 => rintro ⟨⟩
  | case5 => rintro ⟨⟩

/-- What `For Each` visits are proper values: an omitted element counts as `Nothing`. -/
theorem Heap.isProper_of_itemsFrom {h : Heap} {fuel : Nat} {v : Value} {vs : List Value}
    (hitems : h.itemsFrom fuel v = some (.ok vs)) : ∀ w ∈ vs, w.isProper = true := by
  induction fuel generalizing v vs with
  | zero => exact isProper_of_itemsStep (fun _ hnone => by cases hnone) hitems
  | succ fuel ih => exact isProper_of_itemsStep (fun _ => ih) hitems

theorem Runner.isProper_preserved (s : State) (name : String) {fresh : Value}
    (hfresh : fresh.isProper = true) : (preserved s name fresh).isProper = true := by
  unfold preserved
  split
  · rfl
  · exact hfresh

namespace Runner.ProperAlike

variable {n : Int} {run run' : Runner} (h : ProperAlike n run run')
include h

/-! ### Events -/

theorem runRegistration (r : Registration) (args : List Value) :
    Keeps n (run.runRegistration r args) (run'.runRegistration r args) := by
  refine .read fun s _ => ?_
  split
  · exact (h.invokeMethod _ _ _ _).bind fun _ _ => .pure trivial
  · cases s.procedure? r.handler with
    | some p => exact (h.invokeProcedure _ _).bind fun _ _ => .pure trivial
    | none => exact .fail _

theorem eventSource (e : Expr) : Keeps n (run.eventSource e) (run'.eventSource e) := by
  refine .read fun s _ => ?_
  split
  · exact .pure trivial
  · exact .pure trivial
  · exact .pure trivial
  · split
    · exact .pure trivial
    · exact (h.eval _).bind fun _ _ => .pure trivial

theorem changeHandler (remove : Bool) (event handler : Expr) :
    Keeps n (run.changeHandler remove event handler) (run'.changeHandler remove event handler) := by
  unfold Runner.changeHandler
  split
  · refine (h.eval _).bind fun v _ => .read fun s _ => (h.eventSource _).bind fun source _ => ?_
    exact .modify fun _ hs => ⟨hs.scopes, hs.heap, hs.withStack⟩
  · exact .failWith _

theorem raiseEvent (name : String) (es : List Expr) :
    Keeps n (run.raiseEvent name es) (run'.raiseEvent name es) := by
  have hrun : ∀ (args : List Value) (rs : List Registration),
      Keeps n (run.runRegistrations args rs) (run'.runRegistrations args rs) := by
    intro args rs
    induction rs with
    | nil => exact .pure trivial
    | cons r rs ih => exact (h.runRegistration r args).bind fun _ _ => ih
  exact (h.arguments es).bind fun args _ => .read fun s _ => hrun args _

theorem runHandler (form : Option ObjectRef) (args : List Value) (handler : Handler) :
    Keeps n (run.runHandler form args handler) (run'.runHandler form args handler) := by
  unfold Runner.runHandler
  split
  · exact (h.invokeMethod _ _ _ _).bind fun _ _ => .pure trivial
  · exact (h.invokeProcedure _ _).bind fun _ _ => .pure trivial
  · exact h.runRegistration _ _

theorem dispatch (form control event : String) (args : List Value) :
    Keeps n (run.dispatch form control event args) (run'.dispatch form control event args) := by
  have hform : Keeps n (run.formInstance? form) (run'.formInstance? form) :=
    .read fun s _ => .ite ((h.defaultInstance form).map fun _ _ => trivial) (.pure trivial)
  refine .read fun s _ => ?_
  cases s.handler? form control event with
  | none => exact .pure trivial
  | some handler =>
    refine hform.bind fun formRef _ => (keeps_eventArguments _ _ _).bind fun args _ => ?_
    exact (h.runHandler formRef args handler).bind fun _ _ => .pure trivial

/-! ### Assignments -/

theorem assignMember (e : Expr) (member : String) {v : Value} (hv : v.isProper = true) :
    Keeps n (run.assignMember e member v) (run'.assignMember e member v) := by
  refine .read fun s _ => ?_
  split
  · exact keeps_assignIntrinsic _ _ hv
  · refine (h.owner e).found?.bind fun o _ => ?_
    cases o with
    | none => exact keeps_assignFlattened _ _ hv
    | some o =>
      cases o with
      | object r => exact h.assignField r member hv
      | _ => exact keeps_assignFlattened _ _ hv

theorem assignElement (name : String) (es : List Expr) {v : Value} (hv : v.isProper = true) :
    Keeps n (run.assignElement name es v) (run'.assignElement name es v) := by
  refine .read fun s _ => ?_
  cases s.data? name with
  | none => exact .fail _
  | some current =>
    refine .ite (.failWith _) ((h.bounds es).bind fun indices _ => ?_)
    exact (givesValue_withElement _ _ hv).bind fun w hw => h.assignBound name hw

theorem reDim (name : String) (preserve : Bool) (es : List Expr) :
    Keeps n (run.reDim name preserve es) (run'.reDim name preserve es) := by
  refine (h.bounds es).bind fun bs _ => .ite (.failWith _) ?_
  refine (givesValue_build rfl bs).bind fun fresh hfresh => .read fun s _ => ?_
  refine h.assignOrDefine name ?_
  split
  · exact isProper_preserved s name hfresh
  · exact hfresh

theorem compound (target : Expr) (op : Operator) (e : Expr) :
    Keeps n (run.compound target op e) (run'.compound target op e) := by
  refine (h.eval target).bind fun a _ => (h.eval e).bind fun b _ => ?_
  refine Yields.bind (.lift (Operator.givesProper_apply op a b)) fun v hv => ?_
  split
  · exact h.assign _ hv
  · exact h.assignMember _ _ hv
  · exact h.assignElement _ _ hv
  · exact .failWith _

/-! ### Branches -/

theorem elseBranches (otherwise : List Stmt) (bs : List ElseIf) :
    Keeps n (run.elseBranches otherwise bs) (run'.elseBranches otherwise bs) := by
  induction bs with
  | nil => exact h.block _
  | cons b bs ih => exact (h.condition _).bind fun _ _ => .ite (h.block _) ih

theorem meetsAny (test : Value) (cs : List CaseCondition) :
    Keeps n (run.meetsAny test cs) (run'.meetsAny test cs) := by
  have hmeets : ∀ c, Keeps n (run.meets test c) (run'.meets test c) := by
    intro c
    cases c with
    | value e => exact (h.eval e).bind fun _ _ => .pure trivial
    | range low high =>
      exact (h.eval low).bind fun _ _ => (h.eval high).bind fun _ _ => .pure trivial
    | is op e => exact (h.eval e).bind fun _ _ => .computed _
  induction cs with
  | nil => exact .pure trivial
  | cons c cs ih => exact (hmeets c).bind fun _ _ => .ite (.pure trivial) ih

theorem caseBlock (test : Value) (otherwise : List Stmt) (cs : List CaseClause) :
    Keeps n (run.caseBlock test otherwise cs) (run'.caseBlock test otherwise cs) := by
  induction cs with
  | nil => exact .pure trivial
  | cons c cs ih => exact (h.meetsAny _ _).bind fun _ _ => .ite (.pure trivial) ih

/-! ### Loops -/

theorem round (kind : BlockKind) (body : List Stmt) :
    Keeps n (run.round kind body) (run'.round kind body) := by
  refine (h.block body).bind fun signal _ => ?_
  cases signal <;> exact .pure trivial

theorem forRounds (name : String) (stop step : Value) (stepNumber : Float) (body : List Stmt)
    (fuel : Nat) : Keeps n (run.forRounds name stop step stepNumber body fuel)
      (run'.forRounds name stop step stepNumber body fuel) := by
  induction fuel with
  | zero => exact .outOfFuel
  | succ fuel ih =>
    refine (h.readName name).bind fun current _ => Yields.bind (.computed _) fun order _ => ?_
    refine .ite (.pure trivial) ((h.round _ body).bind fun ended _ => ?_)
    cases ended with
    | some signal => exact .pure trivial
    | none =>
      refine (h.readName name).bind fun current _ => ?_
      refine Yields.bind (.lift (Operator.givesProper_apply .add current step)) fun next hnext => ?_
      exact (h.assign name hnext).bind fun _ _ => ih

theorem forTo (name : String) (start stop : Expr) (step : Option Expr) (body : List Stmt) :
    Keeps n (run.forTo name start stop step body) (run'.forTo name start stop step body) := by
  refine (h.eval start).bind fun start hstart => (h.eval stop).bind fun stop _ => ?_
  have hrounds : ∀ step : Value, Keeps n
      (do let stepNumber ← lift step.asDouble
          run.assignOrDefine name start
          run.forRounds name stop step stepNumber body run.fuel)
      (do let stepNumber ← lift step.asDouble
          run'.assignOrDefine name start
          run'.forRounds name stop step stepNumber body run'.fuel) := by
    intro step
    refine Yields.bind (.computed _) fun stepNumber _ => ?_
    refine (h.assignOrDefine name hstart).bind fun _ _ => ?_
    rw [h.fuel]
    exact h.forRounds _ _ _ _ _ _
  cases step with
  | some e => exact (h.eval e).bind fun step _ => hrounds step
  | none => exact Yields.bind (P := fun _ => True) (.pure trivial) fun step _ => hrounds step

theorem eachRounds (name : String) (body : List Stmt) {vs : List Value}
    (hvs : ∀ v ∈ vs, v.isProper = true) :
    Keeps n (run.eachRounds name body vs) (run'.eachRounds name body vs) := by
  induction vs with
  | nil => exact .pure trivial
  | cons v vs ih =>
    refine (h.assignOrDefine name (hvs v List.mem_cons_self)).bind fun _ _ => ?_
    refine (h.round _ body).bind fun ended _ => ?_
    cases ended with
    | some signal => exact .pure trivial
    | none => exact ih fun w hw => hvs w (List.mem_cons_of_mem _ hw)

theorem forEach (name : String) (collection : Expr) (body : List Stmt) :
    Keeps n (run.forEach name collection body) (run'.forEach name collection body) := by
  refine (h.eval collection).bind fun v _ => .read fun s _ => ?_
  rw [← h.fuel]
  cases hitems : s.heap.itemsFrom run.fuel v with
  | none => exact .outOfFuel
  | some items =>
    refine Yields.bind (P := fun vs => ∀ v ∈ vs, v.isProper = true)
      (.lift fun vs hvs => ?_) fun vs hvs => h.eachRounds name body hvs
    subst hvs
    exact Heap.isProper_of_itemsFrom hitems

theorem whileRounds (condition : Expr) (body : List Stmt) (fuel : Nat) :
    Keeps n (run.whileRounds condition body fuel) (run'.whileRounds condition body fuel) := by
  induction fuel with
  | zero => exact .outOfFuel
  | succ fuel ih =>
    refine (h.condition condition).bind fun _ _ => .ite ?_ (.pure trivial)
    refine (h.round _ body).bind fun ended _ => ?_
    cases ended with
    | some signal => exact .pure trivial
    | none => exact ih

theorem goesOn (c : Option LoopCondition) : Keeps n (run.goesOn c) (run'.goesOn c) := by
  cases c with
  | none => exact .pure trivial
  | some c => exact (h.condition c.condition).bind fun _ _ => .pure trivial

theorem doRounds (pre post : Option LoopCondition) (body : List Stmt) (fuel : Nat) :
    Keeps n (run.doRounds pre post body fuel) (run'.doRounds pre post body fuel) := by
  induction fuel with
  | zero => exact .outOfFuel
  | succ fuel ih =>
    refine (h.goesOn pre).bind fun _ _ => .ite ?_ (.pure trivial)
    refine (h.round _ body).bind fun ended _ => ?_
    cases ended with
    | some signal => exact .pure trivial
    | none => exact (h.goesOn post).bind fun _ _ => .ite ih (.pure trivial)

/-! ### Exceptions -/

theorem catches (c : CatchClause) (r : ObjectRef) :
    Keeps n (run.catches c r) (run'.catches c r) := by
  have hfilter : Keeps n (run.passesFilter c) (run'.passesFilter c) := by
    unfold Runner.passesFilter
    split
    · exact .pure trivial
    · exact h.condition _
  refine .read fun s _ => .ite (.ite ?_ hfilter) (.pure trivial)
  exact (keeps_define _ rfl).bind fun _ _ => hfilter

theorem runCatch (f : Failure) (r : ObjectRef) (cs : List CatchClause) :
    Keeps n (run.runCatch f r cs) (run'.runCatch f r cs) := by
  induction cs with
  | nil => exact .throw _
  | cons c cs ih =>
    refine (h.catches c r).bind fun _ _ => .ite (.inContext ?_ (h.block _)) ih
    exact Detour.keepsProper_of_withStack (fun _ => rfl) fun _ _ => rfl

theorem guarded (body : List Stmt) (cs : List CatchClause) :
    Keeps n (run.guarded body cs) (run'.guarded body cs) := by
  refine (h.block body).attempt.bind fun outcome _ => ?_
  split
  · exact .pure trivial
  · exact .throw _
  · exact (keeps_exceptionFor _).bind fun r _ => h.runCatch _ r cs

theorem tryCatch (body : List Stmt) (cs : List CatchClause) (cleanup : Option (List Stmt)) :
    Keeps n (run.tryCatch body cs cleanup) (run'.tryCatch body cs cleanup) :=
  (h.guarded body cs).attempt.bind fun outcome _ => (h.block _).bind fun ended _ =>
    keeps_afterCleanup outcome ended

theorem throwValue (e : Option Expr) : Keeps n (run.throwValue e) (run'.throwValue e) := by
  cases e with
  | none =>
    refine .read fun s _ => ?_
    split
    · exact .throw _
    · exact .failWith _
  | some e =>
    refine (h.eval e).bind fun v _ => ?_
    split
    · exact .throw _
    · exact (keeps_newException _ _).bind fun _ _ => .throw _
    · exact .fail _

/-! ### The step -/

omit h in
theorem done {α : Type} {x y : Interp α} (hx : Keeps n x y) :
    Keeps n (Runner.done x) (Runner.done y) :=
  hx.bind fun _ _ => .pure trivial

theorem execStep (s : Stmt) : Keeps n (run.execStep s) (run'.execStep s) := by
  cases s with
  | dim name typeName bs initializer =>
    exact done ((h.initialValue _ _ _).bind fun v hv => keeps_define name hv)
  | const name e => exact done ((h.eval e).bind fun v hv => keeps_defineConst name hv)
  | assign name e => exact done ((h.eval e).bind fun v hv => h.assign name hv)
  | setAssign name e => exact done ((h.eval e).bind fun v hv => h.assignBound name hv)
  | memberAssign o member e => exact done ((h.eval e).bind fun v hv => h.assignMember o member hv)
  | elementAssign name es e => exact done ((h.eval e).bind fun v hv => h.assignElement name es hv)
  | reDim name preserve es => exact done (h.reDim name preserve es)
  | compound target op e => exact done (h.compound target op e)
  | ifThen condition whenTrue elseIfs whenFalse =>
    exact (h.condition condition).bind fun _ _ => .ite (h.block _) (h.elseBranches _ _)
  | forTo name start stop step body => exact h.forTo name start stop step body
  | forEach name collection body => exact h.forEach name collection body
  | whileLoop condition body =>
    unfold Runner.execStep
    dsimp only
    rw [h.fuel]
    exact h.whileRounds condition body _
  | doLoop pre post body =>
    unfold Runner.execStep
    dsimp only
    rw [h.fuel]
    exact h.doRounds pre post body _
  | select test cases otherwise =>
    refine (h.eval test).bind fun v _ => (h.caseBlock v _ _).bind fun body _ => ?_
    exact (h.block body).bind fun _ _ => .pure trivial
  | withBlock e body =>
    exact (h.eval e).bind fun v hv => .inContext (Detour.keepsProper_withBlock hv) (h.block body)
  | exitBlock kind => exact .pure trivial
  | continueLoop kind => exact .pure trivial
  | returnValue e =>
    cases e with
    | none => exact .pure trivial
    | some e => exact (h.eval e).bind fun _ _ => .pure trivial
  | call e => exact done (h.eval e).keeps
  | expression e => exact done (h.eval _).keeps
  | tryCatch body cs cleanup => exact h.tryCatch body cs cleanup
  | throwValue e => exact h.throwValue e
  | addHandler remove event handler => exact done (h.changeHandler remove event handler)
  | raiseEvent name es => exact done (h.raiseEvent name es)

end Runner.ProperAlike

end FormBasic
