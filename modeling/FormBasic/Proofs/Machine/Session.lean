import FormBasic.Proofs.Machine.Execution

/-!
# Sessions

A session is what a host does with one program: it loads texts, runs statements, calls procedures,
dispatches events and reads and writes properties, in any order. `HostAction` lists these actions,
and `Session` collects the states that they lead to from a fresh one. Between two actions nothing is
running.

## Main results

* `Runner.RelatedOn.performs`, `Runner.RelatedOn.perform`, `Runner.Related.perform` — an action of
  the host respects relations that are closed under what the host does
-/

namespace FormBasic

open Interp

/-- What a host does with a program. -/
inductive HostAction where
  | load (moduleName : String) (program : Except ReadError Program)
  | importModule (name : String)
  | run (statements : List Stmt)
  | execute (s : Stmt)
  | evaluate (e : Expr)
  | call (name : String) (args : List Value)
  | dispatch (form control event : String) (args : List Value)
  | runConsole (entry : String) (host : ConsoleHost)
  | createForm (name : String)
  | publish (name : String) (r : ObjectRef)
  | project (form : String) (controls : List ControlSpec)
  | setProperty (path property : String) (v : Value)
  | drain

/-- Perform an action. -/
def HostAction.perform (run : Runner) : HostAction → Interp Unit
  | .load moduleName program => run.loadRead moduleName program
  | .importModule name => run.importModule name
  | .run statements => run.runTop statements
  | .execute s => discard (run.exec s)
  | .evaluate e => discard (run.eval e)
  | .call name args => discard (run.callProcedure name args)
  | .dispatch form control event args => discard (run.dispatch form control event args)
  | .runConsole entry host => discard (run.runConsole entry host)
  | .createForm name => discard (run.defaultInstance name)
  | .publish name r => Interp.publish name r
  | .project form controls => run.projectControls form controls
  | .setProperty path property v => modify (·.setProperty path property v)
  | .drain => discard Interp.drain

/-- The states of a session. It starts with nothing loaded, under any settings. -/
inductive Session : State → Prop
  | fresh (config : Config) (service : Option Data.Service) (files : Files)
      (clock : Calendar.Moment) (seed : Nat) :
    Session { State.initial config with service, files, clock, seed }
  | perform {s : State} (fuel : Nat) (action : HostAction) (h : Session s) :
    Session ((action.perform (.withFuel fuel)).after s)

/-- Whether a declaration is that of a module. -/
def Decl.isModule : Decl → Bool
  | .moduleDecl _ _ => true
  | _ => false

/-- Enter the name of a module and go into it. -/
def State.enterModule (s : State) (name : String) : State :=
  { s.addModule name with context := { s.context with moduleName := name } }

namespace Runner.RelatedOn

variable {L : LoadRelation} {run run' : Runner} (h : RelatedOn .all L.toStepRelation run run')
include h

/-! ### Loading -/

omit h in
theorem addModule (L : LoadRelation) (name : String) :
    L.Rel (modify (·.addModule name)) (modify (·.addModule name)) :=
  L.bind (L.defineGlobal name (.text name)) fun _ => L.arranges (f := fun s =>
    { s with moduleNames :=
        if s.moduleNames.contains (Text.lower name) then s.moduleNames
        else (Text.lower name :: s.moduleNames).mergeSort fun a b => decide (a ≤ b) })
    fun _ => ⟨rfl, rfl, rfl⟩

omit h in
theorem registerAll (L : LoadRelation) (moduleName : String) (ds : List Decl) :
    L.Rel (modify (·.registerAll moduleName ds) : Interp PUnit)
      (modify (·.registerAll moduleName ds)) := by
  refine L.arranges fun s => ?_
  unfold State.registerAll
  induction ds generalizing s with
  | nil => exact ⟨rfl, rfl, rfl⟩
  | cons d ds ih =>
    have hd : (s.register moduleName d).context = s.context ∧
        (s.register moduleName d).scopes = s.scopes ∧
        (s.register moduleName d).imports = s.imports := by
      cases d <;> exact ⟨rfl, rfl, rfl⟩
    obtain ⟨hcontext, hscopes, himports⟩ := ih (s.register moduleName d)
    rw [List.foldl_cons]
    exact ⟨hcontext.trans hd.1, hscopes.trans hd.2.1, himports.trans hd.2.2⟩

omit h in
theorem declareMembers {L : BindingRelation} (h : RelatedOn .all L.toStepRelation run run')
    (enumName : String) (next : Int64) (ms : List EnumMember) :
    L.Rel (run.declareMembers enumName next ms) (run'.declareMembers enumName next ms) := by
  induction ms generalizing next with
  | nil => exact L.pure _
  | cons m ms ih =>
    have hrest : ∀ n : Int64, L.Rel
        (do updateScopes (·.defineConst (memberKey enumName m.name) (enumValue n))
            run.declareMembers enumName (n + 1) ms)
        (do updateScopes (·.defineConst (memberKey enumName m.name) (enumValue n))
            run'.declareMembers enumName (n + 1) ms) := fun n =>
      L.bind (L.defineConst _ _) fun _ => ih _
    unfold Runner.declareMembers
    cases m.value with
    | some e => exact L.bind (h.eval trivial) fun v => L.bind (L.lift _) hrest
    | none => exact L.bind (L.pure _) hrest

omit h in
theorem declareVariable {L : BindingRelation} (h : RelatedOn .all L.toStepRelation run run')
    (moduleName : String) (d : VariableDecl) :
    L.Rel (run.declareVariable moduleName d) (run'.declareVariable moduleName d) := by
  refine L.read (fun _ _ _ => rfl) fun s _ => L.ite (L.pure _) ?_
  exact L.bind (h.initialValue _ fun _ _ => trivial) fun v => L.defineGlobal _ _

omit h

/-- A declaration that is no module binds values, or has been entered before. -/
theorem declareValue {L : BindingRelation} (h : RelatedOn .all L.toStepRelation run run')
    (moduleName : String) {d : Decl} (hd : d.isModule = false) :
    L.Rel (run.declare moduleName d) (run'.declare moduleName d) := by
  cases d with
  | moduleDecl name ds => cases hd
  | enum name members => exact h.declareMembers name 0 members
  | const name e => exact L.bind (h.eval trivial) fun v => L.defineConst _ _
  | «variable» d => exact h.declareVariable moduleName d
  | _ => exact L.pure _

mutual

theorem declare (h : RelatedOn .all L.toStepRelation run run') (moduleName : String) :
    (d : Decl) → L.Rel (run.declare moduleName d) (run'.declare moduleName d)
  | .moduleDecl name ds => by
    refine L.bind (addModule L name) fun _ => L.entering (Detour.keepsFrames_inModule name) ?_
    exact L.bind (registerAll L name ds) fun _ => h.declareAll name ds
  | .enum _ _ => h.declareValue moduleName rfl
  | .const _ _ => h.declareValue moduleName rfl
  | .variable _ => h.declareValue moduleName rfl
  | .procedure _ => h.declareValue moduleName rfl
  | .property _ => h.declareValue moduleName rfl
  | .classDecl _ => h.declareValue moduleName rfl

theorem declareAll (h : RelatedOn .all L.toStepRelation run run') (moduleName : String) :
    (ds : List Decl) → L.Rel (run.declareAll moduleName ds) (run'.declareAll moduleName ds)
  | [] => L.pure _
  | d :: ds => L.bind (h.declare moduleName d) fun _ => h.declareAll moduleName ds

end

include h

theorem loadInto (moduleName : String) (p : Program) :
    L.Rel (run.loadInto moduleName p) (run'.loadInto moduleName p) := by
  refine L.bind (registerAll L _ _) fun _ => ?_
  exact L.bind (h.declareAll _ _) fun _ => h.runTop fun _ _ => trivial

theorem loadModule (moduleName : String) (p : Program) :
    L.Rel (run.loadModule moduleName p) (run'.loadModule moduleName p) :=
  L.bind (addModule L moduleName) fun _ =>
    L.entering (Detour.keepsFrames_inModule moduleName) (h.loadInto _ _)

theorem loadRead (moduleName : String) (p : Except ReadError Program) :
    L.Rel (run.loadRead moduleName p) (run'.loadRead moduleName p) := by
  cases p with
  | ok p => exact L.ite (h.loadInto _ _) (h.loadModule _ _)
  | error e => exact L.throw _ rfl

omit h in
theorem importModule {L : HostRelation} (h : RelatedOn .all L.toStepRelation run run')
    (name : String) : L.Rel (run.importModule name) (run'.importModule name) := by
  refine L.read (fun _ _ _ => rfl) fun s _ => L.ite (L.pure _) ?_
  split
  · exact L.throw _ rfl
  · split
    · exact L.throw _ rfl
    · exact L.bind (L.administers fun _ => ⟨rfl, rfl⟩) fun _ => h.loadModule _ _

/-! ### Actions of the host -/

theorem runConsole (hc : L.Catches) (entry : String) (host : ConsoleHost) :
    L.Rel (run.runConsole entry host) (run'.runConsole entry host) := by
  refine L.bind (L.arranges fun _ => ⟨rfl, rfl, rfl⟩) fun _ => ?_
  refine L.bind (hc (h.callProcedure entry [])) fun outcome => L.inspect fun s => ?_
  refine L.bind (L.arranges fun _ => ⟨rfl, rfl, rfl⟩) fun _ => ?_
  split <;> exact L.pure _

theorem projectControls (form : String) (controls : List ControlSpec) :
    L.Rel (run.projectControls form controls) (run'.projectControls form controls) :=
  L.bind (h.anyInstance form) fun r => L.quiet (quiet_addControls r controls)

omit h in
theorem setProperty (L : LoadRelation) (path property : String) (v : Value) :
    L.Rel (modify (·.setProperty path property v) : Interp PUnit)
      (modify (·.setProperty path property v)) := by
  have hread : (modify (·.setProperty path property v) : Interp PUnit) =
      get >>= fun s => (s.resolvePath path).elim (updateScopes (·.defineMember path property v))
        fun r => setField r property v := by
    funext s
    rw [get_bind_apply]
    show EStateM.Result.ok PUnit.unit (s.setProperty path property v) = _
    unfold State.setProperty
    cases s.resolvePath path <;> rfl
  rw [hread]
  refine L.read (fun _ _ _ => rfl) fun s _ => ?_
  cases s.resolvePath path with
  | none => exact L.defineMember _ _ _
  | some r => exact L.quiet (quiet_setField _ _ _)

omit h in
theorem drain (L : LoadRelation) : L.Rel Interp.drain Interp.drain :=
  L.arrange fun _ => ⟨rfl, rfl, rfl⟩

/-- Only a console session asks of a relation that it is closed under `Interp.attempt`, and it has
to respect imports only if a module is imported. -/
theorem performs {action : HostAction}
    (hc : ∀ entry host, action = .runConsole entry host → L.Catches)
    (hi : ∀ name, action = .importModule name →
      L.Rel (run.importModule name) (run'.importModule name)) :
    L.Rel (action.perform run) (action.perform run') := by
  cases action with
  | load moduleName program => exact h.loadRead _ _
  | importModule name => exact hi _ rfl
  | run statements => exact h.runTop fun _ _ => trivial
  | execute s => exact L.map _ (h.exec trivial)
  | evaluate e => exact L.map _ (h.eval trivial)
  | call name args => exact L.map _ (h.callProcedure _ _)
  | dispatch form control event args => exact L.map _ (h.anyDispatch _ _ _ _)
  | runConsole entry host => exact L.map _ (h.runConsole (hc _ _ rfl) _ _)
  | createForm name => exact L.map _ (h.anyInstance _)
  | publish name r => exact L.publishes (L.defineGlobal name) r
  | project form controls => exact h.projectControls _ _
  | setProperty path property v => exact setProperty L _ _ _
  | drain => exact L.map _ (drain L)

omit h in
/-- An action of the host respects every relation that is closed under what the host does. -/
theorem perform {L : HostRelation} (h : RelatedOn .all L.toStepRelation run run')
    {action : HostAction} (hc : ∀ entry host, action = .runConsole entry host → L.Catches) :
    L.Rel (action.perform run) (action.perform run') :=
  h.performs hc fun name _ => h.importModule name

end Runner.RelatedOn

namespace Runner.Related

variable {L : SessionRelation} {run run' : Runner} (h : Related L.toRunRelation run run')
include h

theorem callProcedure (name : String) (args : List Value) :
    L.Rel (run.callProcedure name args) (run'.callProcedure name args) :=
  h.on.callProcedure name args

/-- An action of the host respects every relation that is closed under `Interp.attempt`. -/
theorem perform (hc : L.Catches) (action : HostAction) :
    L.Rel (action.perform run) (action.perform run') :=
  RelatedOn.perform (L := L.toHostRelation) h.on fun _ _ _ => hc

end Runner.Related

end FormBasic
