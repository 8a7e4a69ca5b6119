import FormBasic.Proofs.Machine.GlobalConstants
import FormBasic.Proofs.Machine.ProperExecution

/-!
# Where omitted arguments go

An argument that is left out has to end somewhere: a program must not find it in a variable or a
field, where nothing is prepared for it. There are two leaks. `IIf` gives one of its arguments, also
when this one was omitted, and `Current` gives a row of a data source as it stands in the array of
rows, which a program may have made from omitted arguments. There is no other: as long as no
evaluation of such an expression gives an omitted argument, no evaluation does, nothing else is
assigned or written to a field, and every state on the way is proper.

Whether there is a leak is a matter of the run, so it is tested for. Two watched runners are
compared: one gives up with a mark at the first leak, the other raises an alarm where a state or an
answer is not proper. Unless the first one bears the mark, they do the same.

## Main definitions

* `Runner.leaksNothing`, `Runner.staysProper` — the two tests
* `SoundSession` — the states of a session without leaks

## Main results

* `Runner.properAlike_watched` — the comparison
* `SoundSession.stays_proper` — every session without leaks
-/

namespace FormBasic

open Interp

/-! ### Loading -/

theorem isProper_enumValue (m : Int64) : (enumValue m).isProper = true := by
  unfold enumValue
  split <;> rfl

namespace State.Proper

variable {s : State} (h : s.Proper)
include h

theorem registerAll (moduleName : String) (ds : List Decl) :
    (s.registerAll moduleName ds).Proper := by
  unfold State.registerAll
  induction ds generalizing s with
  | nil => exact h
  | cons d ds ih =>
    refine ih (s := s.register moduleName d) ?_
    cases d <;> exact ⟨h.scopes, h.heap, h.withStack⟩

theorem addModule (name : String) : (s.addModule name).Proper :=
  ⟨h.scopes.defineGlobal name rfl, h.heap, h.withStack⟩

theorem setProperty (path property : String) {v : Value} (hv : v.isProper = true) :
    (s.setProperty path property v).Proper := by
  unfold State.setProperty
  split
  · exact ⟨h.scopes, h.heap.set _ _ hv, h.withStack⟩
  · exact ⟨h.scopes.defineGlobal _ hv, h.heap, h.withStack⟩

end State.Proper

/-- What a host hands over with an action is proper. Arguments may be omitted. -/
def HostAction.IsProper : HostAction → Prop
  | .project _ controls => ∀ c ∈ controls, ∀ p ∈ c.properties, p.2.isProper = true
  | .setProperty _ _ v => v.isProper = true
  | _ => True

namespace Runner.ProperAlike

variable {n : Int} {run run' : Runner} (h : ProperAlike n run run')
include h

theorem declareMembers (enumName : String) (next : Int64) (ms : List EnumMember) :
    Keeps n (run.declareMembers enumName next ms) (run'.declareMembers enumName next ms) := by
  induction ms generalizing next with
  | nil => exact .pure trivial
  | cons m ms ih =>
    have hrest : ∀ i : Int64, Keeps n
        (do updateScopes (·.defineConst (memberKey enumName m.name) (enumValue i))
            run.declareMembers enumName (i + 1) ms)
        (do updateScopes (·.defineConst (memberKey enumName m.name) (enumValue i))
            run'.declareMembers enumName (i + 1) ms) := fun i =>
      (keeps_defineConst _ (isProper_enumValue i)).bind fun _ _ => ih _
    unfold Runner.declareMembers
    cases m.value with
    | some e => exact (h.eval e).bind fun v _ => Yields.bind (.computed _) fun i _ => hrest i
    | none => exact Yields.bind (P := fun _ => True) (.pure trivial) fun i _ => hrest i

theorem declareVariable (moduleName : String) (d : VariableDecl) :
    Keeps n (run.declareVariable moduleName d) (run'.declareVariable moduleName d) := by
  refine .read fun s _ => .ite (.pure trivial) ?_
  exact (h.initialValue _ _ _).bind fun v hv => keeps_defineGlobal _ hv

omit h

mutual

theorem declare (h : ProperAlike n run run') (moduleName : String) :
    (d : Decl) → Keeps n (run.declare moduleName d) (run'.declare moduleName d)
  | .moduleDecl name ds => by
    refine Yields.bind (.modify fun _ hs => hs.addModule name) fun _ _ => .inContext ?_ ?_
    · exact Detour.keepsProper_of_withStack (fun _ => rfl) fun _ _ => rfl
    · exact Yields.bind (.modify fun _ hs => hs.registerAll name ds) fun _ _ =>
        h.declareAll name ds
  | .enum name members => h.declareMembers name 0 members
  | .const name e => (h.eval e).bind fun v hv => keeps_defineConst _ hv
  | .variable d => h.declareVariable moduleName d
  | .procedure _ => .pure trivial
  | .property _ => .pure trivial
  | .classDecl _ => .pure trivial

theorem declareAll (h : ProperAlike n run run') (moduleName : String) :
    (ds : List Decl) → Keeps n (run.declareAll moduleName ds) (run'.declareAll moduleName ds)
  | [] => .pure trivial
  | d :: ds => (h.declare moduleName d).bind fun _ _ => h.declareAll moduleName ds

end

include h

theorem runTop (ss : List Stmt) : Keeps n (run.runTop ss) (run'.runTop ss) :=
  (h.block ss).bind fun _ _ => .pure trivial

theorem loadInto (moduleName : String) (p : Program) :
    Keeps n (run.loadInto moduleName p) (run'.loadInto moduleName p) := by
  refine Yields.bind (.modify fun _ hs => hs.registerAll _ _) fun _ _ => ?_
  exact (h.declareAll _ _).bind fun _ _ => h.runTop _

theorem loadModule (moduleName : String) (p : Program) :
    Keeps n (run.loadModule moduleName p) (run'.loadModule moduleName p) := by
  refine Yields.bind (.modify fun _ hs => hs.addModule moduleName) fun _ _ => ?_
  exact .inContext (Detour.keepsProper_of_withStack (fun _ => rfl) fun _ _ => rfl) (h.loadInto _ _)

theorem loadRead (moduleName : String) (p : Except ReadError Program) :
    Keeps n (run.loadRead moduleName p) (run'.loadRead moduleName p) := by
  cases p with
  | ok p => exact .ite (h.loadInto _ _) (h.loadModule _ _)
  | error e => exact .throw _

theorem importModule (name : String) :
    Keeps n (run.importModule name) (run'.importModule name) := by
  refine .read fun s _ => .ite (.pure trivial) ?_
  split
  · exact .throw _
  · split
    · exact .throw _
    · refine Yields.bind (.modify fun _ hs => ⟨hs.scopes, hs.heap, hs.withStack⟩) fun _ _ => ?_
      exact h.loadModule _ _

/-! ### Actions of the host -/

theorem callProcedure (name : String) (args : List Value) :
    Keeps n (run.callProcedure name args) (run'.callProcedure name args) := by
  refine .read fun s _ => ?_
  cases s.procedure? name with
  | some p => exact (h.invokeProcedure p args).keeps
  | none =>
    cases hb : builtin? (Text.lower name) with
    | some b => exact keeps_of_builtin? hb args
    | none => exact .fail _

theorem runConsole (entry : String) (host : ConsoleHost) :
    Keeps n (run.runConsole entry host) (run'.runConsole entry host) := by
  refine Yields.bind (.modify fun _ hs => ⟨hs.scopes, hs.heap, hs.withStack⟩) fun _ _ => ?_
  refine (h.callProcedure entry []).attempt.bind fun outcome _ => .read fun s _ => ?_
  refine Yields.bind (.modify fun _ hs => ⟨hs.scopes, hs.heap, hs.withStack⟩) fun _ _ => ?_
  split <;> exact .pure trivial

theorem perform {action : HostAction} (haction : action.IsProper) :
    Keeps n (action.perform run) (action.perform run') := by
  cases action with
  | load moduleName program => exact h.loadRead _ _
  | importModule name => exact h.importModule _
  | run statements => exact h.runTop _
  | execute s => exact (h.exec s).map fun _ _ => trivial
  | evaluate e => exact (h.eval e).map fun _ _ => trivial
  | call name args => exact (h.callProcedure _ _).map fun _ _ => trivial
  | dispatch form control event args => exact (h.dispatch _ _ _ _).map fun _ _ => trivial
  | runConsole entry host => exact (h.runConsole _ _).map fun _ _ => trivial
  | createForm name => exact (h.defaultInstance _).map fun _ _ => trivial
  | publish name r => exact keeps_publish name r
  | project form controls =>
    exact (h.defaultInstance form).bind fun r _ => keeps_addControls r haction
  | setProperty path property v => exact .modify fun _ hs => hs.setProperty path property haction
  | drain =>
    have hdrain : Keeps n Interp.drain Interp.drain :=
      .modifyGet fun _ hs => ⟨⟨hs.scopes, hs.heap, hs.withStack⟩, trivial⟩
    exact hdrain.map fun _ _ => trivial

end Runner.ProperAlike

/-! ### Requests -/

namespace Request

/-- What a request is made with is proper. Arguments may be omitted. -/
def IsProper : Request → Prop
  | .assign _ v => v.isProper = true
  | _ => True

/-- What a request is answered with is proper. -/
def Gives : (q : Request) → q.Answer → Prop
  | .eval _, v => v.isProper = true
  | .invoke _ _ _ _, r => r.1.isProper = true
  | _, _ => True

/-- Whether a request may be answered with an omitted argument. -/
def mayLeak : Request → Bool
  | .eval e => e.mayLeak
  | _ => false

end Request

namespace Runner

/-- One step gives what is proper, or may leak. -/
theorem ProperAlike.step {n : Int} {run run' : Runner} (h : ProperAlike n run run') {q : Request}
    (hq : q.IsProper) :
    Yields n (fun a => q.Gives a ∨ q.mayLeak = true) (run.step q) (run'.step q) := by
  cases q with
  | eval e => exact h.evalStep e
  | exec s => exact (h.execStep s).or
  | invoke c self classContext args => exact (h.invokeStep c self classContext args).or
  | assign name v => exact (h.assignStep name hq).or

/-! ### Tests -/

/-- No evaluation that may give an omitted argument does so. -/
def leaksNothing : Test
  | .eval e, _, .ok v _ => v.isProper || !e.mayLeak
  | _, _, _ => true

theorem gives_of_leaksNothing {q : Request} {s s' : State} {a : q.Answer}
    (htest : leaksNothing q s (.ok a s') = true) (ha : q.Gives a ∨ q.mayLeak = true) :
    q.Gives a := by
  cases q with
  | eval e =>
    have hpass : (a.isProper || !e.mayLeak) = true := htest
    obtain hproper | hleak := ha
    · exact hproper
    · rwa [show e.mayLeak = true from hleak, Bool.not_true, Bool.or_false] at hpass
  | exec s => trivial
  | invoke c self classContext args => exact ha.resolve_right Bool.false_ne_true
  | assign name v => trivial

open Classical in
/-- A request is made in a proper state and ends in one, and what it is made with and answered with
is proper. -/
noncomputable def staysProper : Test := fun q s r =>
  decide (q.IsProper ∧ s.Proper ∧ (Request.finalState r).Proper ∧
    ∀ a s', r = .ok a s' → q.Gives a)

open Classical in
theorem staysProper_iff {q : Request} {s : State} {r : q.Outcome} :
    staysProper q s r = true ↔ q.IsProper ∧ s.Proper ∧ (Request.finalState r).Proper ∧
      ∀ a s', r = .ok a s' → q.Gives a :=
  decide_eq_true_iff

/-- The first of two runs is tested for a leak, and the second one for whether it stays proper. -/
theorem yields_tested {n : Int} {alarm : Alarm} {q : Request} {x y : Interp q.Answer}
    (hq : q.IsProper) (h : Yields n (fun a => q.Gives a ∨ q.mayLeak = true) x y) :
    Yields n q.Gives (tested leaksNothing (fun _ => mark n) q x)
      (tested staysProper alarm q y) := by
  intro s hs
  by_cases htest : leaksNothing q s (x s) = true
  · have hx : tested leaksNothing (fun _ => mark n) q x s = x s := if_pos htest
    obtain ⟨t, hmark, hn⟩ | ⟨heq, hafter, hmay⟩ := h s hs
    · exact .inl ⟨t, hx.trans hmark, hn⟩
    · have hgives : ∀ a s', y s = .ok a s' → q.Gives a := by
        intro a s' hy
        rw [heq, hy] at htest
        exact gives_of_leaksNothing htest (hmay a s' hy)
      have hstays : staysProper q s (y s) = true := by
        refine staysProper_iff.2 ⟨hq, hs, ?_, hgives⟩
        rwa [Request.finalState_apply]
      have hy : tested staysProper alarm q y s = y s := if_pos hstays
      refine .inr ⟨hx.trans (heq.trans hy.symm), ?_⟩
      rw [EndsProper, after, hy]
      exact ⟨hafter, hgives⟩
  · have hx : tested leaksNothing (fun _ => mark n) q x s = mark n s := if_neg htest
    exact .inl ⟨_, hx, rfl⟩

/-- A runner that gives up at a leak with a mark does the same, up to there, as one that raises an
alarm where something is not proper. -/
theorem properAlike_watched (n : Int) (alarm : Alarm) (fuel : Nat) :
    ProperAlike n (watched leaksNothing (fun _ => mark n) fuel)
      (watched staysProper alarm fuel) := by
  induction fuel with
  | zero => exact ⟨rfl, fun _ => .outOfFuel, fun _ => .outOfFuel, fun _ _ _ _ => .outOfFuel,
      fun _ _ _ => .outOfFuel⟩
  | succ fuel ih =>
    have hanswer : ∀ q : Request, q.IsProper →
        Yields n q.Gives ((watched leaksNothing (fun _ => mark n) (fuel + 1)).answer q)
          ((watched staysProper alarm (fuel + 1)).answer q) := by
      intro q hq
      rw [watched, watched, answer_ofAnswers, answer_ofAnswers]
      exact yields_tested hq (ih.step hq)
    exact ⟨rfl, fun e => hanswer (.eval e) trivial, fun s => hanswer (.exec s) trivial,
      fun c self classContext args => hanswer (.invoke c self classContext args) trivial,
      fun name v hv => hanswer (.assign name v) hv⟩

/-- A run without leaks stays proper. -/
theorem always_staysProper {α : Type} {P : α → Prop} {x : Runner → Interp α}
    (hx : ∀ {n run run'}, ProperAlike n run run' → Yields n P (x run) (x run')) {fuel : Nat}
    {s : State} (hs : s.Proper) (hleaks : Always leaksNothing fuel x s) :
    Always staysProper fuel x s ∧ (x (withFuel fuel)).EndsProper P s := by
  -- a mark that the run cannot bear by chance
  let n := ((x (withFuel fuel)).after s).foreground + 1
  have hplain : x (watched leaksNothing (fun _ => mark n) fuel) s = x (withFuel fuel) s :=
    hleaks fun _ => mark n
  have hunmarked : ¬ (x (watched leaksNothing (fun _ => mark n) fuel)).Marked n s := by
    refine not_marked_of_after_ne ?_
    rw [after_congr hplain]
    omega
  have hsame : ∀ alarm : Alarm, x (watched staysProper alarm fuel) s = x (withFuel fuel) s ∧
      (x (watched staysProper alarm fuel)).EndsProper P s := by
    intro alarm
    obtain ⟨heq, hend⟩ := (hx (properAlike_watched n alarm fuel) s hs).resolve_left hunmarked
    exact ⟨heq.symm.trans hplain, hend⟩
  refine ⟨fun alarm => (hsame alarm).1, ?_⟩
  obtain ⟨heq, hend⟩ := hsame fun _ => outOfFuel
  rwa [EndsProper, after, heq] at hend

end Runner

/-! ### Sessions -/

/-- The states of a session in which no evaluation that may give an omitted argument does so. -/
inductive SoundSession : State → Prop
  | fresh (config : Config) (service : Option Data.Service) (files : Files)
      (clock : Calendar.Moment) (seed : Nat) :
    SoundSession { State.initial config with service, files, clock, seed }
  | perform {s : State} (fuel : Nat) {action : HostAction} (h : SoundSession s)
      (haction : action.IsProper)
      (hleaks : Runner.Always Runner.leaksNothing fuel (action.perform ·) s) :
    SoundSession ((action.perform (.withFuel fuel)).after s)

namespace SoundSession

open Runner

variable {s : State}

theorem proper (h : SoundSession s) : s.Proper := by
  induction h with
  | fresh config service files clock seed =>
    have hinitial := State.proper_initial config
    exact ⟨hinitial.scopes, hinitial.heap, hinitial.withStack⟩
  | perform fuel _ haction hleaks ih =>
    exact (always_staysProper (fun h => h.perform haction) ih hleaks).2.1

/-- In a session without leaks no variable and no field ever holds an omitted argument. As long as
there are none, this goes for the course of every action of the host as well: every state in which a
request is made or ends is proper, every evaluation gives a proper value, and so does the evaluation
of any expression that the host asks for. -/
theorem stays_proper (h : SoundSession s) (fuel : Nat) :
    s.Proper ∧
    (∀ action : HostAction, action.IsProper → Always leaksNothing fuel (action.perform ·) s →
      Always staysProper fuel (action.perform ·) s) ∧
    ∀ (e : Expr) (v : Value) (s' : State), Always leaksNothing fuel (·.eval e) s →
      (withFuel fuel).eval e s = .ok v s' → v.isProper = true ∧ s'.Proper := by
  refine ⟨h.proper, fun action haction hleaks => ?_, fun e v s' hleaks hv => ?_⟩
  · exact (always_staysProper (fun h => h.perform haction) h.proper hleaks).1
  · obtain ⟨hafter, hgives⟩ := (always_staysProper (fun h => h.eval e) h.proper hleaks).2
    rw [after_of_ok hv] at hafter
    exact ⟨hgives v s' hv, hafter⟩

/-- `IIf(True, , 2)` gives the argument that was omitted. -/
example : (match (withFuel 3).eval (.call "IIf" [.boolean true, .omitted, .integer 2]) {} with
    | .ok v _ => v.isProper
    | .error _ _ => true) = false := by decide +kernel

/-- Rows that a program makes from `Rows(, 1)`, and a binding source that stands on the first
one. -/
def withRows : Program where
  declarations := [.procedure { (default : Procedure) with
    name := "Rows"
    parameters := [{ name := "xs", typeName := "", paramArray := true }]
    kind := "Function"
    body := [.returnValue (some (.variable "xs"))] }]
  statements := [
    .assign "t" (.new "DataTable" [] [("Rows", .call "Rows" [.omitted, .integer 1])]),
    .assign "bs" (.new "BindingSource" [] [("DataSource", .variable "t")])]

/-- The row that the binding source stands on is the argument that was omitted. -/
example : (match ((withFuel 9).load "" withRows >>= fun _ =>
      (withFuel 9).eval (.member (.variable "bs") "Current")) {} with
    | .ok v _ => v.isProper
    | .error _ _ => true) = false := by decide +kernel

/-- A program with a function that gives the first one of any arguments. -/
def firstOf : Program where
  declarations := [.procedure { (default : Procedure) with
    name := "First"
    parameters := [{ name := "xs", typeName := "", paramArray := true }]
    kind := "Function"
    body := [.returnValue (some (.element "xs" [.integer 0]))] }]
  statements := []

/-- `IIf(True, First(, 1), )` -/
def choice : Expr :=
  .call "IIf" [.boolean true, .call "First" [.omitted, .integer 1], .omitted]

/-- The state after the program has been loaded. -/
def withFirst : State :=
  (HostAction.perform (.withFuel 9) (.load "" (.ok firstOf))).after (.initial {})

/-- An omitted argument is found as `Nothing` in a parameter array, and one that `IIf` does not
choose is gone. -/
theorem stays_proper_firstOf :
    SoundSession withFirst ∧ withFirst.Proper ∧ Always leaksNothing 9 (·.eval choice) withFirst ∧
      ∃ v s', (withFuel 9).eval choice withFirst = .ok v s' ∧ v.isProper = true ∧ s'.Proper := by
  let load : HostAction := .load "" (.ok firstOf)
  have hload : Always leaksNothing 9 (load.perform ·) (.initial {}) :=
    always_of_ends (fun h => Related.perform (L := endingSession) h (fun h => h.attempt) load)
      (ends_of_comesToEnd (by decide +kernel))
  have hsession : SoundSession withFirst :=
    .perform 9 (.fresh {} none ∅ (State.initial {}).clock 1) trivial hload
  -- the run that gives up at a leak decides both that there is none and that the run succeeds
  have hok : (match (watched leaksNothing (fun _ => outOfFuel) 9).eval choice withFirst with
      | .ok _ _ => true
      | .error _ _ => false) = true := by decide +kernel
  cases hv : (watched leaksNothing (fun _ => outOfFuel) 9).eval choice withFirst with
  | ok v s' =>
    have hleaks : Always leaksNothing 9 (·.eval choice) withFirst :=
      always_of_ends (fun h => h.eval choice) (ends_of_ok hv)
    have hrun : (withFuel 9).eval choice withFirst = .ok v s' :=
      (hleaks fun _ => outOfFuel).symm.trans hv
    obtain ⟨hproper, -, heval⟩ := stays_proper hsession 9
    exact ⟨hsession, hproper, hleaks, v, s', hrun, heval choice v s' hleaks hrun⟩
  | error e s' =>
    rw [hv] at hok
    cases hok

end SoundSession

end FormBasic
