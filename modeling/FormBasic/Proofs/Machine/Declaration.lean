import FormBasic.Proofs.Machine.StateCondition

/-!
# The order of declarations

A list of declarations is entered in two passes. The first one enters its procedures, classes and
properties, wherever they stand in the list; the second one makes the values of its variables,
constants and enumerations, in their order. A module in the list has its turn in the second pass as
well: only then are its own declarations entered, in two passes of their own. So what a value can
use is everything that stands in one of the lists around it, and what the modules in front of it
declare. The procedures and classes of a module that stands behind a value are not there yet when
the value is made, and to move a module behind a value that calls one of its procedures makes the
load fail.

## Main definitions

* `Runner.Reaches` — the second pass comes to a declaration, in the list or in one of its modules
* `Decl.Moved` — lists that differ in where their procedures, classes and properties stand

## Main results

* `Runner.declarations_declareAll` — what the second pass enters
* `Runner.outcome_declareAll_eq_error_iff` — it fails as the first of its values does
* `Runner.values_see_entries_before` — what has been entered when a value is made
-/

namespace FormBasic

open Interp

/-! ### What lists of declarations enter -/

namespace Decl

/-- Whether a declaration is entered without making a value: that of a procedure, a class or a
property. -/
def isEntry : Decl → Bool
  | .procedure _ | .classDecl _ | .property _ => true
  | _ => false

mutual

/-- What the second pass over a declaration enters, each with the module that it stands in. -/
def entries : Decl → List (String × Decl)
  | .moduleDecl name ds => ds.map (name, ·) ++ allEntries ds
  | _ => []

/-- What the second pass over a list of declarations enters. -/
def allEntries : List Decl → List (String × Decl)
  | [] => []
  | d :: ds => entries d ++ allEntries ds

end

theorem entries_of_not_isModule {d : Decl} (hd : d.isModule = false) : d.entries = [] := by
  cases d with
  | moduleDecl name ds => cases hd
  | _ => rfl

/-- The procedure that a declaration of a module enters under a key. -/
def procedureUnder? (key : String) : String × Decl → Option ProcedureEntry
  | (moduleName, .procedure p) =>
    if qualify moduleName p.name = key then some ⟨p, moduleName⟩ else none
  | _ => none

/-- Whether a declaration is that of a class of a name. -/
def declaresClass (name : String) : Decl → Bool
  | .classDecl d => Text.lower d.name == Text.lower name
  | _ => false

end Decl

namespace State

/-- Enter declarations, each in its module. -/
def enter (s : State) (es : List (String × Decl)) : State :=
  es.foldl (fun s e => s.register e.1 e.2) s

variable {s t : State}

theorem declarations_enterModule (s : State) (name : String) :
    (s.enterModule name).declarations = s.declarations := rfl

theorem registerAll_eq_enter (s : State) (moduleName : String) (ds : List Decl) :
    s.registerAll moduleName ds = s.enter (ds.map (moduleName, ·)) := by
  rw [registerAll, enter, List.foldl_map]

theorem enter_append (s : State) (es es' : List (String × Decl)) :
    s.enter (es ++ es') = (s.enter es).enter es' := List.foldl_append

theorem declarations_register_congr (h : t.declarations = s.declarations) (moduleName : String)
    (d : Decl) :
    (t.register moduleName d).declarations = (s.register moduleName d).declarations := by
  have hprocedures : t.procedures = s.procedures := congrArg Declarations.procedures h
  have hproperties : t.properties = s.properties := congrArg Declarations.properties h
  have hclasses : t.classes = s.classes := congrArg Declarations.classes h
  cases d <;> simp only [register, declarations, classTable, hprocedures, hproperties, hclasses]

/-- What is declared after an entry depends on what was declared before it, and on nothing else. -/
theorem declarations_enter_congr (h : t.declarations = s.declarations)
    (es : List (String × Decl)) : (t.enter es).declarations = (s.enter es).declarations := by
  induction es generalizing s t with
  | nil => exact h
  | cons e es ih => exact ih (declarations_register_congr h e.1 e.2)

/-- Under a key stands the last procedure that has been entered under it. -/
theorem find?_procedures_enter (s : State) (es : List (String × Decl)) (key : String) :
    (s.enter es).procedures.find? key =
      (es.reverse.findSome? (Decl.procedureUnder? key)).or (s.procedures.find? key) := by
  induction es generalizing s with
  | nil => rfl
  | cons e es ih =>
    have hregister : (s.register e.1 e.2).procedures.find? key =
        (Decl.procedureUnder? key e).or (s.procedures.find? key) := by
      obtain ⟨moduleName, d⟩ := e
      cases d with
      | procedure p =>
        simp only [register, Table.find?_insert, Decl.procedureUnder?]
        split <;> rfl
      | _ => rfl
    rw [enter, List.foldl_cons, ← enter, ih, hregister, List.reverse_cons, List.findSome?_append,
      List.findSome?_singleton, Option.or_assoc]

/-- A class is there if it was before or has been entered, in whatever module. -/
theorem isSome_class?_enter (s : State) (es : List (String × Decl)) (name : String) :
    ((s.enter es).class? name).isSome = true ↔
      (s.class? name).isSome = true ∨ ∃ e ∈ es, e.2.declaresClass name = true := by
  induction es generalizing s with
  | nil => simp [enter]
  | cons e es ih =>
    have hregister : ((s.register e.1 e.2).class? name).isSome = true ↔
        (s.class? name).isSome = true ∨ e.2.declaresClass name = true := by
      obtain ⟨moduleName, d⟩ := e
      cases d with
      | classDecl d =>
        simp only [register, class?, classTable, ClassTable.class?, ClassTable.declare,
          Table.find?_insert, Decl.declaresClass, beq_iff_eq]
        split <;> next hname => simp [hname]
      | _ => simp [register, class?, classTable, Decl.declaresClass]
    rw [enter, List.foldl_cons, ← enter, ih, hregister, or_assoc]
    simp only [List.mem_cons, exists_eq_or_imp]

end State

/-! ### The second pass -/

namespace Runner

variable {fuel : Nat} {moduleName : String} {s t : State}

/-- A module is declared in its own context. -/
theorem declare_module (run : Runner) (moduleName name : String) (ds : List Decl) (s : State) :
    run.declare moduleName (.moduleDecl name ds) s =
      inContext (.inModule name) (fun s => run.declareAll name ds (s.registerAll name ds))
        (s.addModule name) := rfl

theorem exists_of_declare_module {run : Runner} {name : String} {ds : List Decl}
    (h : run.declare moduleName (.moduleDecl name ds) s = .ok () t) :
    ∃ u, run.declareAll name ds ((s.enterModule name).registerAll name ds) = .ok () u ∧
      t = { u with context := (Detour.inModule name).leave s.context u.context } := by
  rw [declare_module] at h
  exact exists_of_inContext_ok h

theorem outcome_declare_module (run : Runner) (moduleName name : String) (ds : List Decl)
    (s : State) :
    (run.declare moduleName (.moduleDecl name ds)).outcome s =
      (run.declareAll name ds).outcome ((s.enterModule name).registerAll name ds) := by
  calc (run.declare moduleName (.moduleDecl name ds)).outcome s
      = (inContext (.inModule name)
          fun s => run.declareAll name ds (s.registerAll name ds)).outcome (s.addModule name) := by
        rw [outcome, declare_module, outcome]
    _ = (run.declareAll name ds).outcome ((s.enterModule name).registerAll name ds) :=
        outcome_inContext _ _ _

theorem declareAll_append (run : Runner) (moduleName : String) (ds ds' : List Decl) :
    run.declareAll moduleName (ds ++ ds') =
      (do run.declareAll moduleName ds
          run.declareAll moduleName ds') := by
  induction ds with
  | nil => exact (pure_bind _ _).symm
  | cons d ds ih => rw [List.cons_append, declareAll, declareAll, ih, bind_assoc]

/-- What makes a value enters nothing. -/
theorem agree_declareValue {d : Decl} (hd : d.isModule = false) (C : StateCondition)
    {run run' : Runner} (h : Related (conditionRelation C) run run') (moduleName : String) :
    AgreeWhere C (run.declare moduleName d) (run'.declare moduleName d) :=
  RelatedOn.declareValue (L := (conditionRelation C).toBindingRelation) h.on moduleName hd

theorem declarations_declareValue {d : Decl} (hd : d.isModule = false)
    (h : (withFuel fuel).declare moduleName d s = .ok () t) :
    t.declarations = (s.enter d.entries).declarations := by
  rw [Decl.entries_of_not_isModule hd, ← after_of_ok h]
  exact (agree_declareValue hd (.declared s.declarations) (related_condition _ fuel) moduleName s
    rfl).2

mutual

theorem declarations_declare {s t : State} {moduleName : String} :
    (d : Decl) → (withFuel fuel).declare moduleName d s = .ok () t →
      t.declarations = (s.enter d.entries).declarations
  | .moduleDecl name ds, h => by
    obtain ⟨u, hrun, rfl⟩ := exists_of_declare_module h
    have hu : u.declarations =
        (((s.enterModule name).registerAll name ds).enter (Decl.allEntries ds)).declarations :=
      declarations_declareAll ds hrun
    rw [State.registerAll_eq_enter, ← State.enter_append] at hu
    rw [Decl.entries]
    exact hu.trans (State.declarations_enter_congr (State.declarations_enterModule s name) _)
  | .enum _ _, h => declarations_declareValue rfl h
  | .const _ _, h => declarations_declareValue rfl h
  | .variable _, h => declarations_declareValue rfl h
  | .procedure _, h => declarations_declareValue rfl h
  | .property _, h => declarations_declareValue rfl h
  | .classDecl _, h => declarations_declareValue rfl h

/-- The second pass enters what the modules of the list declare. -/
theorem declarations_declareAll {s t : State} {moduleName : String} :
    (ds : List Decl) → (withFuel fuel).declareAll moduleName ds s = .ok () t →
      t.declarations = (s.enter (Decl.allEntries ds)).declarations
  | [], h => by
    cases h
    rfl
  | d :: ds, h => by
    obtain ⟨⟨⟩, u, hd, hds⟩ := exists_of_bind_ok (h : (_ >>= _ : Interp Unit) s = _)
    rw [Decl.allEntries, State.enter_append, declarations_declareAll ds hds]
    exact State.declarations_enter_congr (declarations_declare d hd) _

end

/-- The pass over a list stops where the pass over one of its declarations does. -/
theorem outcome_declareAll_of_error {run : Runner} {before after : List Decl} {d : Decl} {e : Halt}
    (hrun : run.declareAll moduleName before s = .ok () t)
    (hd : (run.declare moduleName d).outcome t = .error e) :
    (run.declareAll moduleName (before ++ d :: after)).outcome s = .error e := by
  have hall : run.declareAll moduleName (before ++ d :: after) s =
      .error e ((run.declare moduleName d).after t) := by
    rw [declareAll_append, bind_of_ok _ hrun]
    exact bind_of_error _ (outcome_eq_error.1 hd)
  exact outcome_of_error hall

theorem exists_of_outcome_declareAll {run : Runner} {ds : List Decl} {e : Halt}
    (h : (run.declareAll moduleName ds).outcome s = .error e) :
    ∃ before d after t, ds = before ++ d :: after ∧
      run.declareAll moduleName before s = .ok () t ∧
      (run.declare moduleName d).outcome t = .error e := by
  induction ds generalizing s with
  | nil => cases h
  | cons d ds ih =>
    cases hd : run.declare moduleName d s with
    | error e' u =>
      have hrun : run.declareAll moduleName (d :: ds) s = .error e' u := bind_of_error _ hd
      rw [outcome_of_error hrun] at h
      cases h
      exact ⟨[], d, ds, s, rfl, rfl, outcome_of_error hd⟩
    | ok v u =>
      have hrun : run.declareAll moduleName (d :: ds) s = run.declareAll moduleName ds u :=
        bind_of_ok _ hd
      rw [outcome, hrun] at h
      obtain ⟨before, d', after, t, rfl, hbefore, hd'⟩ := ih h
      exact ⟨d :: before, d', after, t, rfl, (bind_of_ok _ hd).trans hbefore, hd'⟩

/-! ### Values that a load comes to -/

/-- The second pass over a list comes to a declaration that is no module, in the list or in one of
its modules: the module that the declaration stands in, the state in which its value is made, and
what has been entered until then. -/
inductive Reaches (run : Runner) : (moduleName : String) → List Decl → State →
    (entered : List (String × Decl)) → String → Decl → State → Prop where
  /-- What stands before it in the list has been declared. -/
  | here {moduleName : String} {ds before after : List Decl} {d : Decl} {s t : State}
    (hds : ds = before ++ d :: after) (hd : d.isModule = false)
    (hrun : run.declareAll moduleName before (s.registerAll moduleName ds) = .ok () t) :
    Reaches run moduleName ds s (ds.map (moduleName, ·) ++ Decl.allEntries before) moduleName d t
  /-- It is come to in a module of the list. -/
  | within {moduleName name innerName : String} {ds before inner after : List Decl} {d : Decl}
    {s t u : State} {entered : List (String × Decl)}
    (hds : ds = before ++ .moduleDecl name inner :: after)
    (hrun : run.declareAll moduleName before (s.registerAll moduleName ds) = .ok () t)
    (h : Reaches run name inner (t.enterModule name) entered innerName d u) :
    Reaches run moduleName ds s (ds.map (moduleName, ·) ++ Decl.allEntries before ++ entered)
      innerName d u

namespace Reaches

variable {run : Runner} {ds : List Decl} {entered : List (String × Decl)} {name : String} {d : Decl}

theorem not_isModule (h : run.Reaches moduleName ds s entered name d t) : d.isModule = false := by
  induction h with
  | here _ hd _ => exact hd
  | within _ _ _ ih => exact ih

/-- What is declared when a value is made. -/
theorem declarations (h : (withFuel fuel).Reaches moduleName ds s entered name d t) :
    t.declarations = (s.enter entered).declarations := by
  induction h with
  | here _ _ hrun =>
    rw [State.enter_append, ← State.registerAll_eq_enter]
    exact declarations_declareAll _ hrun
  | within _ hrun _ ih =>
    rw [ih, State.enter_append, State.enter_append, ← State.registerAll_eq_enter]
    exact State.declarations_enter_congr
      ((State.declarations_enterModule _ _).trans (declarations_declareAll _ hrun)) _

end Reaches

/-- The second pass fails as the first of its values does. -/
theorem outcome_declareAll_of_reaches {run : Runner} {ds : List Decl} {name : String} {d : Decl}
    {entered : List (String × Decl)} {e : Halt}
    (h : run.Reaches moduleName ds s entered name d t)
    (hd : (run.declare name d).outcome t = .error e) :
    (run.declareAll moduleName ds).outcome (s.registerAll moduleName ds) = .error e := by
  induction h with
  | here hds _ hrun =>
    subst hds
    exact outcome_declareAll_of_error hrun hd
  | within hds hrun _ ih =>
    subst hds
    exact outcome_declareAll_of_error hrun ((outcome_declare_module ..).trans (ih hd))

theorem exists_reaches_of_outcome {run : Runner} {moduleName : String} {s : State} {e : Halt}
    (ds : List Decl)
    (h : (run.declareAll moduleName ds).outcome (s.registerAll moduleName ds) = .error e) :
    ∃ entered name d t, run.Reaches moduleName ds s entered name d t ∧
      (run.declare name d).outcome t = .error e := by
  obtain ⟨before, d, after, t, hds, hrun, hd⟩ := exists_of_outcome_declareAll h
  cases hmodule : d.isModule with
  | false => exact ⟨_, _, d, t, .here hds hmodule hrun, hd⟩
  | true =>
    cases d with
    | moduleDecl name inner =>
      rw [outcome_declare_module] at hd
      obtain ⟨entered, innerName, d, u, hreaches, hvalue⟩ := exists_reaches_of_outcome inner hd
      exact ⟨_, innerName, d, u, .within hds hrun hreaches, hvalue⟩
    | _ => cases hmodule
termination_by sizeOf ds
decreasing_by
  have hmem : Decl.moduleDecl name inner ∈ ds := by simp [hds]
  have hlt := List.sizeOf_lt_of_mem hmem
  simp only [Decl.moduleDecl.sizeOf_spec] at hlt
  omega

/-! ### Moving declarations -/

end Runner

/-- Lists of declarations that differ in where their entries stand: an entry may be moved past its
neighbour if this is none, also in a module of the list. -/
inductive Decl.Moved : List Decl → List Decl → Prop where
  | refl (ds : List Decl) : Moved ds ds
  | pass {entry d : Decl} (ds : List Decl) (hentry : entry.isEntry = true)
    (hd : d.isEntry = false) : Moved (entry :: d :: ds) (d :: entry :: ds)
  | cons (d : Decl) {ds ds' : List Decl} (h : Moved ds ds') : Moved (d :: ds) (d :: ds')
  | within (name : String) {ds ds' : List Decl} (rest : List Decl) (h : Moved ds ds') :
    Moved (.moduleDecl name ds :: rest) (.moduleDecl name ds' :: rest)
  | symm {ds ds' : List Decl} (h : Moved ds ds') : Moved ds' ds
  | trans {ds ds' ds'' : List Decl} (h : Moved ds ds') (h' : Moved ds' ds'') : Moved ds ds''

namespace Decl

theorem register_of_not_isEntry {d : Decl} (hd : d.isEntry = false) (s : State)
    (moduleName : String) : s.register moduleName d = s := by
  cases d with
  | procedure _ => cases hd
  | classDecl _ => cases hd
  | property _ => cases hd
  | _ => rfl

theorem declare_of_isEntry {d : Decl} (hd : d.isEntry = true) (run : Runner)
    (moduleName : String) : run.declare moduleName d = pure () := by
  cases d with
  | procedure _ => rfl
  | classDecl _ => rfl
  | property _ => rfl
  | _ => cases hd

namespace Moved

variable {ds ds' : List Decl}

/-- The entries keep their order among themselves, so the first pass does the same. -/
theorem registerAll (h : Moved ds ds') (s : State) (moduleName : String) :
    s.registerAll moduleName ds = s.registerAll moduleName ds' := by
  induction h generalizing s with
  | refl ds => rfl
  | pass ds hentry hd =>
    simp only [State.registerAll, List.foldl_cons, register_of_not_isEntry hd]
  | cons d _ ih => exact ih (s.register moduleName d)
  | within name rest _ _ => rfl
  | symm _ ih => exact (ih s).symm
  | trans _ _ ih ih' => exact (ih s).trans (ih' s)

/-- So do the other declarations, and the entries are nothing to the second pass. -/
theorem declareAll (h : Moved ds ds') (run : Runner) (moduleName : String) :
    run.declareAll moduleName ds = run.declareAll moduleName ds' := by
  induction h generalizing moduleName with
  | refl ds => rfl
  | pass ds hentry hd =>
    simp only [Runner.declareAll, declare_of_isEntry hentry, pure_bind]
  | cons d _ ih => rw [Runner.declareAll, Runner.declareAll, ih]
  | @within name ds ds' rest h ih =>
    have hmodule : run.declare moduleName (.moduleDecl name ds) =
        run.declare moduleName (.moduleDecl name ds') := by
      funext s
      simp only [Runner.declare_module, h.registerAll, ih]
    rw [Runner.declareAll, Runner.declareAll, hmodule]
  | symm _ ih => exact (ih moduleName).symm
  | trans _ _ ih ih' => exact (ih moduleName).trans (ih' moduleName)

end Moved

end Decl

namespace Runner

open Classical in
/-- The same is declared when a request is made. -/
noncomputable def declaredAs (declarations : Declarations) : Test :=
  fun _ s _ => decide (s.declarations = declarations)

open Classical in
theorem declaredAs_iff {declarations : Declarations} {q : Request} {s : State} {r : q.Outcome} :
    declaredAs declarations q s r = true ↔ s.declarations = declarations := decide_eq_true_iff

variable {fuel : Nat}

theorem always_declaredAs {d : Decl} (hd : d.isModule = false) (moduleName : String) (s : State) :
    Always (declaredAs s.declarations) fuel (·.declare moduleName d) s :=
  always_of_condition (C := .declared s.declarations)
    (fun hrel => agree_declareValue hd _ hrel moduleName)
    (fun _ _ _ hs => declaredAs_iff.2 hs) rfl

/-- What has been entered when a value is made. A load comes to a value, in the list or in one of
its modules at any depth, with exactly this entered on top of what was declared before: the
procedures, classes and properties of all the lists around the value, wherever they stand in them,
and everything in the modules that stand in these lists in front of the value or of the module that
it is in. This is declared throughout the making of the value, a procedure is found under its key
unless a later one has replaced it, and so is a class. The load fails exactly if a value fails that
it comes to, and to move procedures, classes and properties to other places in their lists makes no
difference to it. -/
theorem values_see_entries_before (fuel : Nat) (moduleName : String) (ds : List Decl) (s : State) :
    (∀ entered name d t, (withFuel fuel).Reaches moduleName ds s entered name d t →
      t.declarations = (s.enter entered).declarations ∧
      Always (declaredAs (s.enter entered).declarations) fuel (·.declare name d) t ∧
      (∀ key, t.procedures.find? key =
        (entered.reverse.findSome? (Decl.procedureUnder? key)).or (s.procedures.find? key)) ∧
      ∀ className, (t.class? className).isSome = true ↔
        (s.class? className).isSome = true ∨ ∃ e ∈ entered, e.2.declaresClass className = true) ∧
    (∀ e, ((withFuel fuel).declareAll moduleName ds).outcome (s.registerAll moduleName ds) =
        .error e ↔
      ∃ entered name d t, (withFuel fuel).Reaches moduleName ds s entered name d t ∧
        ((withFuel fuel).declare name d).outcome t = .error e) ∧
    ∀ ds' statements, Decl.Moved ds ds' →
      (withFuel fuel).loadInto moduleName ⟨ds, statements⟩ =
        (withFuel fuel).loadInto moduleName ⟨ds', statements⟩ := by
  refine ⟨fun entered name d t h => ?_, fun e => ⟨exists_reaches_of_outcome ds, ?_⟩,
    fun ds' statements hmoved => ?_⟩
  · have hdeclared := h.declarations
    have hprocedures : t.procedures = (s.enter entered).procedures :=
      congrArg Declarations.procedures hdeclared
    have hclasses : t.classes = (s.enter entered).classes :=
      congrArg Declarations.classes hdeclared
    refine ⟨hdeclared, ?_, fun key => ?_, fun className => ?_⟩
    · rw [← hdeclared]
      exact always_declaredAs h.not_isModule name t
    · rw [hprocedures, State.find?_procedures_enter]
    · rw [← State.isSome_class?_enter, State.class?, State.classTable, hclasses]
      rfl
  · rintro ⟨entered, name, d, t, h, hd⟩
    exact outcome_declareAll_of_reaches h hd
  · funext s
    simp only [loadInto, hmoved.registerAll, hmoved.declareAll]

/-- A variable with the value that a function gives. -/
def total : Decl := .variable ⟨"total", "Integer", [], some (.call "NextValue" [])⟩

/-- A module with this function. -/
def helpers : Decl := .moduleDecl "Helpers" [.procedure
  ⟨"Function", "NextValue", [], "Integer", [.returnValue (some (.integer 7))], [], false⟩]

/-- A state in which nothing is bound and nothing declared. -/
def unloaded : State := {}

/-- With the module behind the variable the function is not there when the variable is to get its
value, and nothing is loaded; with the module in front of it the variable gets its value. -/
theorem values_see_entries_before_late :
    ∃ entered t f, (withFuel 8).Reaches "" [total, helpers] unloaded entered "" total t ∧
      t.procedures.find? "helpers.nextvalue" = none ∧
      ((withFuel 8).declareAll "" [total, helpers]).outcome
        (unloaded.registerAll "" [total, helpers]) = .error (.failure f) ∧
      f.message {} = "Undefined function: NextValue" ∧
      ((((withFuel 8).loadInto "" ⟨[helpers, total], []⟩).after unloaded).scopes.lookup?
        "total").map Value.toText = some "7" := by
  have hreaches : (withFuel 8).Reaches "" [total, helpers] unloaded
      ([total, helpers].map ("", ·) ++ Decl.allEntries []) "" total
      (unloaded.registerAll "" [total, helpers]) :=
    .here (show [total, helpers] = [] ++ total :: [helpers] from rfl) rfl rfl
  obtain ⟨hvalues, hfails, -⟩ := values_see_entries_before 8 "" [total, helpers] unloaded
  have hvalue : (((withFuel 8).declare "" total).failure?
      (unloaded.registerAll "" [total, helpers])).map (·.message {}) =
        some "Undefined function: NextValue" := by decide +kernel
  obtain ⟨f, hf, hmessage⟩ := Option.map_eq_some_iff.1 hvalue
  obtain ⟨u, hu⟩ := exists_of_failure? hf
  refine ⟨_, _, f, hreaches, ?_, (hfails _).2 ⟨_, _, _, _, hreaches, outcome_of_error hu⟩,
    hmessage, ?_⟩
  · rw [(hvalues _ _ _ _ hreaches).2.2.1]
    rfl
  · decide +kernel

end Runner

end FormBasic
