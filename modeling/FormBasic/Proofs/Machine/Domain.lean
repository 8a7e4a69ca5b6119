import FormBasic.Machine.Host

/-!
# What a step asks for

One step of the machine asks a runner for a few things: to evaluate the parts of an expression, to
execute the statements of its blocks, to run callables that are declared, and to set the fields of
the classes that the expression names. This module says what these are, as lists that can be read
off the syntax, and as the callables that are declared in a state. `Domain` is a choice of requests;
a statement about the runs of some programs only is about a domain in which the requests stay.

## Main definitions

* `Expr.parts`, `Expr.classes` — what evaluating an expression asks for
* `Stmt.exprs`, `Stmt.blocks`, `Stmt.assignedMembers` — what executing a statement asks for
* `State.Declares` — the callables that are declared
* `Domain` — a choice of requests
-/

namespace FormBasic

/-! ### Expressions -/

namespace Expr

/-- Whether an expression is a variable. -/
def isVariable : Expr → Bool
  | .variable _ => true
  | _ => false

/-- The argument expressions of a call, an element access or a method call: those that the step of
evaluation itself hands to a callable. -/
def callArguments : Expr → List Expr
  | .element _ es => es
  | .call _ es => es
  | .method _ _ es => es
  | _ => []

/-- What may be evaluated as an owner of a method call: the owner that is written, and the form in
`form.Controls.Add(…)`. -/
def owners : Expr → List Expr
  | .member form name => [.member form name, form]
  | e => [e]

/-- The class whose default instance an owner may stand for. -/
def ownerClass : Expr → List String
  | .variable name => [name]
  | _ => []

/-- The expressions that a step of evaluation evaluates. -/
def parts : Expr → List Expr
  | .array es => es
  | .member o _ => [o]
  | .element _ es => es
  | .binary _ l r => [l, r]
  | .unary _ e => [e]
  | .typeOf e _ => [e]
  | .call _ es => es
  | .method o _ es => o.owners ++ es
  | .new _ es fields => es ++ fields.map (·.2)
  | .conditional c t f => [c, t, f]
  | .await e => [e]
  | .cast _ e _ => [e]
  | _ => []

/-- The classes of which a step of evaluation may build an instance. -/
def classes : Expr → List String
  | .member o _ => o.ownerClass
  | .method o _ _ => o.owners.flatMap ownerClass
  | .new className _ _ => [className]
  | _ => []

end Expr

/-- The expressions that give a declared variable or field its first value. -/
def VariableDecl.exprs (d : VariableDecl) : List Expr := d.bounds ++ d.initializer.toList

/-! ### Statements -/

/-- The expressions in an entry of a `Case` line. -/
def CaseCondition.exprs : CaseCondition → List Expr
  | .value e => [e]
  | .range low high => [low, high]
  | .is _ e => [e]

namespace Stmt

/-- The expressions that a step of execution evaluates. -/
def exprs : Stmt → List Expr
  | .dim _ _ bs initializer => bs ++ initializer.toList
  | .const _ e => [e]
  | .assign _ e => [e]
  | .setAssign _ e => [e]
  | .memberAssign o _ e => [o, e]
  | .elementAssign _ es e => e :: es
  | .reDim _ _ es => es
  | .compound target _ e => target :: e :: target.parts
  | .ifThen condition _ elseIfs _ => condition :: elseIfs.map (·.condition)
  | .forTo _ start stop step _ => start :: stop :: step.toList
  | .forEach _ collection _ => [collection]
  | .whileLoop condition _ => [condition]
  | .doLoop pre post _ => pre.toList.map (·.condition) ++ post.toList.map (·.condition)
  | .select test cases _ => test :: cases.flatMap fun c => c.conditions.flatMap (·.exprs)
  | .withBlock e _ => [e]
  | .returnValue e => e.toList
  | .call e => [e]
  | .expression e => [e.getD .omitted]
  | .tryCatch _ cs _ => cs.filterMap (·.filter)
  | .throwValue e => e.toList
  | .addHandler _ event handler => handler :: event.parts
  | .raiseEvent _ es => es
  | .exitBlock _ => []
  | .continueLoop _ => []

/-- The blocks that a step of execution executes. -/
def blocks : Stmt → List (List Stmt)
  | .ifThen _ whenTrue elseIfs whenFalse => whenTrue :: whenFalse.getD [] :: elseIfs.map (·.body)
  | .forTo _ _ _ _ body => [body]
  | .forEach _ _ body => [body]
  | .whileLoop _ body => [body]
  | .doLoop _ _ body => [body]
  | .select _ cases otherwise => otherwise.getD [] :: cases.map (·.body)
  | .withBlock _ body => [body]
  | .tryCatch body cs cleanup => body :: cleanup.getD [] :: cs.map (·.body)
  | _ => []

/-- The names that a statement itself binds in the innermost scope. -/
def bound : Stmt → List String
  | .dim name _ _ _ => [name]
  | .const name _ => [name]
  | .tryCatch _ cs _ => cs.map (·.name)
  | _ => []

/-- The names to which a statement itself assigns, making a field or a binding where there is
none. -/
def assigned : Stmt → List String
  | .assign name _ => [name]
  | .compound (.variable name) _ _ => [name]
  | .forTo name _ _ _ _ => [name]
  | _ => []

/-- The names to which a statement itself assigns, making a binding where there is none. -/
def redefined : Stmt → List String
  | .reDim name _ _ => [name]
  | .forTo name _ _ _ _ => [name]
  | .forEach name _ _ => [name]
  | _ => []

/-- The members to which a statement itself assigns, with their owners. -/
def assignedMembers : Stmt → List (Expr × String)
  | .memberAssign o member _ => [(o, member)]
  | .compound (.member o member) _ _ => [(o, member)]
  | _ => []

theorem owner_mem_exprs {s : Stmt} {place : Expr × String} (h : place ∈ s.assignedMembers) :
    place.1 ∈ s.exprs := by
  unfold assignedMembers at h
  split at h
  · obtain rfl := List.mem_singleton.1 h
    exact List.mem_cons_self
  · obtain rfl := List.mem_singleton.1 h
    exact List.mem_cons_of_mem _ (List.mem_cons_of_mem _ List.mem_cons_self)
  · cases h

/-- Whether a statement itself takes a name that could not be found for a target that does not exist
yet. -/
def isForgiving : Stmt → Bool
  | .assign _ _ => true
  | .memberAssign _ _ _ => true
  | .reDim _ _ _ => true
  | .compound (.variable _) _ _ => true
  | .compound (.member _ _) _ _ => true
  | .forTo _ _ _ _ _ => true
  | .forEach _ _ _ => true
  | _ => false

/-- Whether a statement is a `Try`. -/
def isTry : Stmt → Bool
  | .tryCatch _ _ _ => true
  | _ => false

/-- Whether a statement is a loop. -/
def isLoop : Stmt → Bool
  | .forTo _ _ _ _ _ => true
  | .forEach _ _ _ => true
  | .whileLoop _ _ => true
  | .doLoop _ _ _ => true
  | _ => false

end Stmt

/-! ### Callables -/

/-- The expressions that a call evaluates for parameters without an argument. -/
def Callable.defaults (c : Callable) : List Expr := c.parameters.filterMap (·.default)

namespace State

/-- The callables that are declared in a state. -/
inductive Declares (s : State) : Callable → Prop
  | procedure {key : String} {p : ProcedureEntry} (h : s.procedures.find? key = some p) :
    s.Declares (.ofEntry p)
  | moduleGetter {key : String} {p : PropertyDecl} (h : s.properties.find? key = some p)
    (moduleName : String) : s.Declares (.getter p moduleName)
  | moduleSetter {key : String} {p : PropertyDecl} (h : s.properties.find? key = some p)
    (moduleName : String) : s.Declares (.setter p moduleName)
  | method {key : String} {c : ClassInfo} {m : Procedure} (h : Table.find? s.classes key = some c)
    (hm : m ∈ c.methods) : s.Declares (.ofProcedure m c.moduleName)
  | getter {key : String} {c : ClassInfo} {p : PropertyDecl}
    (h : Table.find? s.classes key = some c) (hp : p ∈ c.properties) :
    s.Declares (.getter p c.moduleName)
  | setter {key : String} {c : ClassInfo} {p : PropertyDecl}
    (h : Table.find? s.classes key = some c) (hp : p ∈ c.properties) :
    s.Declares (.setter p c.moduleName)

end State

/-! ### Members of classes -/

namespace ClassTable

theorem exists_find?_of_mem_chainFrom {t : ClassTable} {fuel : Nat} {seen : List String}
    {key : String} {c : ClassInfo} (h : c ∈ t.chainFrom fuel seen key) :
    ∃ key, Table.find? t key = some c := by
  induction fuel generalizing seen key with
  | zero => cases h
  | succ fuel ih =>
    unfold chainFrom at h
    split at h
    · cases h
    · split at h
      · cases h
      · next c' hfind =>
        split at h
        · rw [List.mem_singleton] at h
          exact ⟨key, h ▸ hfind⟩
        · rcases List.mem_cons.1 h with rfl | h
          · exact ⟨key, hfind⟩
          · exact ih h

/-- The classes of a chain are in the table. -/
theorem exists_find?_of_mem_chain {t : ClassTable} {name : String} {c : ClassInfo}
    (h : c ∈ t.chain name) : ∃ key, Table.find? t key = some c :=
  exists_find?_of_mem_chainFrom h

theorem mem_of_firstMember {α : Type} {members : ClassInfo → List α} {test : α → Bool}
    {cs : List ClassInfo} {m : α} {c : ClassInfo} (h : firstMember members test cs = some (m, c)) :
    c ∈ cs ∧ m ∈ members c := by
  induction cs with
  | nil => cases h
  | cons c' cs ih =>
    unfold firstMember at h
    split at h
    · next hfind =>
      cases h
      exact ⟨List.mem_cons_self, List.mem_of_find?_eq_some hfind⟩
    · exact ⟨List.mem_cons_of_mem _ (ih h).1, (ih h).2⟩

end ClassTable

/-! ### What names find is declared -/

namespace State

variable {s : State}

theorem declares_of_procedureAt? {key : String} {p : ProcedureEntry}
    (h : s.procedureAt? key = some p) : s.Declares (.ofEntry p) :=
  .procedure h

theorem declares_of_procedureInModule? {name : String} {p : ProcedureEntry}
    (h : s.procedureInModule? name = some p) : s.Declares (.ofEntry p) := by
  obtain ⟨key, -, hkey⟩ := Option.bind_eq_some_iff.1 h
  exact .procedure hkey

theorem declares_of_procedure? {name : String} {p : ProcedureEntry}
    (h : s.procedure? name = some p) : s.Declares (.ofEntry p) := by
  simp only [procedure?] at h
  cases hkey : s.procedureAt? (Text.lower name) with
  | some p' =>
    rw [hkey] at h
    cases h
    exact .procedure hkey
  | none =>
    rw [hkey] at h
    dsimp only at h
    split at h
    · next hown =>
      cases h
      split at hown
      · cases hown
      · exact .procedure hown
    · exact declares_of_procedureInModule? h

theorem declares_of_firstMember_methods {test : Procedure → Bool} {className : String}
    {m : Procedure} {c : ClassInfo}
    (h : ClassTable.firstMember (·.methods) test (s.classTable.chain className) = some (m, c)) :
    s.Declares (.ofProcedure m c.moduleName) := by
  obtain ⟨hc, hm⟩ := ClassTable.mem_of_firstMember h
  obtain ⟨key, hkey⟩ := ClassTable.exists_find?_of_mem_chain hc
  exact .method hkey hm

theorem declares_of_method? {className name : String} {m : Procedure} {c : ClassInfo}
    (h : s.classTable.method? className name = some (m, c)) :
    s.Declares (.ofProcedure m c.moduleName) :=
  declares_of_firstMember_methods h

theorem exists_find?_of_property? {className name : String} {p : PropertyDecl} {c : ClassInfo}
    (h : s.classTable.property? className name = some (p, c)) :
    (∃ key, Table.find? s.classes key = some c) ∧ p ∈ c.properties := by
  obtain ⟨hc, hp⟩ := ClassTable.mem_of_firstMember h
  exact ⟨ClassTable.exists_find?_of_mem_chain hc, hp⟩

theorem declares_getter {className name : String} {p : PropertyDecl} {c : ClassInfo}
    (h : s.classTable.property? className name = some (p, c)) :
    s.Declares (.getter p c.moduleName) := by
  obtain ⟨⟨key, hkey⟩, hp⟩ := exists_find?_of_property? h
  exact .getter hkey hp

theorem declares_setter {className name : String} {p : PropertyDecl} {c : ClassInfo}
    (h : s.classTable.property? className name = some (p, c)) :
    s.Declares (.setter p c.moduleName) := by
  obtain ⟨⟨key, hkey⟩, hp⟩ := exists_find?_of_property? h
  exact .setter hkey hp

/-- A property of the current object is one of its class. -/
theorem property?_of_ownProperty? {name : String} {self : ObjectRef} {p : PropertyDecl}
    {c : ClassInfo} (h : s.ownProperty? name = some (self, p, c)) :
    s.classTable.property? self.className name = some (p, c) := by
  obtain ⟨r, -, hfound⟩ := Option.bind_eq_some_iff.1 h
  obtain ⟨found, hp, heq⟩ := Option.bind_eq_some_iff.1 hfound
  cases heq
  exact hp

theorem exists_find?_of_firstProperty {properties : Table PropertyDecl} {keys : List String}
    {found : PropertyDecl × String} (h : firstProperty properties keys = some found) :
    ∃ key, properties.find? key = some found.1 := by
  induction keys with
  | nil => cases h
  | cons key keys ih =>
    unfold firstProperty at h
    split at h
    · next hkey =>
      cases h
      exact ⟨key, hkey⟩
    · exact ih h

theorem exists_find?_of_moduleProperty? {name : String} {found : PropertyDecl × String}
    (h : s.moduleProperty? name = some found) : ∃ key, s.properties.find? key = some found.1 :=
  exists_find?_of_firstProperty h

/-- A name that stands for no data is not bound. -/
theorem lookup?_eq_none_of_data? {name : String} (h : s.data? name = none) :
    s.scopes.lookup? name = none := by
  unfold data? at h
  split at h
  · exact h
  · split at h
    · cases h
    · split at h
      · cases h
      · next hnone => exact hnone

end State

/-! ### Domains -/

/-- A choice of requests: expressions to evaluate, statements to execute, callables to run, and
classes of which instances are built. -/
structure Domain where
  expr : Expr → Prop
  stmt : Stmt → Prop
  call : Callable → Prop
  instances : String → Prop

/-- All requests. -/
def Domain.all : Domain := ⟨fun _ => True, fun _ => True, fun _ => True, fun _ => True⟩

end FormBasic
