import FormBasic.Proofs.Machine.Domain
import FormBasic.Proofs.Machine.Quiet

/-!
# How deep a program is nested

How deep the requests of a run are nested depends on three things. The parts of an expression and
the statements of a block are smaller than what they are part of. A call is limited by the number of
active procedures. And an instance of a class is built together with the values of its fields, so
that an expression may lead to the field initializers of the classes it names. Nothing limits this,
unless the classes are *layered*: a field initializer only builds instances of classes of a lower
rank.

## Main definitions

* `Expr.Builds` — the classes of which evaluating an expression may build an instance itself
* `State.Layered` — the classes have ranks
* `Stmt.LoopFree`, `State.LoopFree` — programs without loops
* `State.Fits` — bounds for the sizes of what is declared, and for the ranks
-/

namespace FormBasic

/-! ### Sizes of parts -/

namespace Expr

theorem one_le_sizeOf (e : Expr) : 1 ≤ sizeOf e := by
  cases e <;> simp <;> omega

theorem sizeOf_le_of_mem_owners {e e' : Expr} (h : e' ∈ e.owners) : sizeOf e' ≤ sizeOf e := by
  cases e with
  | member form name =>
    simp only [owners, List.mem_cons, List.not_mem_nil, or_false] at h
    obtain rfl | rfl := h
    · exact Nat.le_refl _
    · simp only [member.sizeOf_spec]
      omega
  | _ =>
    simp only [owners, List.mem_cons, List.not_mem_nil, or_false] at h
    exact Nat.le_of_eq (congrArg sizeOf h)

/-- The expressions that a step of evaluation evaluates are smaller. -/
theorem sizeOf_lt_of_mem_parts {e e' : Expr} (h : e' ∈ e.parts) : sizeOf e' < sizeOf e := by
  cases e with
  | method o name es =>
    simp only [method.sizeOf_spec]
    rcases List.mem_append.1 h with ho | hes
    · have hle := sizeOf_le_of_mem_owners ho
      omega
    · have hlt := List.sizeOf_lt_of_mem hes
      omega
  | new className es fields =>
    simp only [new.sizeOf_spec]
    rcases List.mem_append.1 h with hes | hfields
    · have hlt := List.sizeOf_lt_of_mem hes
      omega
    · obtain ⟨⟨name, e⟩, hfield, rfl⟩ := List.mem_map.1 hfields
      have hlt := List.sizeOf_lt_of_mem hfield
      simp only [Prod.mk.sizeOf_spec] at hlt
      dsimp only
      omega
  | array es | element name es | call name es =>
    have hlt : sizeOf e' < sizeOf es := List.sizeOf_lt_of_mem h
    simp only [array.sizeOf_spec, element.sizeOf_spec, call.sizeOf_spec]
    omega
  | conditional c t f =>
    simp only [parts, List.mem_cons, List.not_mem_nil, or_false] at h
    simp only [conditional.sizeOf_spec]
    rcases h with rfl | rfl | rfl <;> omega
  | binary op l r =>
    simp only [parts, List.mem_cons, List.not_mem_nil, or_false] at h
    simp only [binary.sizeOf_spec]
    rcases h with rfl | rfl <;> omega
  | member e name | unary op e | typeOf e typeName | await e | cast kind e typeName =>
    obtain rfl := List.mem_singleton.1 h
    simp only [member.sizeOf_spec, unary.sizeOf_spec, typeOf.sizeOf_spec, await.sizeOf_spec,
      cast.sizeOf_spec]
    omega
  | _ => cases h

end Expr

theorem CaseCondition.sizeOf_lt_of_mem_exprs {c : CaseCondition} {e : Expr} (h : e ∈ c.exprs) :
    sizeOf e < sizeOf c := by
  cases c with
  | value e | is op e =>
    obtain rfl := List.mem_singleton.1 h
    simp only [value.sizeOf_spec, is.sizeOf_spec]
    omega
  | range low high =>
    simp only [exprs, List.mem_cons, List.not_mem_nil, or_false] at h
    simp only [range.sizeOf_spec]
    rcases h with rfl | rfl <;> omega

theorem sizeOf_lt_of_mem_toList {α : Type} [SizeOf α] {o : Option α} {a : α} (h : a ∈ o.toList) :
    sizeOf a < sizeOf o := by
  cases o with
  | none => cases h
  | some b =>
    obtain rfl := List.mem_singleton.1 h
    simp only [Option.some.sizeOf_spec]
    omega

theorem sizeOf_getD_nil_le {α : Type} [SizeOf α] (o : Option (List α)) :
    sizeOf (o.getD []) ≤ sizeOf o := by
  cases o with
  | none => exact Nat.le_refl _
  | some l =>
    simp only [Option.some.sizeOf_spec, Option.getD_some]
    omega

theorem LoopCondition.sizeOf_condition_lt (c : LoopCondition) :
    sizeOf c.condition < sizeOf c := by
  cases c
  simp only [mk.sizeOf_spec]
  omega

theorem ElseIfOf.sizeOf_add_lt (c : ElseIf) : sizeOf c.condition + sizeOf c.body < sizeOf c := by
  cases c
  simp only [mk.sizeOf_spec]
  omega

theorem CaseClauseOf.sizeOf_add_lt (c : CaseClause) :
    sizeOf c.conditions + sizeOf c.body < sizeOf c := by
  cases c
  simp only [mk.sizeOf_spec]
  omega

theorem CatchClauseOf.sizeOf_add_lt (c : CatchClause) :
    sizeOf c.filter + sizeOf c.body < sizeOf c := by
  cases c
  simp only [mk.sizeOf_spec]
  omega

namespace Stmt

theorem one_le_sizeOf (s : Stmt) : 1 ≤ sizeOf s := by
  cases s <;> simp <;> omega

/-- The expressions that a step of execution evaluates are smaller than the statement. -/
theorem sizeOf_lt_of_mem_exprs {s : Stmt} {e : Expr} (h : e ∈ s.exprs) : sizeOf e < sizeOf s := by
  cases s with
  | compound target op e =>
    simp only [compound.sizeOf_spec]
    rcases List.mem_cons.1 h with rfl | h
    · omega
    · rcases List.mem_cons.1 h with rfl | h
      · omega
      · have hlt := Expr.sizeOf_lt_of_mem_parts h
        omega
  | addHandler remove event handler =>
    simp only [addHandler.sizeOf_spec]
    rcases List.mem_cons.1 h with rfl | h
    · omega
    · have hlt := Expr.sizeOf_lt_of_mem_parts h
      omega
  | select test cases otherwise =>
    simp only [select.sizeOf_spec]
    rcases List.mem_cons.1 h with rfl | h
    · omega
    · obtain ⟨c, hc, h⟩ := List.mem_flatMap.1 h
      obtain ⟨condition, hcondition, he⟩ := List.mem_flatMap.1 h
      have hcase := List.sizeOf_lt_of_mem hc
      have hclause := c.sizeOf_add_lt
      have hlist := List.sizeOf_lt_of_mem hcondition
      have hlt := CaseCondition.sizeOf_lt_of_mem_exprs he
      omega
  | dim name typeName bs initializer =>
    simp only [dim.sizeOf_spec]
    rcases List.mem_append.1 h with h | h
    · have hlt := List.sizeOf_lt_of_mem h
      omega
    · have hlt := sizeOf_lt_of_mem_toList h
      omega
  | memberAssign o member e =>
    simp only [exprs, List.mem_cons, List.not_mem_nil, or_false] at h
    simp only [memberAssign.sizeOf_spec]
    rcases h with rfl | rfl <;> omega
  | elementAssign name es e =>
    simp only [elementAssign.sizeOf_spec]
    rcases List.mem_cons.1 h with rfl | h
    · omega
    · have hlt := List.sizeOf_lt_of_mem h
      omega
  | ifThen condition whenTrue elseIfs whenFalse =>
    simp only [ifThen.sizeOf_spec]
    rcases List.mem_cons.1 h with rfl | h
    · omega
    · obtain ⟨c, hc, rfl⟩ := List.mem_map.1 h
      have hlt := List.sizeOf_lt_of_mem hc
      have hclause := c.sizeOf_add_lt
      omega
  | forTo name start stop step body =>
    simp only [forTo.sizeOf_spec]
    rcases List.mem_cons.1 h with rfl | h
    · omega
    · rcases List.mem_cons.1 h with rfl | h
      · omega
      · have hlt := sizeOf_lt_of_mem_toList h
        omega
  | doLoop pre post body =>
    have hcondition : ∀ o : Option LoopCondition, e ∈ o.toList.map (·.condition) →
        sizeOf e < sizeOf o := by
      intro o ho
      obtain ⟨c, hc, rfl⟩ := List.mem_map.1 ho
      exact Nat.lt_trans c.sizeOf_condition_lt (sizeOf_lt_of_mem_toList hc)
    simp only [doLoop.sizeOf_spec]
    rcases List.mem_append.1 h with h | h
    · have hlt := hcondition pre h
      omega
    · have hlt := hcondition post h
      omega
  | expression value =>
    obtain rfl := List.mem_singleton.1 h
    cases value with
    | none => decide
    | some e =>
      simp only [expression.sizeOf_spec, Option.some.sizeOf_spec, Option.getD_some]
      omega
  | tryCatch body cs cleanup =>
    obtain ⟨c, hc, hfilter⟩ := List.mem_filterMap.1 h
    have hlt := List.sizeOf_lt_of_mem hc
    have hclause := c.sizeOf_add_lt
    have hmem := sizeOf_lt_of_mem_toList (Option.mem_toList.2 hfilter)
    simp only [tryCatch.sizeOf_spec]
    omega
  | returnValue value | throwValue value =>
    have hlt := sizeOf_lt_of_mem_toList (show e ∈ value.toList from h)
    simp only [returnValue.sizeOf_spec, throwValue.sizeOf_spec]
    omega
  | reDim name preserve es | raiseEvent name es =>
    have hlt := List.sizeOf_lt_of_mem (show e ∈ es from h)
    simp only [reDim.sizeOf_spec, raiseEvent.sizeOf_spec]
    omega
  | const name e | assign name e | setAssign name e | forEach name e body | whileLoop e body
  | withBlock e body | call e =>
    obtain rfl := List.mem_singleton.1 h
    simp only [const.sizeOf_spec, assign.sizeOf_spec, setAssign.sizeOf_spec, forEach.sizeOf_spec,
      whileLoop.sizeOf_spec, withBlock.sizeOf_spec, call.sizeOf_spec]
    omega
  | exitBlock kind | continueLoop kind => cases h

/-- The blocks of a statement are smaller than the statement. -/
theorem sizeOf_lt_of_mem_blocks {s : Stmt} {b : List Stmt} (h : b ∈ s.blocks) :
    sizeOf b < sizeOf s := by
  cases s with
  | ifThen condition whenTrue elseIfs whenFalse =>
    simp only [ifThen.sizeOf_spec]
    rcases List.mem_cons.1 h with rfl | h
    · omega
    rcases List.mem_cons.1 h with rfl | h
    · have hlt := sizeOf_getD_nil_le whenFalse
      omega
    · obtain ⟨c, hc, rfl⟩ := List.mem_map.1 h
      have hlt := List.sizeOf_lt_of_mem hc
      have hclause := c.sizeOf_add_lt
      omega
  | select test cases otherwise =>
    simp only [select.sizeOf_spec]
    rcases List.mem_cons.1 h with rfl | h
    · have hlt := sizeOf_getD_nil_le otherwise
      omega
    · obtain ⟨c, hc, rfl⟩ := List.mem_map.1 h
      have hlt := List.sizeOf_lt_of_mem hc
      have hclause := c.sizeOf_add_lt
      omega
  | tryCatch body cs cleanup =>
    simp only [tryCatch.sizeOf_spec]
    rcases List.mem_cons.1 h with rfl | h
    · omega
    rcases List.mem_cons.1 h with rfl | h
    · have hlt := sizeOf_getD_nil_le cleanup
      omega
    · obtain ⟨c, hc, rfl⟩ := List.mem_map.1 h
      have hlt := List.sizeOf_lt_of_mem hc
      have hclause := c.sizeOf_add_lt
      omega
  | forTo name start stop step body | forEach name collection body | whileLoop condition body
  | doLoop pre post body | withBlock e body =>
    obtain rfl := List.mem_singleton.1 h
    simp only [forTo.sizeOf_spec, forEach.sizeOf_spec, whileLoop.sizeOf_spec, doLoop.sizeOf_spec,
      withBlock.sizeOf_spec]
    omega
  | _ => cases h

end Stmt

/-! ### What is declared is bounded -/

/-- A measure of the entries of a table is bounded. -/
theorem Table.exists_bound {α : Type} (t : Table α) (measure : String → α → Nat) :
    ∃ N, ∀ key a, t.find? key = some a → measure key a ≤ N := by
  obtain ⟨entries⟩ := t
  induction entries with
  | nil => exact ⟨0, nofun⟩
  | cons entry entries ih =>
    obtain ⟨N, hN⟩ := ih
    refine ⟨max (measure entry.1 entry.2) N, fun key a hfind => ?_⟩
    simp only [find?, findIn] at hfind
    split at hfind
    · next hkey =>
      cases hfind
      rw [← eq_of_beq hkey]
      exact Nat.le_max_left _ _
    · exact Nat.le_trans (hN key a hfind) (Nat.le_max_right _ _)

theorem sizeOf_lt_of_default {p : Parameter} {e : Expr} (h : p.default = some e) :
    sizeOf e < sizeOf p := by
  obtain ⟨name, typeName, byRef, optional, default, paramArray⟩ := p
  obtain rfl : default = some e := h
  simp only [ParameterOf.mk.sizeOf_spec, Option.some.sizeOf_spec]
  omega

theorem Callable.sizeOf_lt_of_mem_defaults {c : Callable} {e : Expr} (h : e ∈ c.defaults) :
    sizeOf e < sizeOf c.parameters := by
  obtain ⟨p, hp, he⟩ := List.mem_filterMap.1 h
  exact Nat.lt_trans (sizeOf_lt_of_default he) (List.sizeOf_lt_of_mem hp)

/-- A bound for the parameters and the body of a callable. -/
structure Callable.SizeAtMost (M : Nat) (c : Callable) : Prop where
  parameters : ∀ e ∈ c.defaults, sizeOf e ≤ M
  body : ∀ s ∈ c.body, sizeOf s ≤ M

namespace Callable

variable {M : Nat}

theorem sizeAtMost_ofProcedure {p : Procedure} (h : sizeOf p ≤ M) (moduleName : String) :
    (ofProcedure p moduleName).SizeAtMost M where
  parameters e he := by
    have hlt := sizeOf_lt_of_mem_defaults he
    obtain ⟨kind, name, parameters, returnType, body, handles, shared⟩ := p
    simp only [Procedure.mk.sizeOf_spec] at h
    simp only [ofProcedure] at hlt
    omega
  body s hs := by
    have hlt := List.sizeOf_lt_of_mem hs
    obtain ⟨kind, name, parameters, returnType, body, handles, shared⟩ := p
    simp only [Procedure.mk.sizeOf_spec] at h
    simp only [ofProcedure] at hlt
    omega

theorem sizeAtMost_getter {p : PropertyDecl} (h : sizeOf p ≤ M) (moduleName : String) :
    (getter p moduleName).SizeAtMost M where
  parameters e he := by
    have hlt := sizeOf_lt_of_mem_defaults he
    obtain ⟨name, typeName, parameters, get, setterParam, set, readOnly⟩ := p
    simp only [PropertyDecl.mk.sizeOf_spec] at h
    simp only [getter] at hlt
    omega
  body s hs := by
    have hlt := List.sizeOf_lt_of_mem hs
    obtain ⟨name, typeName, parameters, get, setterParam, set, readOnly⟩ := p
    simp only [PropertyDecl.mk.sizeOf_spec] at h
    have hle := sizeOf_getD_nil_le get
    simp only [getter] at hlt
    omega

theorem sizeAtMost_setter {p : PropertyDecl} (h : sizeOf p ≤ M) (moduleName : String) :
    (setter p moduleName).SizeAtMost M where
  parameters e he := by
    obtain ⟨q, hq, hdefault⟩ := List.mem_filterMap.1 he
    have hlt := sizeOf_lt_of_default hdefault
    obtain ⟨name, typeName, parameters, get, setterParam, set, readOnly⟩ := p
    simp only [PropertyDecl.mk.sizeOf_spec] at h
    rcases List.mem_append.1 hq with hq | hq
    · have hmem := List.sizeOf_lt_of_mem hq
      dsimp only at hmem
      omega
    · -- the last parameter is the one that is written, or one without a default
      obtain rfl := List.mem_singleton.1 hq
      cases setterParam with
      | none => cases hdefault
      | some p =>
        simp only [Option.some.sizeOf_spec] at h
        dsimp only [Option.getD_some] at hlt
        omega
  body s hs := by
    have hlt := List.sizeOf_lt_of_mem hs
    obtain ⟨name, typeName, parameters, get, setterParam, set, readOnly⟩ := p
    simp only [PropertyDecl.mk.sizeOf_spec] at h
    have hle := sizeOf_getD_nil_le set
    simp only [setter] at hlt
    omega

end Callable

theorem VariableDecl.sizeOf_lt_of_mem_exprs {f : VariableDecl} {e : Expr} (h : e ∈ f.exprs) :
    sizeOf e < sizeOf f := by
  obtain ⟨name, typeName, bs, initializer⟩ := f
  simp only [VariableDecl.mk.sizeOf_spec]
  rcases List.mem_append.1 h with h | h
  · have hlt := List.sizeOf_lt_of_mem h
    dsimp only at hlt
    omega
  · have hlt := sizeOf_lt_of_mem_toList h
    dsimp only at hlt
    omega

/-! ### Loops and layers -/

/-- A statement without loops, neither itself nor in its blocks. -/
inductive Stmt.LoopFree : Stmt → Prop
  | intro {s : Stmt} (hloop : s.isLoop = false) (hblocks : ∀ b ∈ s.blocks, ∀ t ∈ b, LoopFree t) :
    LoopFree s

theorem Stmt.LoopFree.isLoop_eq_false {s : Stmt} (h : s.LoopFree) : s.isLoop = false := by
  cases h with
  | intro hloop _ => exact hloop

theorem Stmt.LoopFree.of_mem_blocks {s t : Stmt} (h : s.LoopFree) {b : List Stmt}
    (hb : b ∈ s.blocks) (ht : t ∈ b) : t.LoopFree := by
  cases h with
  | intro _ hblocks => exact hblocks b hb t ht

/-- The classes of which evaluating an expression may build an instance itself: those that it or one
of its parts names. -/
inductive Expr.Builds : Expr → String → Prop
  | own {e : Expr} {name : String} (h : name ∈ e.classes) : Builds e name
  | part {e e' : Expr} {name : String} (h : e' ∈ e.parts) (hname : Builds e' name) : Builds e name

namespace State

/-- An expression that a class or one of its bases sets a field to. -/
def Initializes (s : State) (className : String) (e : Expr) : Prop :=
  ∃ c, s.class? className = some c ∧
    ∃ c' ∈ s.classTable.chain c.name, ∃ f ∈ c'.fields, e ∈ f.exprs

/-- The declared callables have no loops. -/
def LoopFree (s : State) : Prop := ∀ c, s.Declares c → ∀ stmt ∈ c.body, stmt.LoopFree

/-- An expression only builds instances of declared classes below a rank. -/
def BuildsBelow (s : State) (rank : String → Nat) (r : Nat) (e : Expr) : Prop :=
  ∀ name, e.Builds name → (s.class? name).isSome = true → rank (Text.lower name) < r

/-- The field initializers of a class only build instances of classes that have a lower rank. -/
def LayeredBy (s : State) (rank : String → Nat) : Prop :=
  ∀ className e, s.Initializes className e → s.BuildsBelow rank (rank (Text.lower className)) e

/-- The classes have ranks by which they are layered. -/
def Layered (s : State) : Prop := ∃ rank, s.LayeredBy rank

/-- Bounds for the sizes of what is declared, and for the ranks of the classes. -/
structure Fits (s : State) (rank : String → Nat) (M R : Nat) : Prop where
  callable : ∀ c, s.Declares c → c.SizeAtMost M
  initializer : ∀ className e, s.Initializes className e → sizeOf e ≤ M
  rank : ∀ name, (s.class? name).isSome = true → rank (Text.lower name) < R

theorem exists_fits (s : State) (rank : String → Nat) : ∃ M R, s.Fits rank M R := by
  obtain ⟨P, hP⟩ := s.procedures.exists_bound fun _ p => sizeOf p.decl
  obtain ⟨Q, hQ⟩ := s.properties.exists_bound fun _ p => sizeOf p
  obtain ⟨N, hN⟩ := Table.exists_bound s.classes fun _ c =>
    sizeOf c.fields + sizeOf c.methods + sizeOf c.properties
  obtain ⟨R, hR⟩ := Table.exists_bound s.classes fun key _ => rank key
  refine ⟨P + Q + N, R + 1, fun c hc => ?_, fun className e he => ?_, fun name hname => ?_⟩
  · cases hc with
    | procedure h =>
      have hle := hP _ _ h
      exact Callable.sizeAtMost_ofProcedure (by omega) _
    | moduleGetter h =>
      have hle := hQ _ _ h
      exact Callable.sizeAtMost_getter (by omega) _
    | moduleSetter h =>
      have hle := hQ _ _ h
      exact Callable.sizeAtMost_setter (by omega) _
    | method h hm =>
      have hle := hN _ _ h
      have hlt := List.sizeOf_lt_of_mem hm
      exact Callable.sizeAtMost_ofProcedure (by omega) _
    | getter h hp =>
      have hle := hN _ _ h
      have hlt := List.sizeOf_lt_of_mem hp
      exact Callable.sizeAtMost_getter (by omega) _
    | setter h hp =>
      have hle := hN _ _ h
      have hlt := List.sizeOf_lt_of_mem hp
      exact Callable.sizeAtMost_setter (by omega) _
  · obtain ⟨c, -, c', hc', f, hf, hmem⟩ := he
    obtain ⟨key, hkey⟩ := ClassTable.exists_find?_of_mem_chain hc'
    have hle := hN _ _ hkey
    have hlt := List.sizeOf_lt_of_mem hf
    have hlt' := VariableDecl.sizeOf_lt_of_mem_exprs hmem
    omega
  · obtain ⟨c, hc⟩ := Option.isSome_iff_exists.1 hname
    exact Nat.lt_succ_of_le (hR _ _ hc)

variable {s t : State}

theorem classTable_of_declarations (h : t.declarations = s.declarations) :
    t.classTable = s.classTable :=
  congrArg Declarations.classes h

theorem class?_of_declarations (h : t.declarations = s.declarations) (name : String) :
    t.class? name = s.class? name :=
  congrArg (ClassTable.class? · name) (classTable_of_declarations h)

/-- What has been declared decides which callables there are. -/
theorem declares_of_declarations (h : t.declarations = s.declarations) {c : Callable}
    (hc : t.Declares c) : s.Declares c := by
  have hprocedures : t.procedures = s.procedures := congrArg Declarations.procedures h
  have hproperties : t.properties = s.properties := congrArg Declarations.properties h
  have hclasses : t.classes = s.classes := congrArg Declarations.classes h
  cases hc with
  | procedure h => exact .procedure (hprocedures ▸ h)
  | moduleGetter h => exact .moduleGetter (hproperties ▸ h) _
  | moduleSetter h => exact .moduleSetter (hproperties ▸ h) _
  | method h hm => exact .method (hclasses ▸ h) hm
  | getter h hp => exact .getter (hclasses ▸ h) hp
  | setter h hp => exact .setter (hclasses ▸ h) hp

end State

end FormBasic
