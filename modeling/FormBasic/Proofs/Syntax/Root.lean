import FormBasic.Syntax.Decoder

/-!
# The roots of a program

A program may be written as a list of its nodes, as a mapping that lists its declarations and its
statements apart, or, if it has one node only, as that node. In a list, the type of a node says
whether it is decoded as a declaration, as an expression that stands for a statement, or as a
statement; in a mapping it is the list that says so, and the statement decoder tells expressions
apart for itself. The two agree, because a declaration is decoded from the nodes of nine types only,
a statement from none of them, and no type of an expression is one of another statement.

## Main definitions

* `Decode.isDeclaration` — the nodes that declare something
* `Decode.rootOf` — the mapping that lists declarations and statements

## Main results

* `Decode.isDeclaration_of_decl`, `Decode.not_isDeclaration_of_stmt` — what the nodes of a list are
* `Decode.stmtNode_of_expressionType` — the statement decoder takes an expression for one
* `Decode.decode?_list_iff`, `Decode.decode?_rootOf_iff` — the programs of a list and of a mapping
* `Decode.roots_agree` — the three forms
-/

namespace FormBasic.Decode

/-! ### Sequences of parts -/

section
variable {α β γ : Type}

theorem map_ok_iff {x : Decode α} {f : α → β} {b : β} :
    f <$> x = .ok b ↔ ∃ a, x = .ok a ∧ f a = b := by
  cases x with
  | error e => exact iff_of_false nofun nofun
  | ok a =>
    exact ⟨fun h => ⟨a, rfl, Except.ok.inj h⟩, fun ⟨a', h, hb⟩ => by cases h; rw [← hb]; rfl⟩

theorem bind_ok_iff {x : Decode α} {f : α → Decode β} {b : β} :
    x >>= f = .ok b ↔ ∃ a, x = .ok a ∧ f a = .ok b := by
  cases x with
  | error e => exact iff_of_false nofun nofun
  | ok a => exact ⟨fun h => ⟨a, rfl, h⟩, fun ⟨a', h, hb⟩ => by cases h; exact hb⟩

theorem bind_ok (a : α) (f : α → Decode β) : Except.ok a >>= f = f a := rfl

theorem mapM_cons_ok_iff {f : α → Decode β} {a : α} {as : List α} {out : List β} :
    (a :: as).mapM f = .ok out ↔
      ∃ b bs, f a = .ok b ∧ as.mapM f = .ok bs ∧ out = b :: bs := by
  rw [List.mapM_cons, bind_ok_iff]
  refine ⟨fun ⟨b, hb, h⟩ => ?_, fun ⟨b, bs, hb, hbs, hout⟩ => ⟨b, hb, ?_⟩⟩
  · obtain ⟨bs, hbs, hout⟩ := bind_ok_iff.1 h
    exact ⟨b, bs, hb, hbs, (Except.ok.inj hout).symm⟩
  · rw [hbs, hout]
    rfl

theorem exists_of_mapM {f : α → Decode β} {as : List α} {out : List β}
    (h : as.mapM f = .ok out) : ∀ a ∈ as, ∃ b, f a = .ok b := by
  induction as generalizing out with
  | nil => exact nofun
  | cons a as ih =>
    obtain ⟨b, bs, hb, hbs, -⟩ := mapM_cons_ok_iff.1 h
    rintro a' (_ | ⟨_, ha'⟩)
    · exact ⟨b, hb⟩
    · exact ih hbs a' ha'

end

/-! ### Declarations and statements -/

/-- Whether a node declares something. -/
def isDeclaration (t : Tree) : Bool :=
  match t.field? "type" with
  | some (.text type) => declarationTypes.contains type
  | _ => false

theorem exists_height (t : Tree) : ∃ n, t.height = n + 1 := by
  cases t <;> exact ⟨_, rfl⟩

section
variable {expr : Tree → Decode Expr} {stmt : Tree → Decode Stmt} {decl : Tree → Decode Decl}
  {m : Tree} {type : String}

/-- No other type than those of declarations is one. -/
theorem declNode_of_not_mem (htype : typeOf m = .ok type) (h : type ∉ declarationTypes) :
    declNode expr stmt decl m = .error (.unknownDeclaration type) := by
  unfold declNode
  rw [htype, bind_ok]
  split
  case h_10 => rfl
  all_goals exact absurd (by decide) h

/-- The type of a declaration is none of a statement. -/
theorem stmtNode_of_mem (htype : typeOf m = .ok type) (h : type ∈ declarationTypes) :
    stmtNode expr stmt m = .error (.unknownStatement type) := by
  unfold stmtNode
  rw [htype]
  simp only [declarationTypes, List.mem_cons, List.not_mem_nil, or_false] at h
  rcases h with rfl | rfl | rfl | rfl | rfl | rfl | rfl | rfl | rfl <;> rfl

/-- The type of an expression is none of another statement, so that the statement decoder takes the
node for the expression that it is. -/
theorem stmtNode_of_expressionType (htype : typeOf m = .ok type) (h : type ∈ expressionTypes) :
    stmtNode expr stmt m = (fun e => .expression (some e)) <$> exprNode expr stmt m := by
  unfold stmtNode
  rw [htype]
  simp only [expressionTypes, List.mem_cons, List.not_mem_nil, or_false] at h
  rcases h with rfl | rfl | rfl | rfl | rfl | rfl | rfl | rfl | rfl | rfl | rfl | rfl | rfl | rfl |
    rfl | rfl | rfl | rfl | rfl | rfl | rfl | rfl | rfl | rfl | rfl <;> rfl

end

variable {t : Tree} {type : String}

theorem eq_of_node {m : Tree} (h : node t = .ok m) : m = t := by
  unfold node at h
  split at h
  · exact (Except.ok.inj h).symm
  · cases h

theorem typeOf_ok_iff : typeOf t = .ok type ↔ t.field? "type" = some (.text type) ∧ type ≠ "" := by
  unfold typeOf fieldOf
  cases t.field? "type" with
  | none => exact iff_of_false nofun nofun
  | some field =>
    rw [Option.getD_some]
    cases field with
    | text s =>
      rw [Option.some.injEq, Tree.text.injEq]
      dsimp only
      split
      · next hs => exact iff_of_false nofun fun h => h.2 (h.1 ▸ eq_of_beq hs)
      · next hs =>
        rw [Except.ok.injEq]
        exact ⟨fun h => ⟨h, fun he => hs (beq_iff_eq.2 (h.trans he))⟩, And.left⟩
    | _ => exact iff_of_false nofun nofun

theorem isDeclaration_of_typeOf (h : typeOf t = .ok type) :
    isDeclaration t = declarationTypes.contains type := by
  rw [isDeclaration, (typeOf_ok_iff.1 h).1]

theorem exists_typeOf (h : isDeclaration t = true) : ∃ type, typeOf t = .ok type := by
  unfold isDeclaration at h
  split at h
  · next type hfield =>
    refine ⟨type, typeOf_ok_iff.2 ⟨hfield, ?_⟩⟩
    rintro rfl
    exact absurd h (by decide)
  · cases h

/-- A declaration comes from a node that declares something. -/
theorem isDeclaration_of_decl {fuel : Nat} {d : Decl} (h : decl fuel t = .ok d) :
    isDeclaration t = true := by
  cases fuel with
  | zero => cases h
  | succ fuel =>
    rw [decl, bind_ok_iff] at h
    obtain ⟨m, hm, hd⟩ := h
    obtain rfl := eq_of_node hm
    obtain ⟨type, htype, -⟩ := bind_ok_iff.1 hd
    rw [isDeclaration_of_typeOf htype]
    refine List.contains_iff_mem.2 (Decidable.byContradiction fun hmem => ?_)
    rw [declNode_of_not_mem htype hmem] at hd
    cases hd

/-- A statement comes from a node that declares nothing. -/
theorem not_isDeclaration_of_stmt {fuel : Nat} {s : Stmt} (h : stmt fuel t = .ok s) :
    isDeclaration t = false := by
  cases fuel with
  | zero => cases h
  | succ fuel =>
    rw [stmt, bind_ok_iff] at h
    obtain ⟨m, hm, hs⟩ := h
    obtain rfl := eq_of_node hm
    obtain ⟨type, htype, -⟩ := bind_ok_iff.1 hs
    rw [isDeclaration_of_typeOf htype, Bool.eq_false_iff]
    intro hmem
    rw [stmtNode_of_mem htype (List.contains_iff_mem.1 hmem)] at hs
    cases hs

/-- In a list, a node that declares something is decoded as a declaration. -/
theorem declOrStmt_of_isDeclaration (h : isDeclaration t = true) :
    declOrStmt t = Sum.inl <$> decl t.height t := by
  obtain ⟨type, htype⟩ := exists_typeOf h
  cases t with
  | mapping fields =>
    rw [isDeclaration_of_typeOf htype] at h
    simp only [declOrStmt, node, bind_ok, htype, h, if_true]
    rfl
  | _ => cases h

/-- In a list, every other node is decoded as a statement. -/
theorem declOrStmt_of_not_isDeclaration (h : isDeclaration t = false) :
    declOrStmt t = Sum.inr <$> stmt t.height t := by
  cases t with
  | mapping fields =>
    cases htype : typeOf (.mapping fields) with
    | error e =>
      obtain ⟨n, hn⟩ := exists_height (.mapping fields)
      rw [hn, stmt]
      simp only [declOrStmt, node, bind_ok, stmtNode, htype]
      rfl
    | ok type =>
      rw [isDeclaration_of_typeOf htype] at h
      simp only [declOrStmt, node, bind_ok, htype, h, Bool.false_eq_true, if_false]
      split
      · next hexpr =>
        -- the expression decoder and the statement decoder both look at this node
        obtain ⟨n, hn⟩ := exists_height (.mapping fields)
        rw [hn, expr, stmt, node, bind_ok, bind_ok,
          stmtNode_of_expressionType htype (List.contains_iff_mem.1 hexpr)]
        cases exprNode (expr n) (stmt n) (.mapping fields) <;> rfl
      · rfl
  | _ => rfl

/-! ### Roots -/

/-- The mapping that lists declarations and statements. -/
def rootOf (declarations statements : List Tree) : Tree :=
  .mapping [("declarations", .list declarations), ("statements", .list statements)]

/-- The declarations of a list of nodes. -/
def declarationsOf (ts : List Tree) : Decode (List Decl) := ts.mapM fun t => decl t.height t

/-- The statements of a list of nodes. -/
def statementsOf (ts : List Tree) : Decode (List Stmt) := ts.mapM fun t => stmt t.height t

/-- A mapping of declarations and statements is a program if all of them can be decoded as such. -/
theorem decode?_rootOf_iff {ds ss : List Tree} {p : Program} :
    Program.decode? (rootOf ds ss) = .ok p ↔
      declarationsOf ds = .ok p.declarations ∧ statementsOf ss = .ok p.statements := by
  have hroot : Program.decode? (rootOf ds ss) = (do
      let declarations ← declarationsOf ds
      let statements ← statementsOf ss
      return { declarations, statements }) := rfl
  rw [hroot, bind_ok_iff]
  constructor
  · rintro ⟨declarations, hd, h⟩
    obtain ⟨statements, hs, h⟩ := bind_ok_iff.1 h
    obtain rfl := Except.ok.inj h
    exact ⟨hd, hs⟩
  · rintro ⟨hd, hs⟩
    exact ⟨p.declarations, hd, bind_ok_iff.2 ⟨p.statements, hs, rfl⟩⟩

theorem ofNodes_declaration (d : Decl) (nodes : List (Decl ⊕ Stmt)) :
    ofNodes (.inl d :: nodes) =
      { ofNodes nodes with declarations := d :: (ofNodes nodes).declarations } := rfl

theorem ofNodes_statement (s : Stmt) (nodes : List (Decl ⊕ Stmt)) :
    ofNodes (.inr s :: nodes) =
      { ofNodes nodes with statements := s :: (ofNodes nodes).statements } := rfl

/-- Nodes in a list are decoded by what they are, each kind in its order. -/
theorem mapM_declOrStmt_iff {ts : List Tree} {p : Program} :
    (∃ nodes, ts.mapM declOrStmt = .ok nodes ∧ ofNodes nodes = p) ↔
      declarationsOf (ts.filter isDeclaration) = .ok p.declarations ∧
        statementsOf (ts.filter (!isDeclaration ·)) = .ok p.statements := by
  induction ts generalizing p with
  | nil =>
    obtain ⟨ds, ss⟩ := p
    constructor
    · rintro ⟨nodes, hnodes, hp⟩
      cases hnodes
      cases hp
      exact ⟨rfl, rfl⟩
    · rintro ⟨hd, hs⟩
      cases hd
      cases hs
      exact ⟨[], rfl, rfl⟩
  | cons t ts ih =>
    cases ht : isDeclaration t with
    | true =>
      have hdecl := declOrStmt_of_isDeclaration ht
      rw [List.filter_cons_of_pos ht, List.filter_cons_of_neg (by simp [ht])]
      constructor
      · rintro ⟨nodes, hnodes, rfl⟩
        obtain ⟨node, rest, hnode, hrest, rfl⟩ := mapM_cons_ok_iff.1 hnodes
        obtain ⟨d, hd, rfl⟩ := map_ok_iff.1 (hdecl ▸ hnode)
        obtain ⟨hds, hss⟩ := ih.1 ⟨rest, hrest, rfl⟩
        exact ⟨mapM_cons_ok_iff.2 ⟨d, _, hd, hds, rfl⟩, hss⟩
      · rintro ⟨hds, hss⟩
        obtain ⟨d, ds, hd, hrest, hp⟩ := mapM_cons_ok_iff.1 hds
        obtain ⟨nodes, hnodes, hof⟩ := (ih (p := ⟨ds, p.statements⟩)).2 ⟨hrest, hss⟩
        refine ⟨.inl d :: nodes,
          mapM_cons_ok_iff.2 ⟨_, _, hdecl.trans (map_ok_iff.2 ⟨d, hd, rfl⟩), hnodes, rfl⟩, ?_⟩
        rw [ofNodes_declaration, hof, ← hp]
    | false =>
      have hstmt := declOrStmt_of_not_isDeclaration ht
      rw [List.filter_cons_of_neg (by simp [ht]), List.filter_cons_of_pos (by simp [ht])]
      constructor
      · rintro ⟨nodes, hnodes, rfl⟩
        obtain ⟨node, rest, hnode, hrest, rfl⟩ := mapM_cons_ok_iff.1 hnodes
        obtain ⟨s, hs, rfl⟩ := map_ok_iff.1 (hstmt ▸ hnode)
        obtain ⟨hds, hss⟩ := ih.1 ⟨rest, hrest, rfl⟩
        exact ⟨hds, mapM_cons_ok_iff.2 ⟨s, _, hs, hss, rfl⟩⟩
      · rintro ⟨hds, hss⟩
        obtain ⟨s, ss, hs, hrest, hp⟩ := mapM_cons_ok_iff.1 hss
        obtain ⟨nodes, hnodes, hof⟩ := (ih (p := ⟨p.declarations, ss⟩)).2 ⟨hds, hrest⟩
        refine ⟨.inr s :: nodes,
          mapM_cons_ok_iff.2 ⟨_, _, hstmt.trans (map_ok_iff.2 ⟨s, hs, rfl⟩), hnodes, rfl⟩, ?_⟩
        rw [ofNodes_statement, hof, ← hp]

/-- A list is a program if its declarations and the rest of it can be decoded as such. -/
theorem decode?_list_iff {ts : List Tree} {p : Program} :
    Program.decode? (.list ts) = .ok p ↔
      declarationsOf (ts.filter isDeclaration) = .ok p.declarations ∧
        statementsOf (ts.filter (!isDeclaration ·)) = .ok p.statements := by
  rw [← mapM_declOrStmt_iff]
  exact map_ok_iff

/-- A node whose type is that of a whole program is neither a declaration nor a statement. -/
theorem ne_program_of_declOrStmt {node : Decl ⊕ Stmt} (htype : typeOf t = .ok type)
    (h : declOrStmt t = .ok node) : type ≠ "Program" := by
  rintro rfl
  have ht : isDeclaration t = false := (isDeclaration_of_typeOf htype).trans (by decide)
  obtain ⟨n, hn⟩ := exists_height t
  rw [declOrStmt_of_not_isDeclaration ht, hn, stmt] at h
  obtain ⟨s, hparts, -⟩ := map_ok_iff.1 h
  obtain ⟨m, hm, hs⟩ := bind_ok_iff.1 hparts
  obtain rfl := eq_of_node hm
  have hunknown : stmtNode (expr n) (stmt n) m = .error (.unknownStatement "Program") := by
    unfold stmtNode
    rw [htype]
    rfl
  rw [hunknown] at hs
  cases hs

/-- A node is decoded on its own as it is in a list. -/
theorem decode?_of_singleton {p : Program} (h : Program.decode? (.list [t]) = .ok p) :
    Program.decode? t = .ok p := by
  obtain ⟨nodes, hnodes, rfl⟩ := map_ok_iff.1 (show ofNodes <$> [t].mapM declOrStmt = .ok p from h)
  obtain ⟨node, rest, hnode, hrest, rfl⟩ := mapM_cons_ok_iff.1 hnodes
  cases hrest
  obtain ⟨m, hm, htyped⟩ := bind_ok_iff.1 hnode
  obtain rfl := eq_of_node hm
  obtain ⟨type, htype, -⟩ := bind_ok_iff.1 htyped
  obtain ⟨hfield, hne⟩ := typeOf_ok_iff.1 htype
  have hprogram := ne_program_of_declOrStmt htype hnode
  cases m with
  | mapping fields =>
    have hroot : fieldOf (.mapping fields) "type" = .text type := by rw [fieldOf, hfield]; rfl
    have hother : (type == "" || type == "Program") = false := by simp [hne, hprogram]
    unfold Program.decode?
    dsimp only
    rw [hroot]
    dsimp only
    rw [hother, if_neg Bool.false_ne_true, hnode]
    rfl
  | _ => cases hm

/-- A program that is written as a list of its nodes can be written as a mapping of its declarations
and its statements, each in their order, and the other way round; and a list of one node as this
node. What a mapping takes for declarations and for statements a list takes for the same. -/
theorem roots_agree :
    (∀ (ts : List Tree) (p : Program), Program.decode? (.list ts) = .ok p ↔
      Program.decode? (rootOf (ts.filter isDeclaration) (ts.filter (!isDeclaration ·))) = .ok p) ∧
    (∀ (t : Tree) (p : Program), Program.decode? (.list [t]) = .ok p → Program.decode? t = .ok p) ∧
    ∀ (ds ss : List Tree) (p : Program), Program.decode? (rootOf ds ss) = .ok p →
      Program.decode? (.list (ds ++ ss)) = .ok p := by
  refine ⟨fun ts p => decode?_list_iff.trans decode?_rootOf_iff.symm,
    fun t p => decode?_of_singleton, fun ds ss p h => ?_⟩
  obtain ⟨hds, hss⟩ := decode?_rootOf_iff.1 h
  have hdeclares : ∀ t ∈ ds, isDeclaration t = true := fun t ht =>
    (exists_of_mapM hds t ht).elim fun _ => isDeclaration_of_decl
  have hstates : ∀ t ∈ ss, isDeclaration t = false := fun t ht =>
    (exists_of_mapM hss t ht).elim fun _ => not_isDeclaration_of_stmt
  have hleft : (ds ++ ss).filter isDeclaration = ds := by
    rw [List.filter_append, List.filter_eq_self.2 hdeclares,
      List.filter_eq_nil_iff.2 fun t ht => by simp [hstates t ht], List.append_nil]
  have hright : (ds ++ ss).filter (!isDeclaration ·) = ss := by
    rw [List.filter_append, List.filter_eq_nil_iff.2 fun t ht => by simp [hdeclares t ht],
      List.filter_eq_self.2 fun t ht => by simp [hstates t ht], List.nil_append]
  rw [decode?_list_iff, hleft, hright]
  exact ⟨hds, hss⟩

/-- An assignment, a declaration and an expression, in a list, in a mapping and on its own. -/
theorem roots_agree_three :
    let assigned := Tree.mapping [("type", .text "SetAssignment"), ("target", .text "x"),
      ("value", .mapping [("type", .text "NothingLiteral")])]
    let declared := Tree.mapping [("type", .text "VariableDecl"), ("name", .text "x")]
    let shown := Tree.mapping [("type", .text "Variable"), ("name", .text "x")]
    let p : Program := {
      declarations := [.variable ⟨"x", "", [], none⟩]
      statements := [.setAssign "x" .nothing, .expression (some (.variable "x"))] }
    Program.decode? (.list [assigned, declared, shown]) = .ok p ∧
      Program.decode? (rootOf [declared] [assigned, shown]) = .ok p ∧
      Program.decode? (.list [declared, assigned, shown]) = .ok p ∧
      Program.decode? shown = .ok { statements := [.expression (some (.variable "x"))] } := by
  intro assigned declared shown p
  have hlist : Program.decode? (.list [assigned, declared, shown]) = .ok p := rfl
  have hroot : Program.decode? (rootOf [declared] [assigned, shown]) = .ok p :=
    (roots_agree.1 _ p).1 hlist
  exact ⟨hlist, hroot, roots_agree.2.2 _ _ p hroot, roots_agree.2.1 shown _ rfl⟩

end FormBasic.Decode
