import FormBasic.Proofs.Machine.MemberAccess

/-!
# Binding sources and their tables

A binding source keeps three fields together: the table that it is bound to, the number of rows of
that table, and the position of the row that it stands on. Only a few operations write them, and all
of these end in `movePosition`, which writes the number and the position and queues one effect.

A *session* of a binding source starts with its construction. Its steps are assignments to
`DataSource` and `Position` and calls of the four moves, with any expressions; what the program does
in between, evaluating these expressions included, spares the fields of the source and the rows of
its table. The data service of the state is any function.

The number of rows is stored as an `Integer`. What depends on this number being right is said of
tables that an `Integer` can count; for a longer one the number wraps around
(`BindingSession.count_of_many_rows_wraps`).

## Main definitions

* `Heap.boundRows` — the rows of the table that a source is bound to
* `State.Shows` — what a program reads from a source: number of rows, position and current row
* `BindingAction`, `BindingSession` — the steps of a session, and the states it reaches

## Main results

* `clampPosition_within` — a clamped position lies within the rows
* `boundRows_of_query` — binding to a query gives a source the rows of the result
* `BindingAction.perform_spec` — one step
* `bindingSource_stands_on_row` — every session
* `BindingSession.count_of_many_rows_wraps` — a table that no `Integer` can count
-/

namespace FormBasic

open Interp

/-! ### Positions -/

/-- A clamped position is `-1` if there are no rows, and that of a row otherwise. -/
theorem clampPosition_within (position : Int) {count : Int} (hcount : 0 ≤ count) :
    (count = 0 ∧ clampPosition position count = -1) ∨
      (0 ≤ clampPosition position count ∧ clampPosition position count < count) := by
  simp only [clampPosition, beq_iff_eq]
  by_cases hnone : count = 0
  · exact .inl ⟨hnone, if_pos hnone⟩
  · rw [if_neg hnone]
    refine .inr ?_
    split
    · omega
    · split <;> omega

/-- A position within the rows stays where it is. -/
theorem clampPosition_clampPosition (position : Int) {count : Int} (hcount : 0 ≤ count) :
    clampPosition (clampPosition position count) count = clampPosition position count := by
  obtain ⟨rfl, -⟩ | ⟨hlow, hhigh⟩ := clampPosition_within position hcount
  · rfl
  · generalize clampPosition position count = p at hlow hhigh
    simp only [clampPosition, beq_iff_eq]
    rw [if_neg (by omega), if_neg (by omega), if_neg (by omega)]

namespace Heap

/-- The rows of the table that a binding source is bound to. -/
def boundRows (h : Heap) (r : ObjectRef) : List Value :=
  ((h.objectField? r "datasource").bind (h.arrayField? · "rows")).getD []

/-- Heaps whose fields differ at most in the columns and rows of tables. -/
def AgreeBesideTables (h h' : Heap) : Prop :=
  ∀ r name, Text.lower name ≠ Text.lower "columns" → Text.lower name ≠ Text.lower "rows" →
    h'.get? r name = h.get? r name

theorem objectField?_of_get? {h : Heap} {r t : ObjectRef} {name : String}
    (hfield : h.get? r name = some (.object t)) : h.objectField? r name = some t := by
  rw [objectField?, hfield]

/-- The rows of a source are known from its table and from the rows of that. -/
theorem boundRows_of_get? {h h' : Heap} {r : ObjectRef}
    (hsource : h'.get? r "datasource" = h.get? r "datasource")
    (hrows : ∀ t, h.objectField? r "datasource" = some t → h'.get? t "rows" = h.get? t "rows") :
    h'.boundRows r = h.boundRows r := by
  have hobject : h'.objectField? r "datasource" = h.objectField? r "datasource" := by
    rw [objectField?, objectField?, hsource]
  rw [boundRows, boundRows, hobject]
  cases ht : h.objectField? r "datasource" with
  | none => rfl
  | some t => rw [Option.bind_some, Option.bind_some, arrayField?, arrayField?, hrows t ht]

theorem boundRows_of_objectField? {h : Heap} {r t : ObjectRef}
    (ht : h.objectField? r "datasource" = some t) :
    h.boundRows r = (h.arrayField? t "rows").getD [] := by
  rw [boundRows, ht, Option.bind_some]

theorem length_tableRows (h : Heap) (t : ObjectRef) :
    (h.tableRows t).length = ((h.arrayField? t "rows").getD []).length := by
  rw [tableRows, List.length_map]

/-- A source stands on the row at its position. -/
theorem currentRow_eq {h : Heap} {r : ObjectRef} {position : Int}
    (hposition : h.intField r "position" = position) :
    currentRow h r =
      if position < 0 then .nothing else (h.boundRows r).getD position.toNat .nothing := by
  rw [currentRow, boundRows, hposition]
  cases (h.objectField? r "datasource").bind (h.arrayField? · "rows") with
  | none => simp
  | some rows => rfl

theorem intField_of_get? {h : Heap} {r : ObjectRef} {name : String} {n : Int32}
    (hfield : h.get? r name = some (.integer n)) : h.intField r name = n.toInt := by
  rw [intField, hfield]
  rfl

end Heap

/-! ### Building tables -/

namespace Interp

theorem newTexts_mapM_apply (rows : List (List String)) (s : State) :
    ∃ vs tags, rows.mapM newTexts s = .ok vs { s with heap := { s.heap with tags } } ∧
      vs.map Heap.cellTexts = rows := by
  induction rows generalizing s with
  | nil => exact ⟨[], s.heap.tags, rfl, rfl⟩
  | cons row rows ih =>
    obtain ⟨vs, tags, hrun, hvs⟩ :=
      ih { s with heap := { s.heap with tags := s.heap.tags + 1 } }
    refine ⟨.array s.heap.tags (row.map .text) :: vs, tags, ?_, ?_⟩
    · rw [List.mapM_cons]
      exact (bind_of_ok _ rfl).trans ((bind_of_ok _ hrun).trans rfl)
    · have hrow : Heap.cellTexts (.array s.heap.tags (row.map .text)) = row := by
        simp [Heap.cellTexts, Function.comp_def, Value.toText]
      rw [List.map_cons, hvs, hrow]

/-- A new table has the rows it is made from. Building it writes no field but its columns and its
rows. -/
theorem newTable_apply (className : String) (table : Data.ResultSet) (s : State) :
    ∃ t heap, newTable className table s = .ok t { s with heap } ∧ heap.tableRows t = table.rows ∧
      s.heap.AgreeBesideTables heap := by
  let t := (s.heap.alloc className).1
  let columns := Value.array s.heap.tags (table.columns.map .text)
  let start : Heap := { (s.heap.alloc className).2 with tags := s.heap.tags + 1 }
  obtain ⟨rows, tags, hrun, hrows⟩ :=
    newTexts_mapM_apply table.rows { s with heap := start.set t "columns" columns }
  refine ⟨t, { (start.set t "columns" columns) with tags := tags + 1 }.set t "rows"
    (.array tags rows), ?_, ?_, ?_⟩
  · exact (bind_of_ok _ rfl).trans <| (bind_of_ok _ rfl).trans <| (bind_of_ok _ rfl).trans <|
      (bind_of_ok _ hrun).trans rfl
  · rw [Heap.tableRows, Heap.arrayField?, Heap.get?_set_self]
    exact hrows
  · intro r name hcolumns hrowsName
    rw [Heap.get?_set_of_ne _ _ _ _ (Ne.symm hrowsName)]
    rw [Heap.get?_tags, Heap.get?_set_of_ne _ _ _ _ (Ne.symm hcolumns), Heap.get?_tags,
      Heap.get?_alloc]

end Interp

/-! ### Single operations -/

/-- The heap after a binding source has been moved. -/
def Heap.moved (h : Heap) (r : ObjectRef) (position count : Int) : Heap :=
  (h.set r "count" (.integer (Int32.ofInt count))).set r "position"
    (.integer (Int32.ofInt position))

/-- The state after a binding source has been moved. -/
def State.moved (s : State) (r : ObjectRef) (position count : Int) : State :=
  { s with
    heap := s.heap.moved r position count
    effects := s.effects.push
      (.positionChanged (((s.heap.moved r position count).nameOf? r).getD r.className)
        position count) }

@[simp] theorem State.heap_moved (s : State) (r : ObjectRef) (position count : Int) :
    (s.moved r position count).heap = s.heap.moved r position count := rfl

@[simp] theorem State.class?_moved (s : State) (r : ObjectRef) (position count : Int)
    (name : String) : (s.moved r position count).class? name = s.class? name := by
  simp only [State.class?, State.classTable, State.moved]

/-- A source is not shadowed by a declared class, and stands at a position among so many rows. The
numbers are right if an `Integer` can count the rows. -/
structure State.StandsAt (s : State) (r : ObjectRef) (position count : Int) : Prop where
  undeclared : s.class? r.className = none
  unshadowed : s.heap.get? r "current" = none
  positionField : s.heap.get? r "position" = some (.integer (Int32.ofInt position))
  countField : s.heap.get? r "count" = some (.integer (Int32.ofInt count))
  within : (s.heap.boundRows r).length ≤ Value.maxInteger →
    count = (s.heap.boundRows r).length ∧ clampPosition position count = position

namespace Heap

/-- A move writes two fields. -/
theorem get?_moved (h : Heap) (r o : ObjectRef) (position count : Int) {name : String}
    (hposition : Text.lower name ≠ Text.lower "position")
    (hcount : Text.lower name ≠ Text.lower "count") :
    (h.moved r position count).get? o name = h.get? o name := by
  rw [moved, get?_set_of_ne _ _ _ _ (Ne.symm hposition), get?_set_of_ne _ _ _ _ (Ne.symm hcount)]

theorem get?_moved_position (h : Heap) (r : ObjectRef) (position count : Int) :
    (h.moved r position count).get? r "position" = some (.integer (Int32.ofInt position)) :=
  get?_set_self _ _ _ _

theorem get?_moved_count (h : Heap) (r : ObjectRef) (position count : Int) :
    (h.moved r position count).get? r "count" = some (.integer (Int32.ofInt count)) := by
  rw [moved, get?_set_of_ne _ _ _ _ (by decide), get?_set_self]

/-- A move leaves the rows alone. -/
theorem boundRows_moved (h : Heap) (r : ObjectRef) (position count : Int) :
    (h.moved r position count).boundRows r = h.boundRows r :=
  boundRows_of_get? (get?_moved _ _ _ _ _ (by decide) (by decide))
    fun t _ => get?_moved _ _ _ _ _ (by decide) (by decide)

end Heap

namespace Interp

variable {s t : State} {r : ObjectRef}

theorem movePosition_apply (r : ObjectRef) (position count : Int) (s : State) :
    movePosition r position count s = .ok () (s.moved r (clampPosition position count) count) :=
  rfl

/-- A query leaves no trace, whatever the data service answers. -/
theorem queryFor_apply (target : ObjectRef) (query : String) (s : State) :
    (∃ e, queryFor target query s = .error e s) ∨
      ∃ table, queryFor target query s = .ok table s := by
  rw [queryFor, get_bind_apply]
  cases s.service with
  | none => exact .inl ⟨_, rfl⟩
  | some service =>
    dsimp only
    generalize ((s.heap.get? target "connectionstring").map Value.toText).getD "" = own
    cases service (if own == "" then s.config.connectionString else own) query with
    | ok table => exact .inr ⟨table, rfl⟩
    | error reason => exact .inl ⟨_, rfl⟩

/-- Finding the table of a data source fails without a trace, or writes no field but the columns
and rows of a new table. -/
theorem tableFor_apply (target : ObjectRef) (v : Value) (s : State) :
    (∃ e, tableFor target v s = .error e s) ∨
      ∃ t heap, tableFor target v s = .ok t { s with heap } ∧
        s.heap.AgreeBesideTables heap := by
  have hbuilt : ∀ table, ∃ t heap, newTable "DataTable" table s = .ok t { s with heap } ∧
      s.heap.AgreeBesideTables heap := by
    intro table
    obtain ⟨t, heap, hrun, -, hkeep⟩ := newTable_apply "DataTable" table s
    exact ⟨t, heap, hrun, hkeep⟩
  have hfound : ∀ t, ∃ t' heap, (pure t : Interp ObjectRef) s = .ok t' { s with heap } ∧
      s.heap.AgreeBesideTables heap :=
    fun t => ⟨t, s.heap, rfl, fun _ _ _ _ => rfl⟩
  unfold tableFor
  split
  · next o =>
    split
    · exact .inr (hfound o)
    · split
      · rw [get_bind_apply]
        cases (s.heap.objectField? o "datasource").filter (·.isDataTable) with
        | none => exact .inr (hbuilt _)
        | some t => exact .inr (hfound t)
      · exact .inl ⟨_, rfl⟩
  · next query =>
    obtain ⟨e, herror⟩ | ⟨table, hok⟩ := queryFor_apply target query s
    · exact .inl ⟨e, bind_of_error _ herror⟩
    · rw [bind_of_ok _ hok]
      exact .inr (hbuilt table)
  · split
    · exact .inr (hbuilt _)
    · exact .inl ⟨_, rfl⟩

/-- A source that has been moved stands where it was moved to. -/
theorem standsAt_moved {count : Int} (position : Int) (hundeclared : s.class? r.className = none)
    (hunshadowed : s.heap.get? r "current" = none)
    (hcount : (s.heap.boundRows r).length ≤ Value.maxInteger →
      count = (s.heap.boundRows r).length) :
    (s.moved r (clampPosition position count) count).StandsAt r
      (clampPosition position count) count where
  undeclared := by rw [State.class?_moved, hundeclared]
  unshadowed := by
    rw [State.heap_moved, Heap.get?_moved _ _ _ _ _ (by decide) (by decide), hunshadowed]
  positionField := by rw [State.heap_moved, Heap.get?_moved_position]
  countField := by rw [State.heap_moved, Heap.get?_moved_count]
  within := by
    rw [State.heap_moved, Heap.boundRows_moved]
    intro hfits
    exact ⟨hcount hfits, clampPosition_clampPosition _ (by rw [hcount hfits]; omega)⟩

end Interp

/-! ### Steps of a session -/

/-- How an operation on a source ends: it fails without a trace, or the source stands at some
position, of which the host is told once. -/
def Repositions (r : ObjectRef) (s : State) : EStateM.Result Halt State α → Prop
  | .error _ s' => s' = s
  | .ok _ s' => ∃ position count, s'.StandsAt r position count ∧
    s'.effects = s.effects.push (.positionChanged (s'.hostName r) position count)

namespace State

variable {s t : State} {r : ObjectRef}

theorem class?_of_heap (s : State) (heap : Heap) (name : String) :
    class? { s with heap } name = s.class? name := rfl

theorem chain_of_undeclared {name : String} (h : s.class? name = none) :
    s.classTable.chain name = [] := by
  have hfind : Table.find? s.classTable (Text.lower name) = none := h
  rw [ClassTable.chain, ClassTable.chainFrom, hfind]
  rfl

theorem propertyOf?_of_undeclared (h : s.class? r.className = none) (member : String) :
    s.propertyOf? r member = none := by
  rw [propertyOf?, ClassTable.property?, chain_of_undeclared h]
  rfl

theorem methodOf?_of_undeclared (h : s.class? r.className = none) (method : String) :
    s.methodOf? r method = none := by
  rw [methodOf?, ClassTable.method?, chain_of_undeclared h]
  rfl

end State

namespace Interp

variable {s : State} {r : ObjectRef} {position count : Int}

theorem repositions_movePosition (target : Int) (hundeclared : s.class? r.className = none)
    (hunshadowed : s.heap.get? r "current" = none)
    (hcount : (s.heap.boundRows r).length ≤ Value.maxInteger →
      count = (s.heap.boundRows r).length) :
    Repositions r s (movePosition r target count s) := by
  rw [movePosition_apply]
  exact ⟨_, _, standsAt_moved target hundeclared hunshadowed hcount, rfl⟩

/-- The number that is stored is the number of rows. -/
theorem intField_count (h : s.StandsAt r position count)
    (hfits : (s.heap.boundRows r).length ≤ Value.maxInteger) :
    s.heap.intField r "count" = (s.heap.boundRows r).length := by
  have hmax : Value.maxInteger = 2 ^ 31 - 1 := by decide
  rw [Heap.intField_of_get? h.countField, (h.within hfits).1,
    Int32.toInt_ofInt_of_le (by omega) (by omega)]

/-- Binding a source to a table moves it to the first row. -/
theorem assignDataSource_apply (hr : r.isBindingSource = true) {v : Value} {t : ObjectRef}
    {heap : Heap} (htable : tableFor r v s = .ok t { s with heap }) :
    assignDataSource r v s =
      movePosition r 0 ((heap.set r "datasource" (.object t)).tableRows t).length
        { s with heap := heap.set r "datasource" (.object t) } := by
  have hset : setField r "datasource" (.object t) { s with heap } =
      .ok () { s with heap := heap.set r "datasource" (.object t) } := rfl
  rw [assignDataSource, bind_of_ok _ htable, if_pos hr, bind_of_ok _ hset, get_bind_apply]

theorem boundRows_set (heap : Heap) (r t : ObjectRef) :
    (heap.set r "datasource" (.object t)).boundRows r =
      ((heap.set r "datasource" (.object t)).arrayField? t "rows").getD [] :=
  Heap.boundRows_of_objectField? (Heap.objectField?_of_get? (Heap.get?_set_self _ _ _ _))

theorem repositions_assignDataSource (hr : r.isBindingSource = true)
    (h : s.StandsAt r position count) (v : Value) :
    Repositions r s (assignDataSource r v s) := by
  obtain ⟨e, herror⟩ | ⟨t, heap, hok, hkeep⟩ := tableFor_apply r v s
  · rw [assignDataSource, bind_of_error _ herror]
    rfl
  · rw [assignDataSource_apply hr hok]
    refine repositions_movePosition (s := { s with heap := heap.set r "datasource" (.object t) })
      0 ?_ ?_ fun _ => ?_
    · exact (State.class?_of_heap _ _ _).trans h.undeclared
    · rw [Heap.get?_set_of_ne _ _ _ _ (by decide), hkeep _ _ (by decide) (by decide),
        h.unshadowed]
    · rw [Heap.length_tableRows, boundRows_set]

/-- A source that is bound to a query has the rows of its result. -/
theorem boundRows_of_query (hr : r.isBindingSource = true) {query : String}
    {table : Data.ResultSet} (hquery : queryFor r query s = .ok table s) :
    ∃ s', assignDataSource r (.text query) s = .ok () s' ∧
      (s'.heap.boundRows r).map Heap.cellTexts = table.rows := by
  obtain ⟨t, heap, hrun, hrows, -⟩ := newTable_apply "DataTable" table s
  have htable : tableFor r (.text query) s = .ok t { s with heap } :=
    (bind_of_ok _ hquery).trans hrun
  refine ⟨_, (assignDataSource_apply hr htable).trans (movePosition_apply _ _ _ _), ?_⟩
  rw [State.heap_moved, Heap.boundRows_moved, boundRows_set, Heap.arrayField?,
    Heap.get?_set_of_ne _ _ _ _ (by decide)]
  exact hrows

/-- Assigning a position moves a source within its rows. -/
theorem repositions_assignPosition (h : s.StandsAt r position count) (v : Value) :
    Repositions r s ((do
      let n ← v.asInteger
      movePosition r n.toInt ((← get).heap.intField r "count") : Interp Unit) s) := by
  cases v.asInteger with
  | error c => rfl
  | ok n =>
    show Repositions r s (movePosition r n.toInt (s.heap.intField r "count") s)
    exact repositions_movePosition _ h.undeclared h.unshadowed (intField_count h)

/-- Of the members that data binding governs, a source has two. -/
theorem exists_of_assignBindingMember (hr : r.isBindingSource = true)
    (h : s.StandsAt r position count) {member : String}
    (hmember : Text.lower member = "datasource" ∨ Text.lower member = "position") (v : Value) :
    ∃ x : Interp Unit, Repositions r s (x s) ∧
      assignBindingMember r member v = do x; return true := by
  unfold assignBindingMember
  obtain hsource | hposition := hmember
  · rw [if_pos (by simpa using hsource)]
    exact ⟨_, repositions_assignDataSource hr h v, rfl⟩
  · rw [if_neg (by simp [hposition]), if_pos (by simp [hposition, hr])]
    exact ⟨_, repositions_assignPosition h v, by simp only [bind_assoc]⟩

end Interp

/-- A method of an instance whose class is not declared is a move, or one that every instance
has. -/
theorem Runner.callObjectMethod_apply {run : Runner} {s t : State} {r : ObjectRef}
    {args : List Value} (method : String) {es : List Expr}
    (hundeclared : s.class? r.className = none) (hargs : run.arguments es s = .ok args t) :
    run.callObjectMethod r method es s =
      (match bindingMethod? t.heap r method with
        | some x => (do x; return .nothing : Interp Value)
        | none => Runner.commonMethod r method args) t := by
  rw [Runner.callObjectMethod, get_bind_apply, State.methodOf?_of_undeclared hundeclared,
    State.propertyOf?_of_undeclared hundeclared]
  dsimp only
  rw [bind_of_ok _ hargs]
  rfl

/-- A member that data binding governs is not assigned in any other way. -/
theorem Runner.assignField_of_binding {run : Runner} {s : State} {r : ObjectRef} {member : String}
    {v : Value} {x : Interp Unit} (hundeclared : s.class? r.className = none)
    (hassign : assignBindingMember r member v = do x; return true) :
    run.assignField r member v s = x s := by
  rw [Runner.assignField, get_bind_apply, State.propertyOf?_of_undeclared hundeclared]
  dsimp only
  rw [hassign, bind_assoc]
  cases hx : x s with
  | ok _ s' =>
    rw [bind_of_ok _ hx]
    rfl
  | error e s' => rw [bind_of_error _ hx]

/-! ### What a program sees -/

/-- What a program reads from a binding source. If an `Integer` can count the rows of its table, the
number is theirs, the position is that of a row or `-1`, and the current row is the one at the
position, or `Nothing` if there is none. -/
structure State.Shows (s : State) (r : ObjectRef) (position count : Int) : Prop where
  readCount : ∀ run : Runner,
    run.readObjectMember r "Count" s = .ok (.integer (Int32.ofInt count)) s
  readPosition : ∀ run : Runner,
    run.readObjectMember r "Position" s = .ok (.integer (Int32.ofInt position)) s
  right : (s.heap.boundRows r).length ≤ Value.maxInteger →
    count = (s.heap.boundRows r).length ∧
    ((count = 0 ∧ position = -1) ∨ (0 ≤ position ∧ position < count)) ∧
    ∀ run : Runner, run.readObjectMember r "Current" s =
      .ok ((s.heap.boundRows r).getD position.toNat .nothing) s

namespace State

variable {s s' : State} {r : ObjectRef} {position count : Int}

/-- The number of rows is right, and the position lies within it. -/
theorem StandsAt.bounds (h : s.StandsAt r position count)
    (hfits : (s.heap.boundRows r).length ≤ Value.maxInteger) :
    count = (s.heap.boundRows r).length ∧
      ((count = 0 ∧ position = -1) ∨ (0 ≤ position ∧ position < count)) := by
  obtain ⟨hcount, hclamp⟩ := h.within hfits
  have hwithin := clampPosition_within position (show 0 ≤ count by omega)
  rw [hclamp] at hwithin
  exact ⟨hcount, hwithin⟩

/-- The number in the field is the position. -/
theorem StandsAt.intField_position (h : s.StandsAt r position count)
    (hfits : (s.heap.boundRows r).length ≤ Value.maxInteger) :
    s.heap.intField r "position" = position := by
  have hmax : Value.maxInteger = 2 ^ 31 - 1 := by decide
  have hbounds := h.bounds hfits
  rw [Heap.intField_of_get? h.positionField,
    Int32.toInt_ofInt_of_le (by omega) (by omega)]

theorem StandsAt.readCurrent (hr : r.isBindingSource = true) (h : s.StandsAt r position count)
    (hfits : (s.heap.boundRows r).length ≤ Value.maxInteger) (run : Runner) :
    run.readObjectMember r "Current" s =
      .ok ((s.heap.boundRows r).getD position.toNat .nothing) s := by
  have hmember : bindingMember? s.heap r "Current" = some (currentRow s.heap r) := by
    rw [bindingMember?, hr, Bool.true_and, if_pos (by decide)]
  have hfield : s.heap.get? r "Current" = none :=
    (s.heap.get?_of_lower r (by decide)).trans h.unshadowed
  have hrow : currentRow s.heap r = (s.heap.boundRows r).getD position.toNat .nothing := by
    have hbounds := h.bounds hfits
    rw [Heap.currentRow_eq (h.intField_position hfits)]
    split
    · rw [List.getD_eq_getElem?_getD, List.getElem?_eq_none (by omega), Option.getD_none]
    · rfl
  rw [Runner.readObjectMember, get_bind_apply, propertyOf?_of_undeclared h.undeclared]
  dsimp only
  rw [hfield, methodOf?_of_undeclared h.undeclared, hmember, hrow]
  rfl

theorem StandsAt.shows (hr : r.isBindingSource = true) (h : s.StandsAt r position count) :
    s.Shows r position count where
  readCount _ := Runner.readObjectMember_of_field (propertyOf?_of_undeclared h.undeclared _)
    ((s.heap.get?_of_lower r (by decide)).trans h.countField)
  readPosition _ := Runner.readObjectMember_of_field (propertyOf?_of_undeclared h.undeclared _)
    ((s.heap.get?_of_lower r (by decide)).trans h.positionField)
  right hfits := ⟨(h.bounds hfits).1, (h.bounds hfits).2, h.readCurrent hr hfits⟩

/-- A change that spares a binding source: no class is declared under the name of its class, its
fields keep their values, and so do the rows of its table. -/
structure Spares (s : State) (r : ObjectRef) (s' : State) : Prop where
  undeclared : s'.class? r.className = none
  fields : ∀ name ∈ ["datasource", "position", "count", "current"],
    s'.heap.get? r name = s.heap.get? r name
  rows : ∀ t, s.heap.objectField? r "datasource" = some t →
    s'.heap.get? t "rows" = s.heap.get? t "rows"

theorem Spares.refl (h : s.class? r.className = none) : s.Spares r s :=
  ⟨h, fun _ _ => rfl, fun _ _ => rfl⟩

theorem StandsAt.of_spares (h : s.StandsAt r position count) (hs : s.Spares r s') :
    s'.StandsAt r position count where
  undeclared := hs.undeclared
  unshadowed := (hs.fields _ (by simp)).trans h.unshadowed
  positionField := (hs.fields _ (by simp)).trans h.positionField
  countField := (hs.fields _ (by simp)).trans h.countField
  within := by
    rw [Heap.boundRows_of_get? (hs.fields _ (by simp)) hs.rows]
    exact h.within

end State

/-! ### Actions -/

/-- An operation on a binding source that a program writes down. -/
inductive BindingAction where
  | assign (member : String) (e : Expr)
  | move (method : String) (es : List Expr)

namespace BindingAction

/-- The state in which the expressions of an action have been evaluated. -/
def start (run : Runner) (s : State) : BindingAction → State
  | .assign _ e => (run.eval e).after s
  | .move _ es => (run.arguments es).after s

/-- Evaluate the expressions of an action, and do it. -/
def perform (run : Runner) (r : ObjectRef) : BindingAction → Interp Unit
  | .assign member e => do run.assignField r member (← run.eval e)
  | .move method es => do
    let _ ← run.callObjectMethod r method es

/-- The members and methods that concern the position of a binding source, in any letter case. -/
def Known : BindingAction → Prop
  | .assign member _ => Text.lower member = "datasource" ∨ Text.lower member = "position"
  | .move method _ =>
    Text.lower method ∈ ["movefirst", "movelast", "movenext", "moveprevious"]

variable {run : Runner} {s : State} {r : ObjectRef} {position count : Int}

theorem perform_assign (hr : r.isBindingSource = true) {member : String} {e : Expr}
    (hknown : (assign member e).Known)
    (h : ((assign member e).start run s).StandsAt r position count) :
    Repositions r ((assign member e).start run s) ((assign member e).perform run r s) := by
  change ((run.eval e).after s).StandsAt r position count at h
  show Repositions r ((run.eval e).after s) ((run.eval e >>= run.assignField r member) s)
  cases hrun : run.eval e s with
  | error e' t =>
    rw [bind_of_error _ hrun, after_of_error hrun]
    rfl
  | ok v t =>
    rw [after_of_ok hrun] at h ⊢
    obtain ⟨x, hx, hassign⟩ := exists_of_assignBindingMember hr h hknown v
    rw [bind_of_ok _ hrun, Runner.assignField_of_binding h.undeclared hassign]
    exact hx

theorem moveTarget?_of_known {method : String} {es : List Expr} (hknown : (move method es).Known)
    (position count : Int) : ∃ target, moveTarget? method position count = some target := by
  simp only [Known, List.mem_cons, List.not_mem_nil, or_false] at hknown
  obtain h | h | h | h := hknown <;> rw [moveTarget?, h] <;> exact ⟨_, rfl⟩

theorem perform_move (hr : r.isBindingSource = true) {method : String} {es : List Expr}
    (hknown : (move method es).Known) (hundeclared : s.class? r.className = none)
    (h : ((move method es).start run s).StandsAt r position count) :
    Repositions r ((move method es).start run s) ((move method es).perform run r s) := by
  change ((run.arguments es).after s).StandsAt r position count at h
  show Repositions r ((run.arguments es).after s)
    ((run.callObjectMethod r method es >>= fun _ => pure ()) s)
  cases hrun : run.arguments es s with
  | error e t =>
    have hend : run.callObjectMethod r method es s = .error e t := by
      rw [Runner.callObjectMethod, get_bind_apply, State.methodOf?_of_undeclared hundeclared,
        State.propertyOf?_of_undeclared hundeclared]
      exact bind_of_error _ hrun
    rw [bind_of_error _ hend, after_of_error hrun]
    rfl
  | ok args t =>
    rw [after_of_ok hrun] at h ⊢
    obtain ⟨target, htarget⟩ := moveTarget?_of_known hknown (t.heap.intField r "position")
      (t.heap.intField r "count")
    have hmove : bindingMethod? t.heap r method =
        some (movePosition r target (t.heap.intField r "count")) := by
      rw [bindingMethod?, if_pos hr]
      dsimp only
      rw [htarget, Option.map_some]
    have hend := run.callObjectMethod_apply method hundeclared hrun
    rw [hmove] at hend
    rw [bind_of_ok _ (hend.trans (bind_of_ok _ (movePosition_apply _ _ _ _)))]
    exact ⟨_, _, standsAt_moved target h.undeclared h.unshadowed (intField_count h), rfl⟩

theorem perform_spec (a : BindingAction) {s : State} (hr : r.isBindingSource = true)
    (hknown : a.Known) (h : s.StandsAt r position count) (hstart : s.Spares r (a.start run s)) :
    Repositions r (a.start run s) (a.perform run r s) := by
  cases a with
  | assign member e => exact perform_assign hr hknown (h.of_spares hstart)
  | move method es => exact perform_move hr hknown h.undeclared (h.of_spares hstart)

end BindingAction

/-! ### Sessions -/

namespace Heap

/-- The heap with the fields of a source that is bound to nothing. -/
def unbound (h : Heap) (r : ObjectRef) : Heap :=
  ((h.set r "datasource" .nothing).set r "position" (.integer (-1))).set r "count" (.integer 0)

theorem get?_unbound (h : Heap) (r : ObjectRef) {name : String}
    (hsource : Text.lower name ≠ Text.lower "datasource")
    (hposition : Text.lower name ≠ Text.lower "position")
    (hcount : Text.lower name ≠ Text.lower "count") :
    (h.unbound r).get? r name = h.get? r name := by
  rw [unbound, get?_set_of_ne _ _ _ _ (Ne.symm hcount), get?_set_of_ne _ _ _ _ (Ne.symm hposition),
    get?_set_of_ne _ _ _ _ (Ne.symm hsource)]

theorem get?_unbound_position (h : Heap) (r : ObjectRef) :
    (h.unbound r).get? r "position" = some (.integer (Int32.ofInt (-1))) := by
  rw [unbound, get?_set_of_ne _ _ _ _ (by decide), get?_set_self]
  rfl

theorem get?_unbound_count (h : Heap) (r : ObjectRef) :
    (h.unbound r).get? r "count" = some (.integer (Int32.ofInt 0)) :=
  get?_set_self _ _ _ _

theorem boundRows_unbound (h : Heap) (r : ObjectRef) : (h.unbound r).boundRows r = [] := by
  have hsource : (h.unbound r).get? r "datasource" = some .nothing := by
    rw [unbound, get?_set_of_ne _ _ _ _ (by decide), get?_set_of_ne _ _ _ _ (by decide),
      get?_set_self]
  rw [boundRows, objectField?, hsource]
  rfl

end Heap

/-- The states of a session of a binding source: it is constructed where its class is not declared,
what else the program does spares it, and actions are performed on it. -/
inductive BindingSession (r : ObjectRef) : State → Prop where
  | created {run : Runner} {className : String} {args : List Value} {s₀ s : State}
    (hname : Text.lower className = "bindingsource") (hr : r.isBindingSource = true)
    (hclass : s₀.class? className = none)
    (hnew : run.instantiate className args [] s₀ = .ok r s) : BindingSession r s
  | elsewhere {s s' : State} (h : BindingSession r s) (hs : s.Spares r s') : BindingSession r s'
  | acted {s : State} (run : Runner) (a : BindingAction) (h : BindingSession r s)
    (hknown : a.Known) (hstart : s.Spares r (a.start run s)) :
    BindingSession r ((a.perform run r).after s)

namespace BindingSession

variable {s : State} {r : ObjectRef}

theorem isBindingSource (h : BindingSession r s) : r.isBindingSource = true := by
  induction h with
  | created _ hr _ _ => exact hr
  | elsewhere _ _ ih => exact ih
  | acted _ _ _ _ _ ih => exact ih

/-- Construction gives a new instance the fields of a source that is bound to nothing. -/
theorem instantiate_apply (run : Runner) {className : String} (args : List Value) {s : State}
    (hname : Text.lower className = "bindingsource") (hclass : s.class? className = none) :
    run.instantiate className args [] s =
      .ok (s.heap.alloc className).1 { s with
        heap := (s.heap.alloc className).2.unbound (s.heap.alloc className).1 } := by
  have hbuilt : undeclaredInstance className args s =
      .ok (s.heap.alloc className).1 { s with
        heap := (s.heap.alloc className).2.unbound (s.heap.alloc className).1 } := by
    simp only [undeclaredInstance, hname]
    rw [if_neg (by decide), if_pos (by decide)]
    rfl
  rw [Runner.instantiate, get_bind_apply, hclass]
  exact (bind_of_ok _ hbuilt).trans rfl

/-- A new source is bound to nothing. -/
theorem standsAt_of_instantiate {run : Runner} {className : String} {args : List Value}
    {s₀ : State} (hname : Text.lower className = "bindingsource")
    (hclass : s₀.class? className = none)
    (hnew : run.instantiate className args [] s₀ = .ok r s) : s.StandsAt r (-1) 0 := by
  rw [instantiate_apply run args hname hclass, EStateM.Result.ok.injEq] at hnew
  obtain ⟨rfl, rfl⟩ := hnew
  refine ⟨?_, ?_, ?_, ?_, fun _ => ?_⟩
  · rw [State.class?_of_heap, Heap.className_alloc, hclass]
  · show (Heap.unbound _ _).get? _ _ = _
    rw [Heap.get?_unbound _ _ (by decide) (by decide) (by decide), Heap.get?_alloc,
      Heap.get?_alloc_self]
  · exact Heap.get?_unbound_position _ _
  · exact Heap.get?_unbound_count _ _
  · show (0 : Int) = ((Heap.unbound _ _).boundRows _).length ∧ _
    rw [Heap.boundRows_unbound]
    exact ⟨rfl, rfl⟩

theorem standsAt (h : BindingSession r s) : ∃ position count, s.StandsAt r position count := by
  induction h with
  | created hname _ hclass hnew => exact ⟨_, _, standsAt_of_instantiate hname hclass hnew⟩
  | elsewhere _ hs ih =>
    obtain ⟨position, count, h⟩ := ih
    exact ⟨position, count, h.of_spares hs⟩
  | @acted s run a hsession hknown hstart ih =>
    obtain ⟨position, count, h⟩ := ih
    have hstep := a.perform_spec hsession.isBindingSource hknown h hstart
    cases hrun : a.perform run r s with
    | ok _ s' =>
      rw [hrun] at hstep
      obtain ⟨position', count', h', -⟩ := hstep
      rw [after_of_ok hrun]
      exact ⟨position', count', h'⟩
    | error e s' =>
      rw [hrun] at hstep
      rw [after_of_error hrun, show s' = a.start run s from hstep]
      exact ⟨position, count, h.of_spares hstart⟩

/-- Whatever is done with a binding source, it shows the rows of its table: their number, a position
within them and the row at that position. An action that succeeds tells the host once where the
source stands then; one that fails has evaluated its expressions and done nothing else. -/
theorem bindingSource_stands_on_row (h : BindingSession r s) :
    (∃ position count, s.Shows r position count) ∧
    ∀ (run : Runner) (a : BindingAction), a.Known → s.Spares r (a.start run s) →
      match a.perform run r s with
      | .ok _ s' => ∃ position count, s'.Shows r position count ∧
        s'.effects = (a.start run s).effects.push
          (.positionChanged (s'.hostName r) position count)
      | .error _ s' => s' = a.start run s := by
  obtain ⟨position, count, hstands⟩ := h.standsAt
  refine ⟨⟨position, count, hstands.shows h.isBindingSource⟩, fun run a hknown hstart => ?_⟩
  have hstep := a.perform_spec h.isBindingSource hknown hstands hstart
  cases hrun : a.perform run r s with
  | ok _ s' =>
    rw [hrun] at hstep
    obtain ⟨position', count', h', heffects⟩ := hstep
    exact ⟨position', count', h'.shows h.isBindingSource, heffects⟩
  | error e s' =>
    rw [hrun] at hstep
    exact hstep

/-- The first binding source of a program. -/
def firstSource : ObjectRef := ⟨0, "BindingSource"⟩

/-- A program that has just made its first binding source, with a data service that answers every
query with the same rows. -/
def withSource (rows : List (List String)) : State where
  heap := (Heap.alloc {} "BindingSource").2.unbound firstSource
  service := some fun _ _ => .ok ⟨["n"], rows⟩

/-- The state after the source has been bound to a query. -/
def boundToQuery (rows : List (List String)) : State :=
  ((BindingAction.assign "DataSource" (.text "rows")).perform (.withFuel 1) firstSource).after
    (withSource rows)

theorem of_boundToQuery (rows : List (List String)) :
    BindingSession firstSource (boundToQuery rows) := by
  have hsource : Text.lower "BindingSource" = "bindingsource" := by decide
  have hnew : BindingSession firstSource (withSource rows) :=
    .created hsource (by decide) rfl
      (instantiate_apply (.withFuel 1) [] (s := { withSource rows with heap := {} }) hsource rfl)
  exact hnew.acted (.withFuel 1) (.assign "DataSource" (.text "rows")) (.inl (by decide))
    (.refl rfl)

theorem boundToQuery_stands_on_row :
    ((boundToQuery [["1"], ["2"]]).heap.boundRows firstSource).length = 2 ∧
      ∃ position count, (boundToQuery [["1"], ["2"]]).Shows firstSource position count :=
  ⟨by decide +kernel, (bindingSource_stands_on_row (of_boundToQuery _)).1⟩

/-- The source has the rows of the answer, and their number wraps around where it is stored. -/
theorem boundToQuery_eq (rows : List (List String)) :
    ((boundToQuery rows).heap.boundRows firstSource).length = rows.length ∧
      (boundToQuery rows).heap.get? firstSource "count" =
        some (.integer (Int32.ofInt rows.length)) := by
  obtain ⟨t, heap, hrun, hrows, -⟩ :=
    Interp.newTable_apply "DataTable" ⟨["n"], rows⟩ (withSource rows)
  have htable : tableFor firstSource (.text "rows") (withSource rows) =
      .ok t { withSource rows with heap } := hrun
  have hassign := (assignDataSource_apply (by decide) htable).trans (movePosition_apply _ _ _ _)
  have hbound : boundToQuery rows = State.moved _ firstSource _ _ :=
    after_of_ok ((bind_of_ok _ rfl).trans
      ((Runner.assignField_of_binding rfl rfl).trans hassign))
  have hcount : ((heap.set firstSource "datasource" (.object t)).tableRows t).length =
      rows.length := by
    rw [Heap.tableRows, Heap.arrayField?, Heap.get?_set_of_ne _ _ _ _ (by decide),
      ← Heap.arrayField?, ← Heap.tableRows, hrows]
  rw [hbound, State.heap_moved, Heap.boundRows_moved, boundRows_set, ← Heap.length_tableRows,
    hcount]
  exact ⟨rfl, Heap.get?_moved_count _ _ _ _⟩

/-- A table with more rows than there are positive `Integer`s: the source does not show their
number. -/
theorem count_of_many_rows_wraps :
    let s := boundToQuery (List.replicate 2147483648 ["1"])
    BindingSession firstSource s ∧ (s.heap.boundRows firstSource).length = 2147483648 ∧
      ∀ run : Runner,
        run.readObjectMember firstSource "Count" s = .ok (.integer (-2147483648)) s ∧
        ¬ ∃ n : Int32, run.readObjectMember firstSource "Count" s = .ok (.integer n) s ∧
          n.toInt = (s.heap.boundRows firstSource).length := by
  intro s
  have hsession : BindingSession firstSource s := of_boundToQuery _
  obtain ⟨hrows, hcount⟩ := boundToQuery_eq (List.replicate 2147483648 ["1"])
  rw [List.length_replicate] at hrows hcount
  have hwrapped : Int32.ofInt ((2147483648 : Nat) : Int) = -2147483648 := by decide
  rw [hwrapped] at hcount
  obtain ⟨_, _, hstands⟩ := hsession.standsAt
  refine ⟨hsession, hrows, fun run => ?_⟩
  have hread : run.readObjectMember firstSource "Count" s = .ok (.integer (-2147483648)) s :=
    Runner.readObjectMember_of_field (State.propertyOf?_of_undeclared hstands.undeclared _)
      ((s.heap.get?_of_lower firstSource (by decide)).trans hcount)
  refine ⟨hread, ?_⟩
  rintro ⟨n, hn, hright⟩
  obtain rfl : -2147483648 = n := by
    rw [hread] at hn
    exact Value.integer.inj (EStateM.Result.ok.inj hn).1
  rw [hrows] at hright
  exact absurd hright (by decide)

end BindingSession

end FormBasic
