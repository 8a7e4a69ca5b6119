import FormBasic.Machine.Names
import FormBasic.Value.Convert

/-!
# Data binding

A data table holds column names and rows of texts. A binding source stands on a table at a position,
which always lies within the rows, or is `-1` when there are none. Controls show a table when it is
assigned to their data source, and a text that is assigned there is run as a query.
-/

namespace FormBasic

/-- Whether an instance is a data table. -/
def ObjectRef.isDataTable (r : ObjectRef) : Bool := Text.equalFold r.className "DataTable"

/-- Whether an instance is a binding source. -/
def ObjectRef.isBindingSource (r : ObjectRef) : Bool := Text.equalFold r.className "BindingSource"

namespace Heap

/-- The elements of a field that holds an array. -/
def arrayField? (h : Heap) (r : ObjectRef) (name : String) : Option (List Value) :=
  match h.get? r name with
  | some (.array _ elements) => some elements
  | _ => none

/-- The texts of an array; other values have none. -/
def cellTexts : Value → List String
  | .array _ cells => cells.map Value.toText
  | _ => []

/-- The columns of a data table. -/
def tableColumns (h : Heap) (t : ObjectRef) : List String :=
  ((h.arrayField? t "columns").getD []).map Value.toText

/-- The rows of a data table. -/
def tableRows (h : Heap) (t : ObjectRef) : List (List String) :=
  ((h.arrayField? t "rows").getD []).map cellTexts

/-- The number in a field, zero if there is none. -/
def intField (h : Heap) (r : ObjectRef) (name : String) : Int :=
  match h.get? r name with
  | some v =>
    match v.asInteger with
    | .ok n => n.toInt
    | .error _ => 0
  | none => 0

/-- The instance in a field. -/
def objectField? (h : Heap) (r : ObjectRef) (name : String) : Option ObjectRef :=
  match h.get? r name with
  | some (.object o) => some o
  | _ => none

end Heap

/-- The position within so many rows that is nearest to a given one. -/
def clampPosition (position count : Int) : Int :=
  if count == 0 then -1
  else if position < 0 then 0
  else if count ≤ position then count - 1
  else position

namespace Interp

/-- A new data table. -/
def newTable (className : String) (table : Data.ResultSet) : Interp ObjectRef := do
  let t ← newObject className
  setField t "columns" (← newTexts table.columns)
  let rows ← table.rows.mapM newTexts
  setField t "rows" (← newArrayOf rows)
  return t

/-- A new data table without columns. -/
def emptyTable : Interp ObjectRef := newTable "DataTable" ⟨[], []⟩

/-- Run a query with the connection string of an instance, or that of the settings. -/
def queryFor (target : ObjectRef) (query : String) : Interp Data.ResultSet := do
  let s ← get
  match s.service with
  | none => failWith "No data access service is configured"
  | some service =>
    let own := ((s.heap.get? target "connectionstring").map Value.toText).getD ""
    match service (if own == "" then s.config.connectionString else own) query with
    | .ok table => return table
    | .error reason => failWith ("Data source query failed: " ++ reason)

/-- The table that a data source stands for. -/
def tableFor (target : ObjectRef) (v : Value) : Interp ObjectRef := do
  match v with
  | .object r =>
    if r.isDataTable then return r
    else if r.isBindingSource then
      match ((← get).heap.objectField? r "datasource").filter (·.isDataTable) with
      | some t => return t
      | none => emptyTable
    else fail (.typeMismatch "DataTable" r.className)
  | .text query => newTable "DataTable" (← queryFor target query)
  | v => if v.isNothing then emptyTable else fail (.typeMismatch "DataTable" v.typeName)

/-- Move a binding source among so many rows, and tell the host. -/
def movePosition (r : ObjectRef) (position count : Int) : Interp Unit := do
  let position := clampPosition position count
  setField r "count" (.integer (Int32.ofInt count))
  setField r "position" (.integer (Int32.ofInt position))
  emit (.positionChanged ((← get).hostName r) position count)

/-- Assign the data source of an instance. -/
def assignDataSource (r : ObjectRef) (v : Value) : Interp Unit := do
  let table ← tableFor r v
  if r.isBindingSource then
    setField r "datasource" (.object table)
    let count := ((← get).heap.tableRows table).length
    movePosition r 0 count
  else
    setField r "datasource" v
    let s ← get
    emit (.dataSourceChanged (s.hostName r) (s.heap.tableColumns table) (s.heap.tableRows table))

/-- Assign to a member that data binding governs; says whether it does. -/
def assignBindingMember (r : ObjectRef) (member : String) (v : Value) : Interp Bool := do
  let key := Text.lower member
  if key == "datasource" then
    assignDataSource r v
    return true
  else if key == "position" && r.isBindingSource then
    let n ← v.asInteger
    movePosition r n.toInt ((← get).heap.intField r "count")
    return true
  else return false

end Interp

/-- The row that a binding source stands on, or `Nothing`. -/
def currentRow (h : Heap) (r : ObjectRef) : Value :=
  match (h.objectField? r "datasource").bind (h.arrayField? · "rows") with
  | none => .nothing
  | some rows =>
    let position := h.intField r "position"
    if position < 0 then .nothing else rows.getD position.toNat .nothing

/-- A member that data binding computes. -/
def bindingMember? (h : Heap) (r : ObjectRef) (member : String) : Option Value :=
  if r.isBindingSource && Text.equalFold member "current" then some (currentRow h r)
  else if r.isDataTable && Text.equalFold member "count" then
    some (.integer (Int32.ofInt (h.tableRows r).length))
  else none

/-- Where a move of a binding source leads from a position among so many rows. -/
def moveTarget? (method : String) (position count : Int) : Option Int :=
  match Text.lower method with
  | "movefirst" => some 0
  | "movelast" => some (count - 1)
  | "movenext" => some (position + 1)
  | "moveprevious" => some (position - 1)
  | _ => none

/-- A method that moves a binding source. -/
def bindingMethod? (h : Heap) (r : ObjectRef) (method : String) : Option (Interp Unit) :=
  if r.isBindingSource then
    let count := h.intField r "count"
    (moveTarget? method (h.intField r "position") count).map (Interp.movePosition r · count)
  else none

end FormBasic
