import FormBasic.Calendar
import FormBasic.Data.Service
import FormBasic.Text.Bytes
import FormBasic.Text.Case
import FormBasic.Text.Search
import FormBasic.Value

/-!
# Cells

What a database puts into a cell, and how it shows. Bytes show as text, unless their column is
declared to hold binary data.
-/

namespace FormBasic.Data

/-- The value in a cell. -/
inductive Cell where
  | null
  | whole (value : Int64)
  | float (value : Float)
  | boolean (value : Bool)
  | moment (value : Calendar.Moment)
  | bytes (value : List UInt8)
  | text (value : String)

/-- Whether a column of a declared type holds binary data. -/
def isBinaryType (declared : String) : Bool :=
  let name := Text.upper declared
  name == "BLOB" || name == "BYTEA" || Text.occursIn "BINARY".toList name.toList

/-- The display text of a cell in a column of a declared type. -/
def Cell.display (declared : String) : Cell → String
  | .null => ""
  | .whole n => Decimal.intText n.toInt
  | .float x => Decimal.positional x
  | .boolean b => Value.boolText b
  | .moment t => t.text
  | .bytes bs =>
    if isBinaryType declared then "<" ++ Decimal.intText bs.length ++ " bytes>" else Text.ofBytes bs
  | .text s => s

/-- What a database answers a query with. -/
structure RawResult where
  columns : List String
  /-- The declared types of the columns; those that are missing are empty. -/
  types : List String
  rows : List (List Cell)
  /-- Why the query failed. -/
  failure : Option String := none
  /-- Why reading failed after the last row. -/
  rowFailure : Option String := none

/-- The display texts of a row; cells that are missing are null. -/
def displayRow (types : List String) (row : List Cell) (columns : List String) : List String :=
  columns.mapIdx fun i _ => (row.getD i .null).display (types.getD i "")

/-- The result of a query as display texts, or why there is none. -/
def RawResult.display (r : RawResult) : Except String ResultSet :=
  match r.failure, r.rowFailure with
  | some reason, _ => .error ("query: " ++ reason)
  | none, some reason => .error ("query rows: " ++ reason)
  | none, none => .ok ⟨r.columns, r.rows.map fun row => displayRow r.types row r.columns⟩

end FormBasic.Data
