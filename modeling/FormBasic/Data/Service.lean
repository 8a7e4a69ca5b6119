/-!
# Data services

A data service answers queries against connection strings with a table of texts.
-/

namespace FormBasic.Data

/-- The rows of a query as display texts. -/
structure ResultSet where
  columns : List String
  rows : List (List String)
deriving Repr, Inhabited, DecidableEq

/-- Answers a connection string and a query, or says why not. -/
abbrev Service := String → String → Except String ResultSet

/-- A recorded answer to one query. -/
structure Recording where
  connection : String
  query : String
  result : ResultSet

/-- A service that knows recorded answers only. -/
def Service.ofRecordings (recordings : List Recording) : Service := fun connection query =>
  match recordings.find? fun r => r.connection == connection && r.query == query with
  | some r => .ok r.result
  | none => .error ("no result for " ++ connection ++ " " ++ query)

end FormBasic.Data
