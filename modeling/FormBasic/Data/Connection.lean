import FormBasic.Data.Url
import FormBasic.Table
import FormBasic.Text.Blank
import FormBasic.Text.Case
import FormBasic.Text.Search

/-!
# Connection strings

Which database a connection string means, and the data source name for its driver. A connection
string is a URL, or a list of `Key=Value` entries, or the path of a database file. Keys are known in
any letter case, and the last entry of a key counts.
-/

namespace FormBasic.Data

/-- The kinds of databases. -/
inductive Backend where
  | sqlite
  | postgres
  | mysql
deriving Repr, DecidableEq

/-- The name of the driver. -/
def Backend.driver : Backend → String
  | .sqlite => "sqlite3"
  | .postgres => "postgres"
  | .mysql => "mysql"

/-- A database and the data source name for its driver. -/
structure Connection where
  backend : Backend
  source : String
deriving Repr, DecidableEq

/-- Why a connection string has no meaning. -/
inductive ConnectionError where
  | empty
  | malformedUrl
deriving Repr, DecidableEq

/-- The text of a connection error. -/
def ConnectionError.message : ConnectionError → String
  | .empty => "cannot determine database backend from an empty connection string"
  | .malformedUrl => "mysql connection string"

namespace Connection

/-- The entries of a list separated by semicolons. Pieces without an equals sign do not count. -/
def entries (s : String) : Table String :=
  let pieces := (Text.splitOn [';'] s.toList).map (Text.trimChars Text.isBlank)
  .ofList <| pieces.filterMap fun piece =>
    match Text.cut '=' piece with
    | (key, some value) =>
      some (Text.lower (Text.trim (String.ofList key)), Text.trim (String.ofList value))
    | (_, none) => none

/-- The value of the first key that has an entry. -/
def firstOf (pairs : Table String) (default : String) (keys : List String) : String :=
  (keys.findSome? pairs.find?).getD default

/-- The endings of database files. -/
def fileEndings : List String := [".sqlite", ".sqlite3", ".db", ".mdb", ".accdb"]

/-- Whether a data source is a database file. -/
def isFile (source : String) : Bool :=
  let s := Text.lower source
  s == ":memory:" || fileEndings.any fun e => Text.endsWith e.toList s.toList

/-- Whether a word occurs in a text. -/
def mentions (s word : String) : Bool := Text.occursIn word.toList s.toList

/-- The URL of a Postgres database. The colon between user and password is left out when both are
empty. -/
def postgresSource (pairs : Table String) : String :=
  let field (part : Url.Part) (default : String) (keys : List String) :=
    Text.ofBytes (Url.escape part (Text.toBytes (firstOf pairs default keys)))
  let user := field .user "postgres" ["username", "user id", "uid"]
  let password := field .user "" ["password", "pwd"]
  let login := if user == "" && password == "" then "" else user ++ ":" ++ password
  let host := field .host "localhost" ["host"]
  let port := field .host "5432" ["port"]
  let database := field .path "postgres" ["database"]
  "postgres://" ++ login ++ "@" ++ host ++ ":" ++ port ++ "/" ++ database

/-- A MySQL data source name. -/
def mysqlSource (user password address path : String) : String :=
  user ++ ":" ++ password ++ "@tcp(" ++ address ++ ")" ++ path

/-- The MySQL data source name of entries. -/
def mysqlOfEntries (pairs : Table String) : String :=
  let field := firstOf pairs
  mysqlSource (field "root" ["uid", "user id", "username"]) (field "" ["pwd", "password"])
    (field "localhost" ["server"] ++ ":" ++ field "3306" ["port"])
    ("/" ++ field "mysql" ["database", "initial catalog"])

/-- The MySQL data source name of a URL. -/
def mysqlOfUrl (u : Url) : String :=
  let text := Text.ofBytes
  let address := if u.port.isEmpty then text u.hostname ++ ":3306" else text u.host
  let path := if u.escapedPath.isEmpty then "/" else text u.escapedPath
  let query := if u.query.isEmpty then "" else "?" ++ text u.query
  mysqlSource ((u.user.map fun w => text w.name).getD "root")
    (((u.user.bind (·.password)).map text).getD "") address (path ++ query)

/-- The database that entries mean; without a rule that applies, the text is the path of a file. -/
def ofEntries (s : String) : Connection :=
  let pairs := entries s
  let provider := Text.lower ((pairs.find? "provider").getD "")
  let source := pairs.find? "data source"
  if mentions provider "jet" || mentions provider "ace" || source.any isFile then
    ⟨.sqlite, source.getD ":memory:"⟩
  else if mentions provider "postgre" || (pairs.contains "host" && !pairs.contains "server") then
    ⟨.postgres, postgresSource pairs⟩
  else if mentions provider "sqloledb" || mentions provider "mysql" || pairs.contains "server" then
    ⟨.mysql, mysqlOfEntries pairs⟩
  else ⟨.sqlite, s⟩

/-- The text after so many bytes. -/
def afterBytes (n : Nat) (s : String) : List UInt8 := (Text.toBytes s).drop n

/-- The database that a connection string means. -/
def parse (s : String) : Except ConnectionError Connection :=
  let s := Text.trim s
  let starts (word : String) : Bool := Text.startsWith word.toList (Text.lower s).toList
  if s == "" then .error .empty
  else if starts "sqlite:" then .ok ⟨.sqlite, Text.ofBytes (afterBytes 7 s)⟩
  else if starts "postgres://" || starts "postgresql://" then .ok ⟨.postgres, s⟩
  else if starts "mysql://" then
    match Url.afterScheme? (afterBytes 8 s) with
    | some u => .ok ⟨.mysql, mysqlOfUrl u⟩
    | none => .error .malformedUrl
  else .ok (ofEntries s)

end Connection

end FormBasic.Data
