import FormBasic.Text.Search

/-!
# Settings files

The data of a file in TOML. A file is a list of lines, each of which gives a key a value or opens a
table, perhaps as the next one of a list of tables. A `Document` is what the lines amount to: what
every path holds, and the keys in the order in which they were written. Lines that define a path
twice make no document.

A table that came about only because a longer key runs through it is *implied*. It may be defined
once more; the definition then adds nothing. A list through which a longer key runs is implied as
well, and the definition takes its place.
-/

namespace FormBasic.Toml

/-- A dotted key, outermost part first. -/
abbrev Path := List String

/-- A value. -/
inductive Value where
  | text (s : String)
  | whole (n : Int)
  | float (x : Float)
  | boolean (b : Bool)
  /-- A date, a time or both, as written. -/
  | moment (written : String)
  | list (items : List Value)
  /-- A table in braces. -/
  | table (entries : List (Path × Value))

namespace Value

/-- Whether a value is a list. -/
def isList : Value → Bool
  | .list _ => true
  | _ => false

/-- Whether a value is a table. -/
def isTable : Value → Bool
  | .table _ => true
  | _ => false

end Value

/-- A line that says something. -/
inductive Line where
  | entry (key : Path) (value : Value)
  | table (path : Path)
  /-- The next table of a list of tables. -/
  | item (path : Path)

/-- What a path holds. -/
inductive Content where
  | table
  /-- A list with a table as its last item, to which what lies below the path belongs. -/
  | items
  | value (v : Value)

/-- What lines amount to. -/
structure Document where
  /-- The paths with what they hold. -/
  contents : List (Path × Content) := []
  /-- Paths that may be defined once more. -/
  implied : List Path := []
  /-- Paths that are known to be lists. -/
  lists : List Path := []
  /-- Paths that a table in braces gives something other than a table. -/
  leaves : List Path := []
  /-- The keys as they were written, in order. -/
  keys : List Path := []

namespace Document

/-- What a path holds. -/
def find? (d : Document) (path : Path) : Option Content :=
  (d.contents.find? (·.1 == path)).map (·.2)

/-- Whether a path can be reached: nothing on the way to it is a plain value. -/
def reachable (d : Document) (path : Path) : Bool :=
  (List.range path.length).all fun n =>
    match d.find? (path.take n) with
    | some (.value _) => false
    | _ => true

/-- Add what a path holds. -/
def add (d : Document) (path : Path) (c : Content) : Document :=
  { d with contents := d.contents ++ [(path, c)] }

/-- Mark a path as implied. -/
def imply (d : Document) (path : Path) : Document :=
  if d.implied.contains path then d else { d with implied := path :: d.implied }

/-- Take a path off the implied ones. -/
def settle (d : Document) (path : Path) : Document :=
  { d with implied := d.implied.filter (· != path) }

/-- Forget what lies below a path. -/
def clear (d : Document) (path : Path) : Document :=
  let below (other : Path) : Bool := path.isPrefixOf other && other != path
  { d with
    contents := d.contents.filter (!below ·.1)
    leaves := d.leaves.filter (!below ·) }

/-- Put something else where a path is. -/
def replace (d : Document) (path : Path) (c : Content) : Document :=
  add { d.clear path with contents := (d.clear path).contents.filter (·.1 != path) } path c

/-- Note whether a path is a list. -/
def note (d : Document) (path : Path) (isList : Bool) : Document :=
  let others := d.lists.filter (· != path)
  { d with lists := if isList then path :: others else others }

/-- Where it is noted whether an entry is a list. An empty last part does not count, unless it is
the only one. -/
def notedAt (path : Path) : Path :=
  if path.length ≤ 1 || path.getLast? != some "" then path else path.dropLast

/-- Define a path. -/
def define? (d : Document) (path : Path) (c : Content) : Option Document :=
  if !d.reachable path then none
  else if (d.find? path).isNone then some (d.add path c)
  else if !d.implied.contains path then none
  else if d.lists.contains path then some ((d.settle path).replace path c)
  else some (d.settle path)

/-- Make sure that a path holds something: an implied table if it is new. -/
def ensure (d : Document) (path : Path) : Document :=
  match d.find? path with
  | none => (d.add path .table).imply path
  | some _ => d

/-- The paths that lead to a path, shortest first, the empty one left out. -/
def leads (path : Path) : List Path :=
  ((List.range path.length).map path.take).drop 1

/-- Define a table, and imply those that lead to it. -/
def defineTable? (d : Document) (path : Path) : Option Document :=
  if !d.reachable path then none
  else ((leads path).foldl ensure d).define? path .table

/-- Pass through a table of a dotted key. -/
def passThrough? (d : Document) (path : Path) : Option Document :=
  (d.imply path).defineTable? path

/-- Write down the key of an entry in a table, and pass through what leads to it. -/
def enter? (d : Document) (context key : Path) : Option Document := do
  let d ← ((leads key).map (context ++ ·)).foldlM passThrough? d
  return { d with keys := d.keys ++ [context ++ key] }

/-- Define a path with its value, once what the value holds has been added. -/
def leave? (d : Document) (path : Path) (v : Value) : Option Document := do
  let d ← d.define? path (.value v)
  return d.note (notedAt path) v.isList

/-- Begin the table that is the next item of a list, and imply those that lead to it. -/
def openItem? (d : Document) (path : Path) : Option Document :=
  if !d.reachable path then none
  else
    let d := (leads path).foldl ensure d
    match d.find? path with
    | none | some .items => some (d.replace path .items)
    | some _ => none

/-- Begin the table in braces that a path is given. -/
def openTable? (d : Document) (path : Path) (inList : Bool) : Option Document :=
  if inList then (d.imply path).openItem? path else d.passThrough? path

mutual
/-- Add what a value holds below its path. -/
def addInner? (d : Document) (path : Path) (inList : Bool) : Value → Option Document
  | .list items => addItems? (d.note (notedAt path) true) path items
  | .table entries => do
    let d ← d.openTable? path inList
    addEntries? d path entries
  | _ => some d

/-- Add what the items of a list hold. -/
def addItems? (d : Document) (path : Path) : List Value → Option Document
  | [] => some d
  | v :: vs => do
    let d ← addInner? d path true v
    addItems? d path vs

/-- Add the entries of a table in braces. None of their keys runs through what the table holds and
is not a table. -/
def addEntries? (d : Document) (context : Path) : List (Path × Value) → Option Document
  | [] => some d
  | (key, v) :: entries => do
    let path := context ++ key
    if (leads key).any fun lead => d.leaves.contains (context ++ lead) then none
    let d ← d.enter? context key
    let d ← addInner? d path false v
    let d ← d.leave? path v
    addEntries? (if v.isTable then d else { d with leaves := path :: d.leaves }) context entries
end

/-- Add lines, the entries of which belong to the table that was opened last. -/
def addLines? : (d : Document) → (context : Path) → List Line → Option Document
  | d, _, [] => some d
  | d, context, .entry key v :: lines => do
    let path := context ++ key
    let d ← d.enter? context key
    let d ← d.addInner? path false v
    let d ← d.leave? path v
    addLines? d context lines
  | d, _, .table path :: lines => do
    let d ← d.defineTable? path
    addLines? { d.note path false with keys := d.keys ++ [path] } path lines
  | d, _, .item path :: lines => do
    let d ← d.openItem? path
    addLines? { d.note path false with keys := d.keys ++ [path] } path lines

/-- The document of lines. -/
def ofLines? (lines : List Line) : Option Document := addLines? {} [] lines

end Document

/-! ### Keys as text -/

/-- Whether a character needs no quotes in a key. -/
def isBareChar (c : Char) : Bool := c.isAlphanum || c == '_' || c == '-'

/-- A hexadecimal number of four digits. -/
def hexText (n : Nat) : List Char :=
  let ds := Nat.toDigits 16 n
  List.replicate (4 - ds.length) '0' ++ ds

/-- A character between quotes. -/
def quotedChar (c : Char) : List Char :=
  match c with
  | '"' => ['\\', '"']
  | '\\' => ['\\', '\\']
  | '\x08' => ['\\', 'b']
  | '\t' => ['\\', 't']
  | '\n' => ['\\', 'n']
  | '\x0c' => ['\\', 'f']
  | '\r' => ['\\', 'r']
  | c => if c.toNat < 32 || c.toNat == 127 then '\\' :: 'u' :: hexText c.toNat else [c]

/-- A part of a key, between quotes if it needs them. -/
def partText (s : String) : List Char :=
  let cs := s.toList
  if !cs.isEmpty && cs.all isBareChar then cs else '"' :: cs.flatMap quotedChar ++ ['"']

/-- The text of a dotted key. -/
def pathText (path : Path) : String :=
  String.ofList (Text.joinWith ['.'] (path.map partText))

end FormBasic.Toml
