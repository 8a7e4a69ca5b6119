import FormBasic.Decimal.Notation
import FormBasic.Table

/-!
# Generic trees

The shape in which a program reaches the decoder: lists and mappings with scalars at the leaves.
A number read from JSON is kept as it was written; a number read from YAML has been resolved to a
whole number or a floating-point number.
-/

namespace FormBasic

/-- A tree of lists and mappings. -/
inductive Tree where
  | null
  | bool (value : Bool)
  | text (value : String)
  /-- A number as it was written. -/
  | numeral (literal : String)
  | integer (value : Int)
  | real (value : Float)
  /-- A calendar moment, by the text that shows it. -/
  | moment (text : String)
  | list (items : List Tree)
  /-- A mapping whose keys are texts. -/
  | mapping (fields : List (String × Tree))
  /-- A mapping with a key that is no text. -/
  | mixed (entries : List (Tree × Tree))
deriving Inhabited

namespace Tree

mutual
/-- The number of levels of a tree. -/
def height : Tree → Nat
  | .list items => heightList items + 1
  | .mapping fields => heightFields fields + 1
  | .mixed entries => heightEntries entries + 1
  | _ => 1

/-- The height of the highest item. -/
def heightList : List Tree → Nat
  | [] => 0
  | t :: ts => max t.height (heightList ts)

/-- The height of the highest field. -/
def heightFields : List (String × Tree) → Nat
  | [] => 0
  | (_, t) :: ts => max t.height (heightFields ts)

/-- The height of the highest value of a mapping with mixed keys. -/
def heightEntries : List (Tree × Tree) → Nat
  | [] => 0
  | (_, t) :: ts => max t.height (heightEntries ts)
end

/-- The name under which a message speaks of the kind of a tree. -/
def typeName : Tree → String
  | .null => "<nil>"
  | .bool _ => "bool"
  | .text _ => "string"
  | .numeral _ => "json.Number"
  | .integer n => if n ≤ maxSigned 64 then "int" else "uint64"
  | .real _ => "float64"
  | .moment _ => "time.Time"
  | .list _ => "[]interface \x7b\x7d"
  | .mapping _ => "map[string]interface \x7b\x7d"
  | .mixed _ => "map[interface \x7b\x7d]interface \x7b\x7d"

/-- Entries in the order of their names. -/
def sortFields (fields : List (String × String)) : List (String × String) :=
  fields.mergeSort fun a b => decide (a.1 ≤ b.1)

/-- The rank of the kind of a key among the keys of a mapping. -/
def keyRank : Tree → Nat
  | .null => 0
  | .bool _ => 1
  | .real _ => 2
  | .integer n => if n ≤ maxSigned 64 then 3 else 5
  | .text _ | .numeral _ => 4
  | _ => 6

/-- Whether a key comes before another or is like it: keys of one kind by their value, where a
number that is none comes first. -/
def keyLe (a b : Tree) : Bool :=
  match a, b with
  | .bool x, .bool y => !x || y
  | .real x, .real y => x.isNaN || x ≤ y
  | .integer m, .integer n => m ≤ n
  | .text s, .text t => s ≤ t
  | .moment s, .moment t => s ≤ t
  | _, _ => a.keyRank ≤ b.keyRank

/-- Whether two keys are the same key. -/
def sameKey (a b : Tree) : Bool :=
  match a, b with
  | .null, .null => true
  | .bool x, .bool y => x == y
  | .real x, .real y => x == y
  | .integer m, .integer n => m == n
  | .text s, .text t => s == t
  | .moment s, .moment t => s == t
  | _, _ => false

/-- An entry of a mapping in one line, beside its key. -/
structure ShownEntry where
  key : Tree
  text : String

/-- Entries in the order of their keys. -/
def sortEntries (entries : List ShownEntry) : List ShownEntry :=
  entries.mergeSort fun a b => a.key.keyLe b.key

mutual
/-- A tree in one line: lists in brackets, mappings sorted by key. -/
def shown : Tree → String
  | .null => "<nil>"
  | .bool b => if b then "true" else "false"
  | .text s => s
  | .numeral s => s
  | .integer n => Decimal.intText n
  | .real x => Decimal.general x
  | .moment s => s
  | .list items => "[" ++ String.intercalate " " (showList items) ++ "]"
  | .mapping fields => "map[" ++ String.intercalate " "
      ((sortFields (showFields fields)).map fun f => f.1 ++ ":" ++ f.2) ++ "]"
  | .mixed entries => "map[" ++ String.intercalate " "
      ((sortEntries (showEntries entries)).map (·.text)) ++ "]"

/-- Each item in one line. -/
def showList : List Tree → List String
  | [] => []
  | t :: ts => t.shown :: showList ts

/-- Each field in one line. -/
def showFields : List (String × Tree) → List (String × String)
  | [] => []
  | (k, t) :: ts => (k, t.shown) :: showFields ts

/-- Each entry of a mapping with mixed keys in one line. -/
def showEntries : List (Tree × Tree) → List ShownEntry
  | [] => []
  | (k, t) :: ts => ⟨k, k.shown ++ ":" ++ t.shown⟩ :: showEntries ts
end

/-- The value under a key of a mapping; everything else has no fields. -/
def field? : Tree → String → Option Tree
  | .mapping fields, key => Table.findIn key fields
  | _, _ => none

end Tree

end FormBasic
