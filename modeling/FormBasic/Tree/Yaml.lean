import FormBasic.Tree.Yaml.Node
import FormBasic.Tree.Yaml.Scalar

/-!
# Reading YAML

The tree of the first document of a text: its tokens are read into nodes, and the nodes are resolved
into trees. All failures look the same from outside, so the reader answers an option.

A mapping fails when two of its keys are spelt alike, or when a key is a collection. Keys that are
spelt in two ways but mean the same are one key, and the last value counts. The plain key `<<`
stands for the entries of the mapping, or list of mappings, under it: the mapping takes those that
it does not have, the first one of each key. A mapping whose own keys are all texts takes every key
as it is spelt, and leaves out null.
-/

namespace FormBasic.Tree.Yaml

/-- The entries of a mapping in the making. -/
structure Entries where
  entries : List (Tree × Tree) := []
  /-- The keys that are not taken any more; without a list, every key is. -/
  closed : Option (List Tree) := none

namespace Entries

/-- Whether a key is not taken any more. -/
def isClosed (es : Entries) (key : Tree) : Bool := es.closed.any (·.any (·.sameKey key))

/-- Put a value under a key, in place of what is there. -/
def set (es : Entries) (key value : Tree) : Entries :=
  { entries :=
      if es.entries.any (·.1.sameKey key) then
        es.entries.map fun e => if e.1.sameKey key then (e.1, value) else e
      else es.entries ++ [(key, value)]
    closed := es.closed.map (key :: ·) }

end Entries

/-- The tree of a scalar. -/
def scalarTree (quoted : Bool) (content : String) : Tree :=
  if quoted then .text content else resolve content

/-- Whether a tree is a text. -/
def isText : Tree → Bool
  | .text _ => true
  | _ => false

/-- The key that a scalar is in a mapping with keys of all kinds, or in one with texts only. -/
def keyTree? (textsOnly quoted : Bool) (content : String) : Option Tree :=
  match textsOnly, scalarTree quoted content with
  | true, .null => none
  | true, _ => some (.text content)
  | false, t => some t

/-- The tree of entries. -/
def Entries.toTree (es : Entries) (textsOnly : Bool) : Tree :=
  if textsOnly then .mapping (es.entries.map fun e => (e.1.shown, e.2)) else .mixed es.entries

namespace Node

/-- Whether a key stands for the entries under it. -/
def merges : Node → Bool
  | .scalar quoted content => !quoted && content == "<<"
  | _ => false

/-- The keys of a mapping, or `none` if one of them is a collection or two are spelt alike. -/
def keys? (entries : List (Node × Node)) : Option (List (Bool × String)) := do
  let keys ← entries.mapM fun e => match e.1 with
    | .scalar quoted content => some (quoted, content)
    | _ => none
  let spelt := keys.map (·.2)
  if spelt.eraseDups.length == spelt.length then some keys else none

mutual
/-- The tree of a node. -/
def toTree? : Node → Option Tree
  | .scalar quoted content => some (scalarTree quoted content)
  | .sequence items => (toTrees? items).map .list
  | .mapping entries => do
    let keys := (← keys? entries).map fun (quoted, content) => scalarTree quoted content
    let textsOnly := keys.all isText
    let own ← addOwn? textsOnly {} entries
    let all ← addMerged? textsOnly { own with closed := some keys } entries
    return all.toTree textsOnly

/-- The trees of nodes. -/
def toTrees? : List Node → Option (List Tree)
  | [] => some []
  | n :: ns => do return (← toTree? n) :: (← toTrees? ns)

/-- Add the entries that a mapping has itself. -/
def addOwn? (textsOnly : Bool) (es : Entries) : List (Node × Node) → Option Entries
  | [] => some es
  | (key, value) :: entries => do
    let es ← match key with
      | .scalar quoted content =>
        if merges (.scalar quoted content) then some es
        else match keyTree? textsOnly quoted content with
          | some key =>
            if es.isClosed key then some es else (toTree? value).map (es.set key)
          | none => some es
      | _ => none
    addOwn? textsOnly es entries

/-- Add the entries for which the key `<<` of a mapping stands. -/
def addMerged? (textsOnly : Bool) (es : Entries) : List (Node × Node) → Option Entries
  | [] => some es
  | (key, value) :: entries => do
    let es ← if key.merges then addNode? textsOnly es value else some es
    addMerged? textsOnly es entries

/-- Add the entries of a mapping or a list of mappings. -/
def addNode? (textsOnly : Bool) (es : Entries) : Node → Option Entries
  | .scalar _ _ => none
  | .sequence items => addItems? textsOnly es items
  | .mapping entries => do
    let _ ← keys? entries
    let es ← addOwn? textsOnly es entries
    addMerged? textsOnly es entries

/-- Add the entries of mappings. -/
def addItems? (textsOnly : Bool) (es : Entries) : List Node → Option Entries
  | [] => some es
  | .mapping entries :: items => do
    let _ ← keys? entries
    let es ← addOwn? textsOnly es entries
    let es ← addMerged? textsOnly es entries
    addItems? textsOnly es items
  | _ :: _ => none
end

end Node

/-- Read the first document of a text. A text without content has none. -/
def read? (text : String) : Option Tree :=
  (Node.ofTokens? (Token.scan text.toList)).bind Node.toTree?

end FormBasic.Tree.Yaml
