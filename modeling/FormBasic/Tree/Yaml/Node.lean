import FormBasic.Tree.Yaml.Token

/-!
# Nodes of YAML

Scalars, sequences and mappings as they were written. A node that is left out is the empty plain
scalar. The reader is a descent over the tokens; every call that goes deeper or on to the next entry
spends one unit of fuel, and needs at most two per token.
-/

namespace FormBasic.Tree.Yaml

/-- A scalar, sequence or mapping. -/
inductive Node where
  | scalar (quoted : Bool) (content : String)
  | sequence (items : List Node)
  | mapping (entries : List (Node × Node))

namespace Node

/-- A node that is left out. -/
def empty : Node := .scalar false ""

/-- Whether a block entry ends here, so that its node is left out. -/
def endsBlock : List Token → Bool
  | .key :: _ | .value :: _ | .blockEnd :: _ => true
  | _ => false

/-- Whether an entry of a flow collection ends here. -/
def endsFlow (close : Token) : List Token → Bool
  | t :: _ => t == .comma || t == close
  | [] => false

/-- Move to the next entry of a flow collection: all but the first come after a comma. -/
def afterComma? (first : Bool) (ts : List Token) : Option (List Token) :=
  match first, ts with
  | true, _ => some ts
  | false, .comma :: ts => some ts
  | false, _ => none

mutual
/-- A node. Block collections are allowed or not, and so is a sequence whose dashes stand in the
column of the key before it. -/
def read : (fuel : Nat) → (block indentless : Bool) → List Token → Option (Node × List Token)
  | 0, _, _, _ => none
  | fuel + 1, block, indentless, ts =>
    match ts with
    | .scalar quoted content :: ts => some (.scalar quoted content, ts)
    | .flowSequence :: ts => flowItems fuel true ts []
    | .flowMapping :: ts => flowEntries fuel true ts []
    | .entry :: _ => if indentless then indentlessItems fuel ts [] else none
    | .blockSequence :: ts => if block then blockItems fuel ts [] else none
    | .blockMapping :: ts => if block then blockEntries fuel ts [] else none
    | _ => none

/-- The entries of a block sequence. -/
def blockItems : (fuel : Nat) → List Token → (acc : List Node) → Option (Node × List Token)
  | 0, _, _ => none
  | fuel + 1, ts, acc =>
    match ts with
    | .entry :: ts =>
      match ts with
      | .entry :: _ | .blockEnd :: _ => blockItems fuel ts (empty :: acc)
      | _ => do
        let (item, ts) ← read fuel true false ts
        blockItems fuel ts (item :: acc)
    | .blockEnd :: ts => some (.sequence acc.reverse, ts)
    | _ => none

/-- The entries of a sequence whose dashes stand in the column of the key before it. -/
def indentlessItems : (fuel : Nat) → List Token → (acc : List Node) → Option (Node × List Token)
  | 0, _, _ => none
  | fuel + 1, ts, acc =>
    match ts with
    | .entry :: ts =>
      if endsBlock ts || ts.head? == some .entry then indentlessItems fuel ts (empty :: acc)
      else do
        let (item, ts) ← read fuel true false ts
        indentlessItems fuel ts (item :: acc)
    | _ => some (.sequence acc.reverse, ts)

/-- The key or value of a block mapping, after its mark. -/
def blockPart : (fuel : Nat) → List Token → Option (Node × List Token)
  | 0, _ => none
  | fuel + 1, ts => if endsBlock ts then some (empty, ts) else read fuel true true ts

/-- The entries of a block mapping. -/
def blockEntries : (fuel : Nat) → List Token → (acc : List (Node × Node)) →
    Option (Node × List Token)
  | 0, _, _ => none
  | fuel + 1, ts, acc =>
    match ts with
    | .key :: ts => do
      let (key, ts) ← blockPart fuel ts
      let (value, ts) ← match ts with
        | .value :: ts => blockPart fuel ts
        | _ => some (empty, ts)
      blockEntries fuel ts ((key, value) :: acc)
    | .blockEnd :: ts => some (.mapping acc.reverse, ts)
    | _ => none

/-- The value in an entry of a flow collection that `close` ends. -/
def flowValue : (fuel : Nat) → (close : Token) → List Token → Option (Node × List Token)
  | 0, _, _ => none
  | fuel + 1, close, ts =>
    match ts with
    | .value :: ts => if endsFlow close ts then some (empty, ts) else read fuel false false ts
    | _ => some (empty, ts)

/-- The entries of a flow sequence. An entry with a key is a mapping of one entry; a key that is
left out there takes the token after it along. -/
def flowItems : (fuel : Nat) → (first : Bool) → List Token → (acc : List Node) →
    Option (Node × List Token)
  | 0, _, _, _ => none
  | fuel + 1, first, ts, acc =>
    match ts with
    | .flowSequenceEnd :: ts => some (.sequence acc.reverse, ts)
    | _ => do
      match ← afterComma? first ts with
      | .flowSequenceEnd :: ts => some (.sequence acc.reverse, ts)
      | .key :: ts =>
        let (key, ts) ←
          if ts.head? == some .value || endsFlow .flowSequenceEnd ts then some (empty, ts.drop 1)
          else read fuel false false ts
        let (value, ts) ← flowValue fuel .flowSequenceEnd ts
        flowItems fuel false ts (.mapping [(key, value)] :: acc)
      | ts =>
        let (item, ts) ← read fuel false false ts
        flowItems fuel false ts (item :: acc)

/-- The entries of a flow mapping. A node without a mark is a key without a value. -/
def flowEntries : (fuel : Nat) → (first : Bool) → List Token → (acc : List (Node × Node)) →
    Option (Node × List Token)
  | 0, _, _, _ => none
  | fuel + 1, first, ts, acc =>
    match ts with
    | .flowMappingEnd :: ts => some (.mapping acc.reverse, ts)
    | _ => do
      match ← afterComma? first ts with
      | .flowMappingEnd :: ts => some (.mapping acc.reverse, ts)
      | .key :: ts =>
        let (key, ts) ←
          if ts.head? == some .value || endsFlow .flowMappingEnd ts then some (empty, ts)
          else read fuel false false ts
        let (value, ts) ← flowValue fuel .flowMappingEnd ts
        flowEntries fuel false ts ((key, value) :: acc)
      | ts =>
        let (key, ts) ← read fuel false false ts
        flowEntries fuel false ts ((key, empty) :: acc)
end

/-- The root of a document. What follows it is not looked at, but it must be there to see. -/
def root? (ts : List Token) : Option Node := do
  let (node, rest) ← read (4 * ts.length + 4) true false ts
  if rest.head? == some .unreadable then none else some node

/-- The root of the first document; `none` if there is no document. -/
def ofTokens? : List Token → Option Node
  | .documentStart :: ts =>
    match ts with
    | .documentStart :: _ | .documentEnd :: _ | .streamEnd :: _ => some empty
    | _ => root? ts
  | .streamEnd :: _ => none
  | ts => root? ts

end Node

end FormBasic.Tree.Yaml
