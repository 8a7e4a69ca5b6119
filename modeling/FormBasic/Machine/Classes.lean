import FormBasic.Machine.State

/-!
# Classes

The class table: declarations are merged into it, and members are found along the inheritance
chain. A class is known by its name in lower case; the names of members are compared up to case.
-/

namespace FormBasic

/-- Classes by their names in lower case. -/
abbrev ClassTable := Table ClassInfo

/-- The class of a declaration. -/
def ClassInfo.ofDecl (d : ClassDecl) (moduleName : String) : ClassInfo where
  name := d.name
  inherits := d.inherits
  fields := d.fields
  methods := d.methods
  properties := d.properties
  events := d.events
  moduleName := moduleName
  isPartial := d.partialDecl

/-- Add the members of a further partial declaration. The first base class that is named stays. -/
def ClassInfo.merge (c : ClassInfo) (d : ClassDecl) : ClassInfo :=
  { c with
    fields := c.fields ++ d.fields
    methods := c.methods ++ d.methods
    properties := c.properties ++ d.properties
    events := c.events ++ d.events
    inherits := if c.inherits == "" then d.inherits else c.inherits }

namespace ClassTable

/-- The class of a name. -/
def class? (t : ClassTable) (name : String) : Option ClassInfo := Table.find? t (Text.lower name)

/-- Enter a declaration: it is merged with an earlier one of the same name when either is partial,
and replaces it otherwise. -/
def declare (t : ClassTable) (d : ClassDecl) (moduleName : String) : ClassTable :=
  let fresh := ClassInfo.ofDecl d moduleName
  let c := match t.class? d.name with
    | some c => if d.partialDecl || c.isPartial then c.merge d else fresh
    | none => fresh
  Table.insert t (Text.lower d.name) c

/-- The chain from a key on, most derived class first. It ends at a class without a base, at a base
that is not known, and at a class that is already in the chain. -/
def chainFrom (t : ClassTable) : (fuel : Nat) → (seen : List String) → (key : String) →
    List ClassInfo
  | 0, _, _ => []
  | fuel + 1, seen, key =>
    if seen.contains key then []
    else match Table.find? t key with
      | none => []
      | some c =>
        if c.inherits == "" then [c]
        else c :: chainFrom t fuel (key :: seen) (Text.lower c.inherits)

/-- A class and its ancestors, most derived first; empty if the class is not known. A chain has no
class twice, so it is no longer than the table. -/
def chain (t : ClassTable) (name : String) : List ClassInfo :=
  chainFrom t (Table.size t + 1) [] (Text.lower name)

/-- The first member along a chain that a test accepts, with the class that declares it. -/
def firstMember (members : ClassInfo → List α) (test : α → Bool) :
    List ClassInfo → Option (α × ClassInfo)
  | [] => none
  | c :: cs =>
    match (members c).find? test with
    | some m => some (m, c)
    | none => firstMember members test cs

/-- The method that a class has under a name, its own or inherited. -/
def method? (t : ClassTable) (className name : String) : Option (Procedure × ClassInfo) :=
  firstMember (·.methods) (Text.equalFold ·.name name) (t.chain className)

/-- The property that a class has under a name, its own or inherited. -/
def property? (t : ClassTable) (className name : String) : Option (PropertyDecl × ClassInfo) :=
  firstMember (·.properties) (Text.equalFold ·.name name) (t.chain className)

/-- Whether a class is a base or inherits from it. Classes that are not known have themselves as
their only base; the name of a base that is not known counts. -/
def isSubclass (t : ClassTable) (name base : String) : Bool :=
  Text.equalFold name base ||
    (t.chain name).any fun c => Text.equalFold c.name base || Text.equalFold c.inherits base

end ClassTable

end FormBasic
