import FormBasic.Machine.Classes
import FormBasic.Text.Search

/-!
# Names

What a name means in a state. Declarations of a module stand under keys `module.name`, and a name
without a module is looked for in the current module first. Data is looked for in the local scopes,
in the fields of the current object, in the global scope and in the modules, in this order.
-/

namespace FormBasic

/-- The key of a name in a module; the empty module stands for none. -/
def qualify (moduleName name : String) : String :=
  if moduleName == "" then Text.lower name else Text.lower (moduleName ++ "." ++ name)

/-- The names that stand for built-in facilities as long as they are not bound. -/
def isIntrinsicOwner (name : String) : Bool :=
  ["console", "math", "application", "datetime", "environment"].contains (Text.lower name)

/-- Whether a key is that of a name in some module. -/
def endsWithName (name key : String) : Bool :=
  Text.endsWith ('.' :: name.toList) key.toList

/-- The module part of a key, which is all before its last point. -/
def moduleOfKey (key : String) : String :=
  match Text.lastIndexOf? ['.'] key.toList with
  | some i => String.ofList (key.toList.take i)
  | none => ""

/-- The part of a text after its last point, and the part before it if there is a point. -/
def splitAtLastPoint (s : String) : Option String × String :=
  match Text.lastIndexOf? ['.'] s.toList with
  | some i => (some (String.ofList (s.toList.take i)), String.ofList (s.toList.drop (i + 1)))
  | none => (none, s)

namespace State

/-- The class table of a state. -/
def classTable (s : State) : ClassTable := s.classes

/-- The class of a name. -/
def class? (s : State) (name : String) : Option ClassInfo := s.classTable.class? name

/-- The method of an instance under a name. -/
def methodOf? (s : State) (r : ObjectRef) (name : String) : Option (Procedure × ClassInfo) :=
  s.classTable.method? r.className name

/-- The property of an instance under a name. -/
def propertyOf? (s : State) (r : ObjectRef) (name : String) : Option (PropertyDecl × ClassInfo) :=
  s.classTable.property? r.className name

/-- The property of the current object under a name. -/
def ownProperty? (s : State) (name : String) : Option (ObjectRef × PropertyDecl × ClassInfo) := do
  let self ← s.context.self
  let found ← s.propertyOf? self name
  return (self, found)

/-- The first of a list of keys that is bound, with its value. -/
def firstBound (scopes : Scopes) : List String → Option (String × Value)
  | [] => none
  | key :: keys =>
    match scopes.lookup? key with
    | some v => some (key, v)
    | none => firstBound scopes keys

/-- The keys under which a name may stand in a module, those of the current module first. -/
def moduleKeys (s : State) (name : String) : List String :=
  let others := s.moduleNames.map (qualify · name)
  if s.context.moduleName == "" then others else qualify s.context.moduleName name :: others

/-- The key of a module variable, with its value. -/
def moduleVariable? (s : State) (name : String) : Option (String × Value) :=
  firstBound s.scopes (s.moduleKeys name)

/-- The data that a name stands for. -/
def data? (s : State) (name : String) : Option Value :=
  if s.scopes.hasLocal name then s.scopes.lookup? name
  else match s.context.self.bind (s.heap.get? · name) with
    | some v => some v
    | none =>
      match s.scopes.lookup? name with
      | some v => some v
      | none => (s.moduleVariable? name).map (·.2)

/-- The procedure under an exact key. -/
def procedureAt? (s : State) (key : String) : Option ProcedureEntry := s.procedures.find? key

/-- The keys of all procedures in order. -/
def procedureKeys (s : State) : List String := s.procedures.sortedNames

/-- The first procedure, by its key, that stands under a name in some module. -/
def procedureInModule? (s : State) (name : String) : Option ProcedureEntry :=
  (s.procedureKeys.find? (endsWithName name)).bind s.procedureAt?

/-- The procedure that a name calls: the one under that key, else the one of the current module,
else the first one of any module. -/
def procedure? (s : State) (name : String) : Option ProcedureEntry :=
  let key := Text.lower name
  match s.procedureAt? key with
  | some p => some p
  | none =>
    let own := if s.context.moduleName == "" then none
      else s.procedureAt? (qualify s.context.moduleName key)
    match own with
    | some p => some p
    | none => s.procedureInModule? key

/-- The first of a list of keys that is a module property, with its module. -/
def firstProperty (properties : Table PropertyDecl) : List String → Option (PropertyDecl × String)
  | [] => none
  | key :: keys =>
    match properties.find? key with
    | some p => some (p, moduleOfKey key)
    | none => firstProperty properties keys

/-- The module property that a name stands for, with its module: that of the current module, else a
free-standing one, else that of any module. -/
def moduleProperty? (s : State) (name : String) : Option (PropertyDecl × String) :=
  let keys := Text.lower name :: s.moduleNames.map (qualify · name)
  firstProperty s.properties
    (if s.context.moduleName == "" then keys else qualify s.context.moduleName name :: keys)

/-- The name by which the host knows an instance: its `name` field, else its class. -/
def hostName (s : State) (r : ObjectRef) : String := (s.heap.nameOf? r).getD r.className

end State

end FormBasic
