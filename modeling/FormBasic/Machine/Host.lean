import FormBasic.Machine.Load

/-!
# The program as its host sees it

What a host does with a loaded program between two events: read and write the properties of its
objects, publish forms and put controls on them, and take the effects that have been queued.
-/

namespace FormBasic

/-- A control that a host puts on a form. -/
structure ControlSpec where
  name : String
  kind : String
  properties : List (String × Value)

namespace State

/-- The instance that a list of field names leads to. -/
def walk (h : Heap) : Value → List String → Option ObjectRef
  | .object r, [] => some r
  | .object r, name :: names => (h.get? r name).bind (walk h · names)
  | _, _ => none

/-- The instance that a dotted path leads to. -/
def resolvePath (s : State) (path : String) : Option ObjectRef :=
  match moduleParts path with
  | [] => none
  | name :: names => (s.scopes.lookup? name).bind (walk s.heap · names)

/-- Write a property from outside: a field of the instance that a path leads to, else a binding
under the flattened key. No effect is queued. -/
def setProperty (s : State) (path property : String) (v : Value) : State :=
  match s.resolvePath path with
  | some r => { s with heap := s.heap.set r property v }
  | none => { s with scopes := s.scopes.defineMember path property v }

/-- Read a property from outside. -/
def getProperty (s : State) (path property : String) : Fallible Value :=
  match (s.resolvePath path).bind (s.heap.get? · property) with
  | some v => .ok v
  | none => s.scopes.lookupMember s.heap path property

end State

namespace Interp

/-- Take all effects from the queue. -/
def drain : Interp (List Effect) :=
  modifyGet fun s => (s.effects.toList, { s with effects := #[] })

/-- A new control with its properties. -/
def newControl (c : ControlSpec) : Interp ObjectRef := do
  let r ← undeclaredInstance c.kind []
  setField r "name" (.text c.name)
  c.properties.forM fun p => setField r p.1 p.2
  return r

/-- Put controls on a form as fields. -/
def addControls (form : ObjectRef) : List ControlSpec → Interp Unit
  | [] => return
  | c :: cs => do
    setField form c.name (.object (← newControl c))
    addControls form cs

end Interp

/-- Put controls on the default instance of a form. -/
def Runner.projectControls (run : Runner) (form : String) (controls : List ControlSpec) :
    Interp Unit := do
  Interp.addControls (← run.defaultInstance form) controls

end FormBasic
