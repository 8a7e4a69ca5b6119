import FormBasic.Error
import FormBasic.Heap

/-!
# Scopes

The bindings of names: one global scope, and a local scope per running call. A name is looked up
from the innermost scope outwards, in any letter case. Whether a binding is a constant is part of
the binding, so a constant is always bound.

A binding may also stand under a key `owner.member`. Such a key belongs to no object; member
lookups consult it before the fields of the object that `owner` names.
-/

namespace FormBasic

/-- A value under a name. -/
structure Binding where
  value : Value
  isConst : Bool := false
deriving Inhabited

/-- One scope. -/
abbrev Scope := Table Binding

/-- The global scope and the local scopes, innermost first. -/
structure Scopes where
  globals : Scope := ∅
  locals : List Scope := []
deriving Inhabited

/-- The key under which a member is bound without an object. -/
def memberKey (owner member : String) : String := Text.lower owner ++ "." ++ Text.lower member

namespace Scopes

/-- Number of scopes, the global one included. -/
def depth (s : Scopes) : Nat := s.locals.length + 1

/-- Open a local scope. -/
def push (s : Scopes) : Scopes := { s with locals := ∅ :: s.locals }

/-- Close the innermost local scope. The global scope stays. -/
def pop (s : Scopes) : Scopes := { s with locals := s.locals.tail }

/-- The innermost scope. -/
def current (s : Scopes) : Scope := s.locals.headD s.globals

/-- Change the innermost scope. -/
def updateCurrent (s : Scopes) (f : Scope → Scope) : Scopes :=
  match s.locals with
  | [] => { s with globals := f s.globals }
  | l :: ls => { s with locals := f l :: ls }

/-- Bind a name in the innermost scope; the binding is no constant. -/
def define (s : Scopes) (name : String) (v : Value) : Scopes :=
  s.updateCurrent (·.insert (Text.lower name) ⟨v, false⟩)

/-- Bind a constant in the innermost scope. -/
def defineConst (s : Scopes) (name : String) (v : Value) : Scopes :=
  s.updateCurrent (·.insert (Text.lower name) ⟨v, true⟩)

/-- Bind a name in the global scope; the binding is no constant. -/
def defineGlobal (s : Scopes) (name : String) (v : Value) : Scopes :=
  { s with globals := s.globals.insert (Text.lower name) ⟨v, false⟩ }

/-- Bind a member without an object. -/
def defineMember (s : Scopes) (owner member : String) (v : Value) : Scopes :=
  s.defineGlobal (memberKey owner member) v

/-- The first binding under a key in a list of scopes. -/
def findIn (key : String) : List Scope → Option Binding
  | [] => none
  | l :: ls => (l.find? key).orElse fun _ => findIn key ls

/-- The binding of a name, innermost first. -/
def binding? (s : Scopes) (name : String) : Option Binding :=
  let key := Text.lower name
  (findIn key s.locals).orElse fun _ => s.globals.find? key

/-- The value of a name, innermost first. -/
def lookup? (s : Scopes) (name : String) : Option Value := (s.binding? name).map (·.value)

/-- The value of a name, or the error that it is not bound. -/
def get (s : Scopes) (name : String) : Fallible Value :=
  match s.lookup? name with
  | some v => .ok v
  | none => .error (.undefinedVariable name)

/-- The value of a name in the global scope. -/
def getGlobal (s : Scopes) (name : String) : Fallible Value :=
  match s.globals.find? (Text.lower name) with
  | some b => .ok b.value
  | none => .error (.undefinedVariable name)

/-- Whether a local scope binds a name. -/
def hasLocal (s : Scopes) (name : String) : Bool := (findIn (Text.lower name) s.locals).isSome

/-- Whether the innermost scope binds a name. -/
def inCurrent (s : Scopes) (name : String) : Bool := s.current.contains (Text.lower name)

/-- Whether the binding that a name finds is a constant. -/
def isConst (s : Scopes) (name : String) : Bool := (s.binding? name).any (·.isConst)

/-- Rebind a key in the first of a list of scopes that binds it; `none` if no scope does. The
caller has made sure that it is no constant. -/
def setIn (key : String) (v : Value) : List Scope → Option (List Scope)
  | [] => none
  | l :: ls =>
    if l.contains key then some (l.insert key ⟨v, false⟩ :: ls)
    else (setIn key v ls).map (l :: ·)

/-- Rebind a name where it is bound, innermost first. Constants stay, and no name is created. -/
def set (s : Scopes) (name : String) (v : Value) : Fallible Scopes :=
  let key := Text.lower name
  match s.binding? name with
  | none => .error (.undefinedVariable name)
  | some b =>
    if b.isConst then .error (.custom ("Cannot assign to constant '" ++ name ++ "'"))
    else match setIn key v s.locals with
      | some locals => .ok { s with locals }
      | none => .ok { s with globals := s.globals.insert key ⟨v, false⟩ }

/-- A member: the flattened key first, then the field of the object that the owner names. -/
def lookupMember (s : Scopes) (h : Heap) (owner member : String) : Fallible Value :=
  match s.lookup? (memberKey owner member) with
  | some v => .ok v
  | none => do
    match ← s.get owner with
    | .object r =>
      match h.get? r member with
      | some v => return v
      | none => throw (.undefinedVariable member)
    | v => throw (.typeMismatch "Object" v.typeName)

/-- The names of the global scope in order. -/
def globalNames (s : Scopes) : List String := s.globals.sortedNames

end Scopes

end FormBasic
