import FormBasic.Scope

/-!
# The environment

The bindings of names as an environment keeps them: one stack of scopes, the global scope at its
bottom, and in each scope two tables, the values of the names and, apart from them, the marks of the
constants. Nothing but the operations sees to it that a marked name has a value and that the global
scope is on the stack. A name stands in any letter case.

Programs run on `Scopes`, where neither can fail; `Environment.toScopes` in
`FormBasic.Proofs.Environment.View` compares the two.
-/

namespace FormBasic

/-- One scope of the stack. -/
structure Environment.Level where
  /-- the values of the names -/
  bindings : Table Value := ∅
  /-- the marks of the constants; a name without one is not marked -/
  constants : Table Bool := ∅
deriving Inhabited

namespace Environment.Level

/-- Whether a key is marked as a constant. -/
def isMarked (l : Level) (key : String) : Bool := (l.constants.find? key).getD false

/-- Bind a key, and remove its mark. -/
def define (l : Level) (key : String) (v : Value) : Level :=
  ⟨l.bindings.insert key v, l.constants.erase key⟩

/-- Bind a key, and mark it. -/
def defineConst (l : Level) (key : String) (v : Value) : Level :=
  ⟨l.bindings.insert key v, l.constants.insert key true⟩

/-- Give a key another value. -/
def rebind (l : Level) (key : String) (v : Value) : Level :=
  { l with bindings := l.bindings.insert key v }

end Environment.Level

/-- The stack of scopes, outermost first. It starts with the global scope alone. -/
structure Environment where
  scopes : List Environment.Level := [{}]
deriving Inhabited

namespace Environment

/-- Number of scopes, the global one included. -/
def depth (e : Environment) : Nat := e.scopes.length

/-- Open a local scope. -/
def push (e : Environment) : Environment := ⟨e.scopes ++ [({} : Level)]⟩

/-- Close the innermost scope, unless it is the only one. -/
def pop (e : Environment) : Environment :=
  if 1 < e.depth then ⟨e.scopes.dropLast⟩ else e

/-- Change the scope at an index. -/
def modify (e : Environment) (i : Nat) (f : Level → Level) : Environment := ⟨e.scopes.modify i f⟩

/-- Bind a name in the innermost scope; it is no constant. -/
def define (e : Environment) (name : String) (v : Value) : Environment :=
  e.modify (e.depth - 1) (·.define (Text.lower name) v)

/-- Bind a constant in the innermost scope. -/
def defineConst (e : Environment) (name : String) (v : Value) : Environment :=
  e.modify (e.depth - 1) (·.defineConst (Text.lower name) v)

/-- Bind a name in the global scope; it is no constant. -/
def defineGlobal (e : Environment) (name : String) (v : Value) : Environment :=
  e.modify 0 (·.define (Text.lower name) v)

/-- Bind a member without an object. -/
def defineMember (e : Environment) (owner member : String) (v : Value) : Environment :=
  e.defineGlobal (memberKey owner member) v

/-- The value of a key in the scope at an index. -/
def find? (e : Environment) (i : Nat) (key : String) : Option Value :=
  e.scopes[i]?.bind (·.bindings.find? key)

/-- Whether a key is marked as a constant in the scope at an index. -/
def isMarked (e : Environment) (i : Nat) (key : String) : Bool :=
  e.scopes[i]?.any (·.isMarked key)

/-- The first scope that binds a key, from below an index outwards. -/
def innermostBelow? (e : Environment) (key : String) : Nat → Option Nat
  | 0 => none
  | i + 1 => if (e.find? i key).isSome then some i else e.innermostBelow? key i

/-- The scope in which a name is found: the innermost one that binds it. -/
def innermost? (e : Environment) (name : String) : Option Nat :=
  e.innermostBelow? (Text.lower name) e.depth

/-- Rebind a name where it is found, and why this fails if it does: no name is created, and a
constant stays. -/
def set (e : Environment) (name : String) (v : Value) : Environment × Option Cause :=
  let key := Text.lower name
  match e.innermost? name with
  | none => (e, some (.undefinedVariable name))
  | some i =>
    if e.isMarked i key then (e, some (.custom ("Cannot assign to constant '" ++ name ++ "'")))
    else (e.modify i (·.rebind key v), none)

/-- The value of a name. -/
def lookup? (e : Environment) (name : String) : Option Value :=
  (e.innermost? name).bind (e.find? · (Text.lower name))

/-- The value of a name, or the error that it is not bound. -/
def get (e : Environment) (name : String) : Fallible Value :=
  match e.lookup? name with
  | some v => .ok v
  | none => .error (.undefinedVariable name)

/-- The value of a name in the global scope. -/
def getGlobal (e : Environment) (name : String) : Fallible Value :=
  match e.find? 0 (Text.lower name) with
  | some v => .ok v
  | none => .error (.undefinedVariable name)

/-- Whether a scope other than the global one binds a name. -/
def hasLocal (e : Environment) (name : String) : Bool := (e.innermost? name).any (1 ≤ ·)

/-- Whether the innermost scope binds a name. -/
def inCurrent (e : Environment) (name : String) : Bool :=
  (e.find? (e.depth - 1) (Text.lower name)).isSome

/-- Whether a name is a constant in the scope in which it is found. -/
def isConst (e : Environment) (name : String) : Bool :=
  (e.innermost? name).any (e.isMarked · (Text.lower name))

/-- A member: the flattened key first, then the field of the object that the owner names. -/
def lookupMember (e : Environment) (h : Heap) (owner member : String) : Fallible Value :=
  match e.lookup? (memberKey owner member) with
  | some v => .ok v
  | none => do
    match ← e.get owner with
    | .object r =>
      match h.get? r member with
      | some v => return v
      | none => throw (.undefinedVariable member)
    | v => throw (.typeMismatch "Object" v.typeName)

/-- The names of the global scope in order. -/
def globalNames (e : Environment) : List String :=
  (e.scopes.headD {}).bindings.sortedNames

end Environment

end FormBasic
