import FormBasic.Value

/-!
# The heap

The fields of all instances, and the tags of arrays. Field names are looked up in lower case.
-/

namespace FormBasic

/-- The fields of one instance. -/
abbrev Fields := Table Value

/-- All instances that exist, and the number of array tags given out. -/
structure Heap where
  instances : Array Fields := #[]
  tags : Nat := 0
deriving Inhabited

namespace Heap

/-- The fields of an instance. -/
def fields (h : Heap) (r : ObjectRef) : Fields := h.instances.getD r.index ∅

/-- Change the fields of an instance. An instance that is written exists from then on. -/
def updateFields (h : Heap) (r : ObjectRef) (f : Fields → Fields) : Heap :=
  { h with instances := (h.instances.rightpad (r.index + 1) ∅).modify r.index f }

/-- Read a field. -/
def get? (h : Heap) (r : ObjectRef) (name : String) : Option Value :=
  (h.fields r).find? (Text.lower name)

/-- Write a field. -/
def set (h : Heap) (r : ObjectRef) (name : String) (v : Value) : Heap :=
  h.updateFields r (·.insert (Text.lower name) v)

/-- Remove a field. -/
def erase (h : Heap) (r : ObjectRef) (name : String) : Heap :=
  h.updateFields r (·.erase (Text.lower name))

/-- A new instance without fields. -/
def alloc (h : Heap) (className : String) : ObjectRef × Heap :=
  (⟨h.instances.size, className⟩, { h with instances := h.instances.push ∅ })

/-- A new array. -/
def allocArray (h : Heap) (elements : List Value) : Value × Heap :=
  (.array h.tags elements, { h with tags := h.tags + 1 })

/-- The `name` field of an instance as a text. -/
def nameOf? (h : Heap) (r : ObjectRef) : Option String := (h.get? r "name").map Value.toText

end Heap

end FormBasic
