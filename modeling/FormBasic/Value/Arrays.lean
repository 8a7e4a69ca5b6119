import FormBasic.Evaluator
import FormBasic.Value.Coerce

/-!
# Arrays

Building arrays of given bounds and replacing elements. Arrays of several dimensions are arrays of
arrays. Every array that is built, also by replacing an element, has a fresh tag.
-/

namespace FormBasic

/-- A step that may use up array tags. -/
abbrev Tagged := StateM Nat

/-- A new array. -/
def freshArray (elements : List Value) : Tagged Value :=
  modifyGet fun tag => (.array tag elements, tag + 1)

/-- The number of elements for an upper bound; a negative bound below `-1` counts as none. -/
def boundSize (bound : Int) : Nat := (bound + 1).toNat

/-- An array with the given upper bounds, one per dimension, whose elements all start with a
value. -/
def newArray (start : Value) : (bounds : List Int) → Tagged Value
  | [] => pure start
  | b :: bs => do
    let elements ← (List.replicate (boundSize b) ()).mapM fun _ => newArray start bs
    freshArray elements

/-- Replace the element at an index list; the arrays on the way are rebuilt. -/
def withElement (v : Value) : (indices : List Int) → (element : Value) → StateT Nat Fallible Value
  | [], element => pure element
  | i :: is, element =>
    match v with
    | .array _ elements =>
      let outside : Cause := .custom ("Array index " ++ Decimal.intText i ++ " out of bounds")
      if i < 0 then throw outside
      else match elements[i.toNat]? with
        | none => throw outside
        | some old => do
          let new ← withElement old is element
          let tag ← get
          set (tag + 1)
          return .array tag (elements.set i.toNat new)
    | v => throw (.typeMismatch "Array" v.typeName)

/-- The upper bound of a dimension; dimensions after the first are looked up in the first element,
and an empty array ends the walk. -/
def upperBound (name : String) : (steps : Nat) → Value → Fallible Int
  | 0, .array _ elements => .ok (elements.length - 1)
  | steps + 1, .array _ elements =>
    match elements with
    | [] => .ok (-1)
    | e :: _ => upperBound name steps e
  | _, v => .error (.custom ("argument to " ++ name ++ " must be Array, got " ++ v.typeName))

/-- Copy the elements of an old array over those of a new one, as far as both go. -/
def overlay : (new old : List Value) → List Value
  | _ :: new, o :: old => o :: overlay new old
  | new, _ => new

end FormBasic
