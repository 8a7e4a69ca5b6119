import FormBasic.Heap

/-!
# Laws of the heap

Writing a field changes this field of this instance, and nothing else. The law needs no condition,
since an instance that is written exists from then on. A new instance has no fields, and making it
leaves all fields as they are. Neither takes a field away.

## Main results

* `Heap.get?_set` — reading a field after writing one
* `Heap.get?_alloc`, `Heap.get?_alloc_self` — reading a field after making an instance
* `Heap.grows_set`, `Heap.grows_alloc` — the fields of a heap remain
-/

namespace FormBasic.Heap

theorem fields_updateFields (h : Heap) (r r' : ObjectRef) (f : Fields → Fields) :
    (h.updateFields r f).fields r' =
      if r.index = r'.index then f (h.fields r') else h.fields r' := by
  have hpad : ∀ i : Nat,
      (h.instances.rightpad (r.index + 1) ∅).getD i ∅ = h.instances.getD i ∅ := by
    intro i
    simp only [Array.getD_eq_getD_getElem?, Array.rightpad, Array.getElem?_append]
    split
    · rfl
    · next hi =>
      rw [Array.getElem?_replicate, Array.getElem?_eq_none (by omega)]
      split <;> rfl
  have hsize : r.index < (h.instances.rightpad (r.index + 1) ∅).size := by
    rw [Array.size_rightpad]
    omega
  simp only [fields, updateFields, Array.getD_eq_getD_getElem?, Array.getElem?_modify]
  split
  · next hr =>
    rw [← hr, ← Array.getD_eq_getD_getElem?, ← hpad, Array.getD_eq_getD_getElem?,
      Array.getElem?_eq_getElem hsize]
    rfl
  · rw [← Array.getD_eq_getD_getElem?, ← Array.getD_eq_getD_getElem?, hpad]

theorem get?_set (h : Heap) (r r' : ObjectRef) (name other : String) (v : Value) :
    (h.set r name v).get? r' other =
      if r.index = r'.index ∧ Text.lower name = Text.lower other then some v
      else h.get? r' other := by
  rw [get?, set, fields_updateFields]
  by_cases hr : r.index = r'.index
  · simp only [hr, if_true, true_and, Table.find?_insert]
    rfl
  · simp only [hr, if_false, false_and]
    rfl

theorem fields_alloc (h : Heap) (className : String) (r : ObjectRef) :
    (h.alloc className).2.fields r = h.fields r := by
  simp only [fields, alloc, Array.getD_eq_getD_getElem?, Array.getElem?_push]
  split
  · next hr => rw [hr, Array.getElem?_eq_none (Nat.le_refl _)]; rfl
  · rfl

theorem get?_alloc (h : Heap) (className : String) (r : ObjectRef) (name : String) :
    (h.alloc className).2.get? r name = h.get? r name := by
  rw [get?, fields_alloc]
  rfl

theorem className_alloc (h : Heap) (className : String) :
    (h.alloc className).1.className = className := rfl

theorem get?_alloc_self (h : Heap) (className name : String) :
    h.get? (h.alloc className).1 name = none := by
  have hfields : h.fields (h.alloc className).1 = ∅ := by
    simp only [fields, alloc, Array.getD_eq_getD_getElem?,
      Array.getElem?_eq_none (Nat.le_refl _), Option.getD_none]
  rw [get?, hfields]
  rfl

theorem get?_tags (h : Heap) (tags : Nat) (r : ObjectRef) (name : String) :
    get? { h with tags } r name = h.get? r name := rfl

/-- Fields are found in any letter case. -/
theorem get?_of_lower (h : Heap) (r : ObjectRef) {name other : String}
    (hname : Text.lower name = Text.lower other) : h.get? r name = h.get? r other := by
  rw [get?, get?, hname]

theorem get?_set_self (h : Heap) (r : ObjectRef) (name : String) (v : Value) :
    (h.set r name v).get? r name = some v := by
  rw [get?_set, if_pos ⟨rfl, rfl⟩]

theorem get?_set_of_ne (h : Heap) (r r' : ObjectRef) {name other : String} (v : Value)
    (hname : Text.lower name ≠ Text.lower other) :
    (h.set r name v).get? r' other = h.get? r' other := by
  rw [get?_set, if_neg fun hsame => hname hsame.2]

/-! ### Growth -/

/-- A heap with the instances and the fields of another one, and perhaps more. -/
structure Grows (h h' : Heap) : Prop where
  size_le : h.instances.size ≤ h'.instances.size
  fields : ∀ r key, ((h.fields r).find? key).isSome = true →
    ((h'.fields r).find? key).isSome = true

theorem Grows.refl (h : Heap) : h.Grows h := ⟨Nat.le_refl _, fun _ _ hfield => hfield⟩

theorem Grows.trans {h h' h'' : Heap} (hg : h.Grows h') (hg' : h'.Grows h'') : h.Grows h'' :=
  ⟨Nat.le_trans hg.size_le hg'.size_le,
    fun r key hfield => hg'.fields r key (hg.fields r key hfield)⟩

theorem grows_of_instances {h h' : Heap} (heq : h'.instances = h.instances) : h.Grows h' := by
  refine ⟨Nat.le_of_eq (congrArg Array.size heq.symm), fun r key hfield => ?_⟩
  rwa [fields, heq]

theorem grows_set (h : Heap) (r : ObjectRef) (name : String) (v : Value) :
    h.Grows (h.set r name v) := by
  refine ⟨?_, fun r' key hfield => ?_⟩
  · rw [set, updateFields, Array.size_modify, Array.size_rightpad]
    exact Nat.le_max_right _ _
  · rw [set, fields_updateFields]
    split
    · rw [Table.find?_insert]
      split
      · rfl
      · exact hfield
    · exact hfield

theorem grows_alloc (h : Heap) (className : String) : h.Grows (h.alloc className).2 := by
  refine ⟨?_, fun r key hfield => ?_⟩
  · rw [alloc, Array.size_push]
    exact Nat.le_succ _
  · rwa [fields_alloc]

end FormBasic.Heap
