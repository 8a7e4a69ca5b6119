import FormBasic.Proofs.Heap
import FormBasic.Proofs.Scope
import FormBasic.Proofs.Machine.EventHandlers

/-!
# Properties that the host writes

The host names an object by a dotted path, which is walked from a global name through the fields of
instances. If the path leads to an instance, a property that is written is a field of it; if it does
not, the property is bound under a flattened key in the global scope. Reading walks the path again,
so it finds the property only if the write has not moved the path: it must not have replaced a field
on the way. A flattened key moves no path, since the first part of a path has no point in it.

Parts, fields and keys are known by their lower case forms, and taking a path to lower case makes no
difference to where its points are.

## Main definitions

* `State.passed` — the instances on the way to the one that a path leads to

## Main results

* `moduleParts_lower` — the parts of a path in lower case
* `State.resolvePath_set`, `State.resolvePath_defineMember` — what moves no path
* `State.property_reads_back` — writing a property and reading it in any letter case
-/

namespace FormBasic

/-! ### Paths in lower case -/

theorem isMark_point : Text.IsMark '.' := by decide

/-- The parts of a path in lower case are those of the path in lower case. -/
theorem moduleParts_lower (path : String) :
    moduleParts (Text.lower path) = (moduleParts path).map Text.lower := by
  rw [moduleParts, moduleParts, Text.lower, String.toList_ofList,
    Text.splitOn_map (Text.lowerChar_eq_iff isMark_point), List.map_map, List.map_map]
  refine List.map_congr_left fun p _ => ?_
  simp [Text.lower]

theorem not_point_mem_of_mem_moduleParts {path part : String} (h : part ∈ moduleParts path) :
    '.' ∉ part.toList := by
  obtain ⟨p, hp, rfl⟩ := List.mem_map.1 h
  rw [String.toList_ofList]
  exact Text.not_mem_of_mem_splitOn hp

theorem map_lower_moduleParts {path path' : String} (h : Text.lower path' = Text.lower path) :
    (moduleParts path').map Text.lower = (moduleParts path).map Text.lower := by
  rw [← moduleParts_lower, ← moduleParts_lower, h]

namespace State

variable {s : State} {path path' property property' : String} {v : Value} {r : ObjectRef}

/-! ### Walks -/

/-- The instances that a walk goes through before it comes to its last one. -/
def walkedPast (h : Heap) : Value → List String → List ObjectRef
  | .object r, name :: names => r :: ((h.get? r name).elim [] (walkedPast h · names))
  | _, _ => []

/-- The instances on the way to the one that a path leads to. -/
def passed (s : State) (path : String) : List ObjectRef :=
  match moduleParts path with
  | [] => []
  | name :: names => (s.scopes.lookup? name).elim [] (walkedPast s.heap · names)

theorem walk_congr (h : Heap) (w : Value) {names names' : List String}
    (hnames : names'.map Text.lower = names.map Text.lower) : walk h w names' = walk h w names := by
  induction names generalizing w names' with
  | nil =>
    rw [List.map_nil, List.map_eq_nil_iff] at hnames
    rw [hnames]
  | cons name names ih =>
    cases names' with
    | nil => cases hnames
    | cons name' names' =>
      obtain ⟨hname, hrest⟩ := List.cons_eq_cons.1 hnames
      cases w with
      | object q =>
        rw [walk, walk, h.get?_of_lower q hname]
        exact congrArg _ (funext fun w => ih w hrest)
      | _ => rfl

/-- A walk does not notice a change of a field in an instance that it does not leave by a field. -/
theorem walk_set (h : Heap) (r : ObjectRef) (name : String) (v w : Value) (names : List String)
    (hpast : ∀ q ∈ walkedPast h w names, q.index ≠ r.index) :
    walk (h.set r name v) w names = walk h w names := by
  induction names generalizing w with
  | nil => cases w <;> rfl
  | cons other names ih =>
    cases w with
    | object q =>
      rw [walkedPast] at hpast
      have hq : (h.set r name v).get? q other = h.get? q other := by
        rw [Heap.get?_set, if_neg fun hsame => hpast q List.mem_cons_self hsame.1.symm]
      rw [walk, walk, hq]
      cases hfield : h.get? q other with
      | none => rfl
      | some w =>
        rw [hfield] at hpast
        exact ih w fun q hq => hpast q (List.mem_cons_of_mem _ hq)
    | _ => rfl

/-! ### Paths -/

/-- A path leads to the same instance in any letter case. -/
theorem resolvePath_of_lower (s : State) (h : Text.lower path' = Text.lower path) :
    s.resolvePath path' = s.resolvePath path := by
  have hparts := map_lower_moduleParts h
  unfold resolvePath
  cases hpath : moduleParts path with
  | nil =>
    rw [hpath, List.map_nil, List.map_eq_nil_iff] at hparts
    rw [hparts]
  | cons name names =>
    rw [hpath] at hparts
    cases hpath' : moduleParts path' with
    | nil =>
      rw [hpath'] at hparts
      cases hparts
    | cons name' names' =>
      rw [hpath'] at hparts
      obtain ⟨hname, hnames⟩ := List.cons_eq_cons.1 hparts
      dsimp only
      rw [s.scopes.lookup?_of_lower hname]
      exact congrArg _ (funext fun w => walk_congr s.heap w hnames)

/-- A path is not moved by a field of an instance that is not on its way. -/
theorem resolvePath_set (hpassed : ∀ q ∈ s.passed path, q.index ≠ r.index) :
    resolvePath { s with heap := s.heap.set r property v } path = s.resolvePath path := by
  unfold resolvePath
  unfold passed at hpassed
  split
  · rfl
  · next name names hparts =>
    rw [hparts] at hpassed
    dsimp only at hpassed ⊢
    cases hlookup : s.scopes.lookup? name with
    | none => rfl
    | some w =>
      rw [hlookup] at hpassed
      exact walk_set s.heap r property v w names hpassed

theorem point_mem_memberKey (owner member : String) :
    '.' ∈ (Text.lower (memberKey owner member)).toList := by
  rw [Text.mem_lower_iff isMark_point, memberKey]
  simp [String.toList_append]

/-- No path is moved by a binding under a flattened key. -/
theorem resolvePath_defineMember (s : State) (owner member : String) (v : Value) (path : String) :
    resolvePath { s with scopes := s.scopes.defineMember owner member v } path =
      s.resolvePath path := by
  unfold resolvePath
  split
  · rfl
  · next name names hparts =>
    have hname : Text.lower (memberKey owner member) ≠ Text.lower name := by
      intro heq
      have hpoint := point_mem_memberKey owner member
      rw [heq, Text.mem_lower_iff isMark_point] at hpoint
      exact not_point_mem_of_mem_moduleParts (hparts ▸ List.mem_cons_self) hpoint
    have hlookup : (s.scopes.defineMember owner member v).lookup? name =
        s.scopes.lookup? name := by
      simp only [Scopes.lookup?, Scopes.binding?, Scopes.defineMember, Scopes.defineGlobal,
        Table.find?_insert, if_neg hname]
    dsimp only
    rw [hlookup]

/-! ### Writing and reading -/

theorem setProperty_of_some (h : s.resolvePath path = some r) :
    s.setProperty path property v = { s with heap := s.heap.set r property v } := by
  rw [setProperty, h]

theorem setProperty_of_none (h : s.resolvePath path = none) :
    s.setProperty path property v =
      { s with scopes := s.scopes.defineMember path property v } := by
  rw [setProperty, h]

theorem getProperty_of_some (h : s.resolvePath path = some r)
    (hfield : s.heap.get? r property = some v) : s.getProperty path property = .ok v := by
  rw [getProperty, h, Option.bind_some, hfield]

theorem getProperty_of_none (h : s.resolvePath path = none)
    (hkey : s.scopes.lookup? (memberKey path property) = some v) :
    s.getProperty path property = .ok v := by
  rw [getProperty, h, Option.bind_none, Scopes.lookupMember, hkey]

/-- Writing a property and reading it. At global depth, where a path leads to no instance that it
has gone through before, what has been written is read back in any letter case of the path and of
the property. No effect is queued, and one thing changes: one field of the instance that the path
leads to, or, if it leads to none, the global binding under the flattened key. -/
theorem property_reads_back (s : State) (path property : String) (v : Value)
    (hroot : s.scopes.locals = [])
    (hpassed : ∀ r, s.resolvePath path = some r → ∀ q ∈ s.passed path, q.index ≠ r.index) :
    (∀ path' property', Text.lower path' = Text.lower path →
      Text.lower property' = Text.lower property →
      (s.setProperty path property v).getProperty path' property' = .ok v) ∧
    (s.setProperty path property v).effects = s.effects ∧
    (∀ r, s.resolvePath path = some r →
      ∃ heap, s.setProperty path property v = { s with heap } ∧ heap.tags = s.heap.tags ∧
        (r.index < s.heap.instances.size → heap.instances.size = s.heap.instances.size) ∧
        ∀ q key, (heap.fields q).find? key =
          if r.index = q.index ∧ Text.lower property = key then some v
          else (s.heap.fields q).find? key) ∧
    (s.resolvePath path = none →
      ∃ globals, s.setProperty path property v = { s with scopes := { s.scopes with globals } } ∧
        ∀ key, globals.find? key =
          if Text.lower (memberKey path property) = key then some ⟨v, false⟩
          else s.scopes.globals.find? key) := by
  refine ⟨fun path' property' hpath hproperty => ?_, ?_, fun r hr => ?_, fun hnone => ?_⟩
  · cases hresolve : s.resolvePath path with
    | some r =>
      rw [setProperty_of_some hresolve]
      refine getProperty_of_some (r := r) ?_ ?_
      · rw [resolvePath_of_lower _ hpath, resolvePath_set (hpassed r hresolve), hresolve]
      · rw [Heap.get?_of_lower _ r hproperty, Heap.get?_set_self]
    | none =>
      rw [setProperty_of_none hresolve]
      refine getProperty_of_none ?_ ?_
      · rw [resolvePath_of_lower _ hpath, resolvePath_defineMember, hresolve]
      · have hkey : memberKey path' property' = memberKey path property := by
          rw [memberKey, memberKey, hpath, hproperty]
        rw [hkey]
        refine Scopes.lookup?_defineGlobal v ?_
        rw [Scopes.hasLocal, hroot]
        rfl
  · cases hresolve : s.resolvePath path with
    | some r => rw [setProperty_of_some hresolve]
    | none => rw [setProperty_of_none hresolve]
  · refine ⟨_, setProperty_of_some hr, rfl, fun hsize => ?_, fun q key => ?_⟩
    · rw [Heap.set, Heap.updateFields, Array.size_modify, Array.size_rightpad]
      omega
    · rw [Heap.set, Heap.fields_updateFields]
      by_cases hq : r.index = q.index
      · rw [if_pos hq, Table.find?_insert]
        simp only [hq, true_and]
      · rw [if_neg hq, if_neg fun hsame => hq hsame.1]
  · exact ⟨_, setProperty_of_none hnone, fun key => Table.find?_insert _ _ _ _⟩

/-- A form with a text box. -/
def withTextBox : State where
  scopes := ({} : Scopes).defineGlobal "Form1" (.object ⟨0, "Form1"⟩)
  heap := (({} : Heap).set ⟨0, "Form1"⟩ "txtName" (.object ⟨1, "TextBox"⟩)).set ⟨1, "TextBox"⟩
    "Text" (.text "before")

/-- The text of the box is written and read, and the form is not changed. -/
theorem property_reads_back_textBox :
    (withTextBox.setProperty "Form1.txtName" "Text" (.text "after")).getProperty "FORM1.TXTNAME"
      "text" = .ok (.text "after") ∧
    (withTextBox.setProperty "Form1.txtName" "Text" (.text "after")).effects = #[] := by
  have hresolve : withTextBox.resolvePath "Form1.txtName" = some ⟨1, "TextBox"⟩ := by rfl
  have hpassed : withTextBox.passed "Form1.txtName" = [⟨0, "Form1"⟩] := by rfl
  obtain ⟨hread, heffects, -⟩ := property_reads_back withTextBox "Form1.txtName" "Text"
    (.text "after") rfl fun r hr q hq => by
      rw [hresolve, Option.some.injEq] at hr
      rw [hpassed, List.mem_singleton] at hq
      rw [← hr, hq]
      decide
  exact ⟨hread _ _ (by decide) (by decide), heffects⟩

end State

end FormBasic
