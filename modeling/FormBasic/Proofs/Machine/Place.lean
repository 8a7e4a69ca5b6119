import FormBasic.Proofs.Heap
import FormBasic.Proofs.Machine.Watch
import FormBasic.Proofs.Scope

/-!
# Where data is kept

Names are read and assigned by two searches: reading looks for data and then for properties, and an
assignment settles its target in another order and leaves out what is not there. What the two have
in common is the *place* at which the data of a name is kept: a key of a local scope or of the
global scope, or a field of the current object. `State.place?` is the place of a name, and both
searches find it.

A place is all that an assignment to data changes (`State.Writes`), so that what other names stand
for depends on nothing but whether their places are the same. And no run takes a place away
(`State.Retains`): what is data before an expression is evaluated is data afterwards, though it may
have come to be kept elsewhere.

## Main definitions

* `Place`, `State.kept?`, `State.place?` — places, what is kept there, and the place of a name
* `State.Writes` — a value is written to a place
* `State.Retains` — a state with the context, the declarations and the places of another one

## Main results

* `State.data?_eq_valueAt?` — the data of a name is what is kept in its place
* `State.targetPlace?_target` — an assignment to a name that no property hides goes to its place
* `State.Writes.data?_of_ne` — names with other places stand for what they did
* `Runner.retains_answer` — every run retains
-/

namespace FormBasic

open Interp

/-- Where a value is kept: under a key of the global scope, under a key of the local scope at a
level, or in a field of an instance. -/
inductive Place where
  | globalKey (key : String)
  | localKey (level : Nat) (key : String)
  | field (index : Nat) (key : String)
deriving DecidableEq

/-- Whether an assignment to a target runs an accessor. -/
def Target.isProperty : Target → Bool
  | .property _ _ _ | .moduleProperty _ _ => true
  | _ => false

namespace State

/-! ### Places of names -/

/-- What is kept in a place. -/
def kept? (s : State) : Place → Option Binding
  | .globalKey key => s.scopes.globals.find? key
  | .localKey level key => s.scopes.bindingAt? level key
  | .field index key => ((s.heap.fields ⟨index, ""⟩).find? key).map (⟨·, false⟩)

/-- The value in a place. -/
def valueAt? (s : State) (p : Place) : Option Value := (s.kept? p).map (·.value)

/-- The place in the scopes at which a name is bound. -/
def scopePlace? (s : State) (name : String) : Option Place :=
  match s.scopes.level? (Text.lower name) with
  | some level => some (.localKey level (Text.lower name))
  | none =>
    if (s.kept? (.globalKey (Text.lower name))).isSome then some (.globalKey (Text.lower name))
    else none

/-- The place of a field of the current object. -/
def fieldPlace? (s : State) (name : String) : Option Place :=
  (s.context.self.map fun self => Place.field self.index (Text.lower name)).filter
    fun p => (s.kept? p).isSome

/-- The place of the data that a name stands for. -/
def place? (s : State) (name : String) : Option Place :=
  if (s.scopes.level? (Text.lower name)).isSome then s.scopePlace? name
  else (s.fieldPlace? name).or <| (s.scopePlace? name).or <|
    (s.moduleKeys name).findSome? s.scopePlace?

variable {s t : State} {name : String} {p : Place}

theorem hasLocal_eq (s : State) (name : String) :
    s.scopes.hasLocal name = (s.scopes.level? (Text.lower name)).isSome := by
  rw [Scopes.hasLocal, Scopes.findIn_eq_bindingAt? s.scopes.globals]
  cases hlevel : s.scopes.level? (Text.lower name) with
  | none => rfl
  | some level => exact Scopes.isSome_of_topLevel? hlevel

theorem binding?_eq_kept? (s : State) (name : String) :
    s.scopes.binding? name = (s.scopePlace? name).bind s.kept? := by
  rw [Scopes.binding?, Scopes.findIn_eq_bindingAt? s.scopes.globals, scopePlace?]
  cases hlevel : s.scopes.level? (Text.lower name) with
  | none =>
    rw [Option.bind_none, Option.orElse_none]
    dsimp only
    split
    · rfl
    · next hnone =>
      have hnone : s.scopes.globals.find? (Text.lower name) = none := by
        simpa [kept?] using hnone
      rw [hnone]
      rfl
  | some level =>
    obtain ⟨b, hb⟩ := Option.isSome_iff_exists.1 (Scopes.isSome_of_topLevel? hlevel)
    simp only [Option.bind_some, kept?, hb, Option.orElse_some]

theorem isSome_kept?_of_scopePlace? (h : s.scopePlace? name = some p) :
    (s.kept? p).isSome = true := by
  unfold scopePlace? at h
  split at h
  · next hlevel =>
    cases h
    exact Scopes.isSome_of_topLevel? hlevel
  · split at h
    · next hkept =>
      cases h
      exact hkept
    · cases h

theorem lookup?_eq_valueAt? (s : State) (name : String) :
    s.scopes.lookup? name = (s.scopePlace? name).bind s.valueAt? := by
  rw [Scopes.lookup?, binding?_eq_kept?]
  cases s.scopePlace? name <;> rfl

theorem isSome_lookup? (s : State) (name : String) :
    (s.scopes.lookup? name).isSome = (s.scopePlace? name).isSome := by
  rw [lookup?_eq_valueAt?]
  cases h : s.scopePlace? name with
  | none => rfl
  | some p => simpa [valueAt?] using isSome_kept?_of_scopePlace? h

theorem get?_eq_valueAt? (h : Heap) (r : ObjectRef) (name : String) :
    h.get? r name = valueAt? { heap := h } (.field r.index (Text.lower name)) := by
  simp [valueAt?, kept?, Heap.get?, Heap.fields, Function.comp_def]

theorem exists_valueAt?_of_scopePlace? (h : s.scopePlace? name = some p) :
    ∃ v, s.valueAt? p = some v := by
  obtain ⟨b, hb⟩ := Option.isSome_iff_exists.1 (isSome_kept?_of_scopePlace? h)
  exact ⟨b.value, by rw [valueAt?, hb]; rfl⟩

/-- The first of a list of keys that is bound is the first one that has a place. -/
theorem firstBound_cases (s : State) (keys : List String) :
    (firstBound s.scopes keys = none ∧ keys.findSome? s.scopePlace? = none) ∨
    ∃ key v p, firstBound s.scopes keys = some (key, v) ∧
      keys.findSome? s.scopePlace? = some p ∧ s.scopePlace? key = some p ∧
      s.valueAt? p = some v := by
  induction keys with
  | nil => exact .inl ⟨rfl, rfl⟩
  | cons key keys ih =>
    rw [firstBound, List.findSome?_cons, lookup?_eq_valueAt?]
    cases hplace : s.scopePlace? key with
    | none => exact ih
    | some p =>
      obtain ⟨v, hv⟩ := exists_valueAt?_of_scopePlace? hplace
      rw [Option.bind_some, hv]
      exact .inr ⟨key, v, p, rfl, rfl, hplace, hv⟩

theorem isSome_kept?_of_fieldPlace? (h : s.fieldPlace? name = some p) :
    (s.kept? p).isSome = true :=
  (Option.filter_eq_some_iff.1 h).2

theorem isSome_kept?_of_place? (h : s.place? name = some p) : (s.kept? p).isSome = true := by
  unfold place? at h
  split at h
  · exact isSome_kept?_of_scopePlace? h
  · rcases Option.or_eq_some_iff.1 h with h | ⟨-, h⟩
    · exact isSome_kept?_of_fieldPlace? h
    · rcases Option.or_eq_some_iff.1 h with h | ⟨-, h⟩
      · exact isSome_kept?_of_scopePlace? h
      · obtain ⟨key, -, hkey⟩ := List.exists_of_findSome?_eq_some h
        exact isSome_kept?_of_scopePlace? hkey

theorem exists_valueAt? (h : s.place? name = some p) : ∃ v, s.valueAt? p = some v := by
  obtain ⟨b, hb⟩ := Option.isSome_iff_exists.1 (isSome_kept?_of_place? h)
  exact ⟨b.value, by rw [valueAt?, hb]; rfl⟩

/-- A field of the current object is found in its place. -/
theorem bind_get?_eq_valueAt? (s : State) (name : String) :
    s.context.self.bind (s.heap.get? · name) = (s.fieldPlace? name).bind s.valueAt? := by
  unfold fieldPlace?
  cases s.context.self with
  | none => rfl
  | some self =>
    rw [Option.bind_some, get?_eq_valueAt?, Option.map_some, Option.filter_some]
    cases hkept : s.kept? (.field self.index (Text.lower name)) with
    | none => simpa [valueAt?, kept?] using hkept
    | some b =>
      rw [Option.isSome_some, if_pos rfl, Option.bind_some]
      rfl

/-- The data of a name is what is kept in its place. -/
theorem data?_eq_valueAt? (s : State) (name : String) :
    s.data? name = (s.place? name).bind s.valueAt? := by
  unfold data? place?
  rw [hasLocal_eq]
  split
  · exact lookup?_eq_valueAt? s name
  · rw [bind_get?_eq_valueAt?, lookup?_eq_valueAt?]
    cases hfield : s.fieldPlace? name with
    | some p =>
      obtain ⟨b, hb⟩ := Option.isSome_iff_exists.1 (isSome_kept?_of_fieldPlace? hfield)
      simp only [Option.some_or, Option.bind_some, valueAt?, hb, Option.map_some]
    | none =>
      cases hscope : s.scopePlace? name with
      | some p =>
        obtain ⟨v, hv⟩ := exists_valueAt?_of_scopePlace? hscope
        simp only [Option.none_or, Option.some_or, Option.bind_none, Option.bind_some, hv]
      | none =>
        rcases firstBound_cases s (s.moduleKeys name) with
          ⟨hnone, hplaces⟩ | ⟨key, v, p, hfound, hplaces, -, hv⟩
        · simp [moduleVariable?, hnone, hplaces]
        · simp [moduleVariable?, hfound, hplaces, hv]

theorem isSome_data? (s : State) (name : String) :
    (s.data? name).isSome = (s.place? name).isSome := by
  rw [data?_eq_valueAt?]
  cases hplace : s.place? name with
  | none => rfl
  | some p =>
    obtain ⟨v, hv⟩ := exists_valueAt? hplace
    rw [Option.bind_some, hv]
    rfl

/-- Where no field of the current object is meant, a name is found where it is bound. -/
theorem place?_of_scopePlace? (hfield : s.fieldPlace? name = none)
    (hscope : s.scopePlace? name = some p) : s.place? name = some p := by
  rw [place?, hscope, hfield, Option.none_or, Option.some_or, ite_self]

/-- Where no local scope binds a name, it is found in a field of the current object. -/
theorem place?_of_fieldPlace? (hlevel : s.scopes.level? (Text.lower name) = none)
    (hfield : s.fieldPlace? name = some p) : s.place? name = some p := by
  rw [place?, hlevel, hfield, Option.isSome_none, if_neg Bool.false_ne_true, Option.some_or]

theorem level?_eq_none (hplace : s.place? name = none) :
    s.scopes.level? (Text.lower name) = none := by
  unfold place? scopePlace? at hplace
  cases hlevel : s.scopes.level? (Text.lower name) with
  | none => rfl
  | some level =>
    rw [hlevel] at hplace
    cases hplace

theorem fieldPlace?_scopes (s : State) (scopes : Scopes) (name : String) :
    State.fieldPlace? { s with scopes } name = s.fieldPlace? name := by
  unfold fieldPlace?
  cases s.context.self <;> rfl

theorem fieldPlace?_eq_none (hplace : s.place? name = none) : s.fieldPlace? name = none := by
  rw [place?, level?_eq_none hplace, Option.isSome_none, if_neg Bool.false_ne_true] at hplace
  exact (Option.or_eq_none_iff.1 hplace).1

/-! ### Places of targets -/

/-- The place that an assignment goes to, if it goes to data. -/
def targetPlace? (s : State) (name : String) : Target → Option Place
  | .binding key => s.scopePlace? key
  | .field self => some (.field self.index (Text.lower name))
  | _ => none

/-- No property of the current object comes before the data of a name: the name is bound in a local
scope, or there is no such property. -/
def Unhidden (s : State) (name : String) : Prop :=
  s.scopes.hasLocal name = true ∨ s.ownProperty? name = none

/-- An unhidden name is assigned to in its place. -/
theorem targetPlace?_target (hname : s.Unhidden name) :
    s.targetPlace? name (s.target name) = s.place? name := by
  unfold target place?
  rw [Unhidden, hasLocal_eq] at hname
  rw [hasLocal_eq]
  split
  · rfl
  · next hlocal =>
    rw [hname.resolve_left hlocal]
    dsimp only
    have hfield : s.fieldPlace? name =
        (s.context.self.filter fun self => (s.heap.get? self name).isSome).map
          fun self => Place.field self.index (Text.lower name) := by
      unfold fieldPlace?
      cases s.context.self with
      | none => rfl
      | some self =>
        rw [Option.map_some, Option.filter_some, Option.filter_some, get?_eq_valueAt?]
        simp only [valueAt?, Option.isSome_map, kept?]
        split <;> rfl
    rw [hfield]
    split
    · next hself =>
      rw [hself]
      rfl
    · next hself =>
      rw [hself, isSome_lookup?]
      cases hscope : s.scopePlace? name with
      | some p => exact hscope
      | none =>
        rw [Option.map_none, Option.none_or, Option.none_or, Option.isSome_none,
          if_neg Bool.false_ne_true, moduleVariable?]
        rcases firstBound_cases s (s.moduleKeys name) with
          ⟨hnone, hplaces⟩ | ⟨key, v, p, hfound, hplaces, hkey, -⟩
        · rw [hnone, hplaces]
          dsimp only
          split <;> rfl
        · rw [hfound, hplaces]
          exact hkey

/-- An assignment rebinds keys only that are bound. -/
theorem isSome_scopePlace?_of_target {key : String} (h : s.target name = .binding key) :
    (s.scopePlace? key).isSome = true := by
  unfold target at h
  split at h
  · next hlocal =>
    cases h
    rw [hasLocal_eq] at hlocal
    obtain ⟨level, hlevel⟩ := Option.isSome_iff_exists.1 hlocal
    rw [scopePlace?, hlevel]
    rfl
  · split at h
    · cases h
    · split at h
      · cases h
      · split at h
        · next hlookup =>
          cases h
          rwa [isSome_lookup?] at hlookup
        · split at h
          · next found _ hvariable =>
            cases h
            rcases firstBound_cases s (s.moduleKeys name) with
              ⟨hnone, -⟩ | ⟨key', v, p, hfound, -, hkey, -⟩
            · cases hnone.symm.trans hvariable
            · cases hfound.symm.trans hvariable
              rw [hkey]
              rfl
          · split at h <;> cases h

theorem isProperty_target (hown : s.ownProperty? name = none)
    (hmodule : s.moduleProperty? name = none) : (s.target name).isProperty = false := by
  unfold target
  rw [hown, hmodule]
  dsimp only
  repeat' split
  all_goals rfl

theorem unhidden_of_target (h : (s.target name).isProperty = false) : s.Unhidden name := by
  unfold target at h
  split at h
  · next hlocal => exact .inl hlocal
  · split at h
    · cases h
    · next hown => exact .inr hown

/-- A name that stands for nothing has no target. -/
theorem target_eq_missing (h : (s.target name).isProperty = false)
    (hplace : s.place? name = none) : s.target name = .missing := by
  have hnone := (targetPlace?_target (unhidden_of_target h)).trans hplace
  cases htarget : s.target name with
  | missing => rfl
  | binding key =>
    have hsome := isSome_scopePlace?_of_target htarget
    rw [htarget] at hnone
    rw [show s.scopePlace? key = none from hnone] at hsome
    cases hsome
  | field self =>
    rw [htarget] at hnone
    cases hnone
  | _ =>
    rw [htarget] at h
    cases h

/-! ### Writing to a place -/

/-- Something is bound in a place, and nothing else happens. -/
structure Writes (s : State) (p : Place) (b : Binding) (t : State) : Prop where
  rest : t = { s with scopes := t.scopes, heap := t.heap }
  depth : t.scopes.locals.length = s.scopes.locals.length
  tags : t.heap.tags = s.heap.tags
  written : t.kept? p = some b
  others : ∀ q, q ≠ p → t.kept? q = s.kept? q

theorem level?_congr (hdepth : t.scopes.locals.length = s.scopes.locals.length)
    (hkept : ∀ p, (t.kept? p).isSome = (s.kept? p).isSome) (key : String) :
    t.scopes.level? key = s.scopes.level? key := by
  rw [Scopes.level?, Scopes.level?, hdepth]
  exact Scopes.topLevel?_congr fun level _ => hkept (.localKey level key)

/-- The place of a name depends on which places there are. -/
theorem place?_congr (hcontext : t.context = s.context) (hmodules : t.moduleNames = s.moduleNames)
    (hdepth : t.scopes.locals.length = s.scopes.locals.length)
    (hkept : ∀ p, (t.kept? p).isSome = (s.kept? p).isSome) (name : String) :
    t.place? name = s.place? name := by
  have hscope : t.scopePlace? = s.scopePlace? := by
    funext other
    rw [scopePlace?, scopePlace?, level?_congr hdepth hkept, hkept]
  have hfield : t.fieldPlace? name = s.fieldPlace? name := by
    rw [fieldPlace?, fieldPlace?, hcontext]
    simp only [hkept]
  rw [place?, place?, level?_congr hdepth hkept, hscope, hfield, moduleKeys, moduleKeys, hcontext,
    hmodules]

namespace Writes

variable {b : Binding}

theorem isSome_kept? (h : s.Writes p b t) (hp : (s.kept? p).isSome = true) (q : Place) :
    (t.kept? q).isSome = (s.kept? q).isSome := by
  by_cases hq : q = p
  · rw [hq, h.written, hp]
    rfl
  · rw [h.others q hq]

/-- If the place was there before, all names keep their places. -/
theorem place?_eq (h : s.Writes p b t) (hp : (s.kept? p).isSome = true) (name : String) :
    t.place? name = s.place? name := by
  refine place?_congr ?_ ?_ h.depth (h.isSome_kept? hp) name
  · rw [h.rest]
  · rw [h.rest]

/-- A name whose place has been written keeps it. -/
theorem place?_self (h : s.Writes p b t) (hplace : s.place? name = some p) :
    t.place? name = some p :=
  (h.place?_eq (isSome_kept?_of_place? hplace) name).trans hplace

theorem data?_self (h : s.Writes p b t) (hplace : t.place? name = some p) :
    t.data? name = some b.value := by
  rw [data?_eq_valueAt?, hplace, Option.bind_some, valueAt?, h.written]
  rfl

/-- Names with other places stand for what they did. -/
theorem data?_of_ne (h : s.Writes p b t) (hp : (s.kept? p).isSome = true)
    (hne : s.place? name ≠ some p) : t.data? name = s.data? name := by
  rw [data?_eq_valueAt?, data?_eq_valueAt?, h.place?_eq hp]
  cases hplace : s.place? name with
  | none => rfl
  | some q =>
    have hq : q ≠ p := fun heq => hne (hplace.trans (congrArg some heq))
    rw [Option.bind_some, Option.bind_some, valueAt?, valueAt?, h.others q hq]

end Writes

theorem writes_insertGlobal (s : State) (key : String) (b : Binding) :
    s.Writes (.globalKey key) b
      { s with scopes := { s.scopes with globals := s.scopes.globals.insert key b } } := by
  refine ⟨rfl, rfl, rfl, Table.find?_insert_self _ _ _, fun q hq => ?_⟩
  cases q with
  | globalKey other =>
    exact Table.find?_insert_of_ne _ _ fun hkey => hq (congrArg Place.globalKey hkey.symm)
  | _ => rfl

theorem writes_insertLocal {g l : Scope} {inner outer : List Scope}
    (hscopes : s.scopes = ⟨g, inner ++ l :: outer⟩) (key : String) (b : Binding) :
    s.Writes (.localKey outer.length key) b
      { s with scopes := ⟨g, inner ++ l.insert key b :: outer⟩ } := by
  refine ⟨rfl, by simp [hscopes], rfl, ?_, fun q hq => ?_⟩
  · rw [kept?, Scopes.bindingAt?_insert, if_pos ⟨rfl, rfl⟩]
  · cases q with
    | globalKey other => rw [kept?, kept?, hscopes]
    | localKey level other =>
      rw [kept?, kept?, hscopes, Scopes.bindingAt?_insert, if_neg]
      rintro ⟨rfl, rfl⟩
      exact hq rfl
    | field index other => rfl

theorem writes_setField (s : State) (r : ObjectRef) (name : String) (v : Value) :
    s.Writes (.field r.index (Text.lower name)) ⟨v, false⟩
      { s with heap := s.heap.set r name v } := by
  refine ⟨rfl, rfl, rfl, ?_, fun q hq => ?_⟩
  · simp only [kept?, Heap.set, Heap.fields_updateFields, if_true, Table.find?_insert_self,
      Option.map_some]
  · cases q with
    | field index key =>
      simp only [kept?, Heap.set, Heap.fields_updateFields]
      split
      · next hindex =>
        rw [Table.find?_insert_of_ne _ _ fun hkey => hq ?_]
        rw [hindex, hkey]
      · rfl
    | _ => rfl

/-- Rebinding a name writes to its place in the scopes. -/
theorem writes_of_set {key : String} {v : Value} {scopes : Scopes}
    (h : s.scopes.set key v = .ok scopes) :
    ∃ p, s.scopePlace? key = some p ∧ s.Writes p ⟨v, false⟩ { s with scopes } := by
  obtain ⟨inner, l, outer, b, hlocals, hfree, hb, -, rfl⟩ | ⟨b, hfree, hb, -, rfl⟩ :=
    Scopes.set_cases h
  · have hscopes : s.scopes = ⟨s.scopes.globals, inner ++ l :: outer⟩ := by rw [← hlocals]
    have hlevel : s.scopes.level? (Text.lower key) = some outer.length := by
      rw [hscopes]
      exact Scopes.level?_append hfree (by rw [hb]; rfl)
    exact ⟨_, by rw [scopePlace?, hlevel], writes_insertLocal hscopes _ _⟩
  · have hlocal : s.scopes.hasLocal key = false := by rw [Scopes.hasLocal, hfree]; rfl
    have hlevel : s.scopes.level? (Text.lower key) = none := by
      rw [hasLocal_eq] at hlocal
      simpa using hlocal
    have hkept : (s.kept? (.globalKey (Text.lower key))).isSome = true := by rw [kept?, hb]; rfl
    exact ⟨_, by rw [scopePlace?, hlevel]; exact if_pos hkept, writes_insertGlobal s _ _⟩

/-- Binding a key in the innermost scope writes to a place in the scopes. From then on it is the
place at which the names with this key are bound. -/
theorem writes_updateCurrent (s : State) (key : String) (b : Binding) :
    ∃ p, s.Writes p b { s with scopes := s.scopes.updateCurrent (·.insert key b) } ∧
      ∀ name, Text.lower name = key →
        State.scopePlace? { s with scopes := s.scopes.updateCurrent (·.insert key b) } name =
          some p := by
  cases hlocals : s.scopes.locals with
  | nil =>
    have hupdate : s.scopes.updateCurrent (·.insert key b) =
        { s.scopes with globals := s.scopes.globals.insert key b } := by
      simp only [Scopes.updateCurrent, hlocals]
    rw [hupdate]
    refine ⟨_, writes_insertGlobal s key b, fun name hname => ?_⟩
    simp [scopePlace?, Scopes.level?, Scopes.topLevel?, hlocals, kept?, hname]
  | cons l ls =>
    have hscopes : s.scopes = ⟨s.scopes.globals, [] ++ l :: ls⟩ := by
      rw [List.nil_append, ← hlocals]
    have hupdate : s.scopes.updateCurrent (·.insert key b) =
        ⟨s.scopes.globals, [] ++ l.insert key b :: ls⟩ := by
      simp only [Scopes.updateCurrent, hlocals, List.nil_append]
    rw [hupdate]
    refine ⟨_, writes_insertLocal hscopes key b, fun name hname => ?_⟩
    have hfree : ∀ m ∈ ([] : List Scope), m.find? (Text.lower name) = none :=
      fun _ hm => absurd hm List.not_mem_nil
    have hkey : ((l.insert key b).find? (Text.lower name)).isSome = true := by
      rw [hname, Table.find?_insert_self]
      rfl
    rw [scopePlace?, Scopes.level?_append hfree hkey, hname]

/-! ### Places remain -/

/-- A state with the context and the declarations of another one, and with all of its places. -/
structure Retains (s t : State) : Prop where
  context : t.context = s.context
  declarations : t.declarations = s.declarations
  moduleNames : t.moduleNames = s.moduleNames
  depth : t.scopes.locals.length = s.scopes.locals.length
  places : ∀ p, (s.kept? p).isSome = true → (t.kept? p).isSome = true

namespace Retains

variable {u : State}

theorem refl (s : State) : s.Retains s := ⟨rfl, rfl, rfl, rfl, fun _ hp => hp⟩

theorem trans (h : s.Retains t) (h' : t.Retains u) : s.Retains u :=
  ⟨h'.context.trans h.context, h'.declarations.trans h.declarations,
    h'.moduleNames.trans h.moduleNames, h'.depth.trans h.depth,
    fun p hp => h'.places p (h.places p hp)⟩

theorem of_calm (h : s.Calm t) : s.Retains t := by
  refine ⟨h.context, h.declarations, h.moduleNames, by rw [h.scopes], fun p hp => ?_⟩
  cases p with
  | field index key =>
    simp only [kept?, Option.isSome_map] at hp ⊢
    exact h.heap.fields _ _ hp
  | _ => rwa [kept?, h.scopes]

theorem of_writes {b : Binding} (h : s.Writes p b t) : s.Retains t := by
  refine ⟨?_, ?_, ?_, h.depth, fun q hq => ?_⟩
  · rw [h.rest]
  · rw [h.rest]; rfl
  · rw [h.rest]
  · by_cases hqp : q = p
    · rw [hqp, h.written]
      rfl
    · rwa [h.others q hqp]

theorem isSome_level? (h : s.Retains t) {key : String}
    (hkey : (s.scopes.level? key).isSome = true) : (t.scopes.level? key).isSome = true := by
  obtain ⟨level, hlevel⟩ := Option.isSome_iff_exists.1 hkey
  have hbound := h.places (.localKey level key) (Scopes.isSome_of_topLevel? hlevel)
  refine Scopes.exists_topLevel? (Nat.lt_of_not_le fun hle => ?_) hbound
  rw [kept?, Scopes.bindingAt?_eq_none hle] at hbound
  cases hbound

theorem isSome_scopePlace? (h : s.Retains t) (hname : (s.scopePlace? name).isSome = true) :
    (t.scopePlace? name).isSome = true := by
  unfold scopePlace? at hname ⊢
  split
  · rfl
  · next hnone =>
    split at hname
    · next hlevel =>
      have hsome := h.isSome_level? (Option.isSome_iff_exists.2 ⟨_, hlevel⟩)
      rw [hnone] at hsome
      cases hsome
    · split at hname
      · next hkept =>
        rw [if_pos (h.places _ hkept)]
        rfl
      · cases hname

theorem isSome_fieldPlace? (h : s.Retains t) (hname : (s.fieldPlace? name).isSome = true) :
    (t.fieldPlace? name).isSome = true := by
  obtain ⟨p, hp⟩ := Option.isSome_iff_exists.1 hname
  obtain ⟨hself, hkept⟩ := Option.filter_eq_some_iff.1 hp
  rw [← h.context] at hself
  exact Option.isSome_iff_exists.2 ⟨p, Option.filter_eq_some_iff.2 ⟨hself, h.places p hkept⟩⟩

/-- What is data remains data. -/
theorem isSome_place? (h : s.Retains t) (hname : (s.place? name).isSome = true) :
    (t.place? name).isSome = true := by
  unfold place? at hname ⊢
  split
  · next hlevel =>
    obtain ⟨level, hlevel⟩ := Option.isSome_iff_exists.1 hlevel
    rw [scopePlace?, hlevel]
    rfl
  · next hlevel =>
    rw [if_neg fun hs => hlevel (h.isSome_level? hs)] at hname
    simp only [Option.isSome_or, Bool.or_eq_true] at hname ⊢
    rcases hname with hname | hname | hname
    · exact .inl (h.isSome_fieldPlace? hname)
    · exact .inr (.inl (h.isSome_scopePlace? hname))
    · rw [List.isSome_findSome?, List.any_eq_true] at hname ⊢
      obtain ⟨key, hmem, hkey⟩ := hname
      refine .inr (.inr ⟨key, ?_, h.isSome_scopePlace? hkey⟩)
      rwa [moduleKeys, h.context, h.moduleNames]

/-- What a call does in a scope of its own retains the state of its caller. -/
theorem call {context : Context} (h : Retains { s with context, scopes := s.scopes.push } u) :
    s.Retains { u with context := s.context, scopes := u.scopes.pop } := by
  have hdepth : u.scopes.locals.length = s.scopes.locals.length + 1 := h.depth
  refine ⟨rfl, h.declarations, h.moduleNames, by simp [Scopes.pop, hdepth], fun p hp => ?_⟩
  cases p with
  | globalKey key => exact h.places (.globalKey key) hp
  | localKey level key =>
    rw [kept?] at hp ⊢
    have hlevel : level < s.scopes.locals.length := by
      refine Nat.lt_of_not_le fun hle => ?_
      rw [Scopes.bindingAt?_eq_none hle] at hp
      cases hp
    rw [Scopes.bindingAt?_pop (by omega)]
    exact h.places (.localKey level key) (by rwa [kept?, Scopes.bindingAt?_push _ hlevel])
  | field index key => exact h.places (.field index key) hp

theorem ownProperty?_eq (h : s.Retains t) (name : String) :
    t.ownProperty? name = s.ownProperty? name := by
  have hclasses : t.classes = s.classes := congrArg Declarations.classes h.declarations
  rw [ownProperty?, ownProperty?, h.context]
  simp only [propertyOf?, classTable, hclasses]

theorem unhidden (h : s.Retains t) (hname : s.Unhidden name) : t.Unhidden name := by
  refine hname.imp (fun hlocal => ?_) (h.ownProperty?_eq name).trans
  rw [hasLocal_eq] at hlocal ⊢
  exact h.isSome_level? hlocal

end Retains

end State

/-! ### Runs retain -/

/-- Retaining context, declarations and places is a relation that the machine respects. -/
def retentionRelation : RunRelation where
  Rel x _ := ∀ s : State, s.Retains (x.after s)
  quiet h s := .of_calm (h.quietAt s).1
  bind hx hk s := after_bind .trans (hx s) fun a s' _ => hk a s'
  read _ h s := h s trivial s
  bindCurrent key b s := by
    obtain ⟨p, hwrites, -⟩ := s.writes_updateCurrent key b
    exact .of_writes hwrites
  bindGlobal key b s := .of_writes (s.writes_insertGlobal key b)
  foundOr c h s := by
    refine after_bind .trans ?_ fun found s' _ => ?_
    · rw [after_found?]
      exact h s
    · cases found <;> exact .refl s'
  entering {_ x _ d} _ h s := by
    have hbody := h { s with context := d.enter s.context }
    rw [after_inContext, hbody.context, d.leave_enter]
    exact ⟨rfl, hbody.declarations, hbody.moduleNames, hbody.depth, hbody.places⟩
  inCall {_ x _} c self classContext h s := by
    rw [after_inCall]
    split
    · exact .refl s
    · let s' : State :=
        { s with context := c.enter self classContext s.context, scopes := s.scopes.push }
      have hbody : s'.Retains (x.after s') := h s'
      rw [after_inContext, after_inScope, after_onFailure]
      show s.Retains { x.after s' with
        context := (c.detour self classContext).leave s.context (x.after s').context
        scopes := (x.after s').scopes.pop }
      rw [hbody.context]
      exact hbody.call
  outOfFuel s := .refl s

theorem retentionRelation_forgives : retentionRelation.Forgives := fun {_ x _} h s => by
  rw [after_found?]
  exact h s

theorem retentionRelation_admits (q : Request) : retentionRelation.Admits q where
  rebinds _ key v s := by
    obtain h | ⟨scopes, hset, h⟩ := after_rebind key v s
    · rw [h]
      exact .refl s
    · obtain ⟨p, -, hwrites⟩ := State.writes_of_set hset
      rw [h]
      exact .of_writes hwrites
  forgives _ := retentionRelation_forgives
  catches _ {_ x _} h s := by
    rw [after_attempt]
    exact h s
  rethrows _ {_} x s := .of_calm (quietAt_resume x s).1

theorem State.Retains.of_ok {α : Type} {x y : Interp α} {s t : State} {a : α}
    (hx : retentionRelation.Rel x y) (h : x s = .ok a t) : s.Retains t := by
  have hrun : s.Retains (x.after s) := hx s
  rwa [after_of_ok h] at hrun

namespace Runner

theorem related_retention (fuel : Nat) :
    Related retentionRelation (withFuel fuel) (withFuel fuel) :=
  related_withFuel retentionRelation_admits fuel

/-- Every run retains. -/
theorem retains_answer (fuel : Nat) (q : Request) (s : State) :
    s.Retains (((withFuel fuel).answer q).after s) :=
  (related_retention fuel).answer q s

end Runner

end FormBasic
