import FormBasic.Proofs.Inheritance
import FormBasic.Proofs.Text.Case
import FormBasic.Proofs.Text.Search

/-!
# Which handler an event has

The handler of an event is looked for in three tiers: among the methods of the form whose `Handles`
clause names the event and the handlers that have been added at run time; among the methods of the
form by their names; and among the procedures by their names. A tier is looked at only if the tiers
before it have no match, and within a tier there is an order again: methods in the order of the
chain and of their declarations, added handlers in the order in which they were added, procedures by
their keys. Two names come before this order. A method whose name begins with the name of the
control comes before one whose name begins with `Form`, wherever the two are declared, and a
procedure outside all modules comes before those in modules, whatever these are called.

Names are compared up to case in two ways, by their case class and in lower case. For ASCII letters
this is the same, so their case makes no difference to the result.

## Main definitions

* `Text.SameLetters` — texts that differ in the case of ASCII letters only
* `State.Resolves` — the handler that an event has, by tier

## Main results

* `State.handler?_congr` — the case of ASCII letters makes no difference
* `State.handler?_eq_some_iff`, `State.handler?_eq_none_iff` — what is found, and when nothing is
* `State.handler_resolution` — all of these together
-/

namespace FormBasic

/-! ### The case of ASCII letters -/

namespace Text

variable {s t s' t' : String}

/-- Two texts that differ in the case of ASCII letters only. -/
def SameLetters (s t : String) : Prop := s.toList.map Char.toLower = t.toList.map Char.toLower

theorem SameLetters.refl (s : String) : SameLetters s s := rfl

theorem SameLetters.append (h : SameLetters s t) (h' : SameLetters s' t') :
    SameLetters (s ++ s') (t ++ t') := by
  unfold SameLetters at h h' ⊢
  rw [String.toList_append, String.toList_append, List.map_append, List.map_append, h, h']

/-- A map of characters that takes ASCII letters to lower case first does not see their case. -/
theorem SameLetters.map_eq {f g : Char → Char}
    (hf : ∀ c, f c = if c.toNat < 128 then c.toLower else g c) (h : SameLetters s t) :
    s.toList.map f = t.toList.map f := by
  have hlower : ∀ c : Char, f c.toLower = f c := by
    intro c
    by_cases hc : c.toNat < 128
    · have hc' : c.toLower.toNat < 128 := by
        rw [toNat_toLower]
        split <;> omega
      rw [hf, hf, if_pos hc, if_pos hc', toLower_toLower]
    · rw [toLower_of_le (Nat.le_of_not_lt hc)]
  have hmap : ∀ cs : List Char, cs.map f = (cs.map Char.toLower).map f := fun cs => by
    rw [List.map_map]
    exact List.map_congr_left fun c _ => (hlower c).symm
  rw [hmap, h, ← hmap]

theorem SameLetters.lower_eq (h : SameLetters s t) : lower s = lower t := by
  rw [lower, lower, h.map_eq (f := lowerChar) fun _ => rfl]

theorem SameLetters.fold_eq (h : SameLetters s t) : fold s = fold t := h.map_eq fun _ => rfl

end Text

/-! ### Matches -/

/-- Whether a path, which is cut at its first point, names an event of a control on a form. -/
def NamesEvent (form control event path : String) : Prop :=
  ∃ owner name, path = owner ++ "." ++ name ∧ '.' ∉ owner.toList ∧
    Text.fold (if isFormAlias owner form then form else owner) = Text.fold control ∧
    Text.fold name = Text.fold event

theorem handlesEvent_iff {form control event path : String} :
    handlesEvent form control event path = true ↔ NamesEvent form control event path := by
  unfold handlesEvent
  constructor
  · intro h
    split at h
    · cases h
    · next left right hcut =>
      obtain ⟨hpath, hfree⟩ := Text.cut_eq_iff.1 hcut
      rw [Bool.and_eq_true, Text.equalFold_iff, Text.equalFold_iff] at h
      refine ⟨String.ofList left, String.ofList right, String.toList_inj.1 ?_, ?_, h.1, h.2⟩
      · simp [hpath]
      · simpa using hfree
  · rintro ⟨owner, name, rfl, hfree, howner, hname⟩
    have hcut : Text.cut '.' (owner ++ "." ++ name).toList = (owner.toList, some name.toList) :=
      Text.cut_eq_iff.2 ⟨by simp, hfree⟩
    rw [hcut]
    simp [howner, hname]

/-- Whether a method has a `Handles` clause for an event of a control on a form. -/
def Procedure.Handles (form control event : String) (m : Procedure) : Prop :=
  ∃ path ∈ m.handles, NamesEvent form control event path

theorem any_handlesEvent_iff {form control event : String} (m : Procedure) :
    m.handles.any (handlesEvent form control event) = true ↔ m.Handles form control event := by
  simp only [List.any_eq_true, handlesEvent_iff, Procedure.Handles]

/-- Whether a handler that has been added is for an event of a control on a form: its source is the
control, or an instance of this name, or the form itself, and so is the control. -/
def Registration.IsBoundTo (h : Heap) (form control event : String) (r : Registration) : Prop :=
  Text.fold r.event = Text.fold event ∧
    (Text.fold r.source = Text.fold control ∨
      (∃ i name, r.instanceRef = some i ∧ h.nameOf? i = some name ∧
        Text.fold name = Text.fold control) ∨
      isFormAlias r.source form = true ∧ Text.fold control = Text.fold form)

theorem Registration.isFor_iff {h : Heap} {form control event : String} (r : Registration) :
    r.isFor h form control event = true ↔ r.IsBoundTo h form control event := by
  simp only [isFor, IsBoundTo, Bool.and_eq_true, Bool.or_eq_true, Text.equalFold_iff,
    Option.any_eq_true, Option.bind_eq_some_iff, or_assoc]
  refine and_congr_right fun _ => or_congr_right (or_congr_left ?_)
  constructor
  · rintro ⟨name, ⟨i, hi, hname⟩, hsame⟩
    exact ⟨i, name, hi, hname, hsame⟩
  · rintro ⟨i, name, hi, hname, hsame⟩
    exact ⟨name, ⟨i, hi, hname⟩, hsame⟩

theorem endsWithName_iff {name key : String} :
    endsWithName name key = true ↔ ∃ moduleName, key = moduleName ++ "." ++ name := by
  rw [endsWithName, Text.endsWith_iff]
  constructor
  · rintro ⟨lead, hlead⟩
    refine ⟨String.ofList lead, String.toList_inj.1 ?_⟩
    simp [hlead]
  · rintro ⟨moduleName, rfl⟩
    exact ⟨moduleName.toList, by simp⟩

/-! ### Keys in order -/

namespace Table

variable {α : Type*}

theorem isSome_findIn_iff {name : String} {es : List (String × α)} :
    (findIn name es).isSome = true ↔ name ∈ es.map (·.1) := by
  induction es with
  | nil => simp [findIn]
  | cons e es ih =>
    rw [findIn]
    split
    · next hname => simp [eq_of_beq hname]
    · next hname =>
      have hne : ¬ name = e.1 := fun h => hname (beq_iff_eq.2 h.symm)
      rw [ih, List.map_cons, List.mem_cons]
      exact ⟨.inr, fun h => h.resolve_left hne⟩

theorem mem_sortedNames_iff {t : Table α} {name : String} :
    name ∈ t.sortedNames ↔ (t.find? name).isSome = true := by
  rw [find?, isSome_findIn_iff, sortedNames, sorted]
  simp only [List.mem_map, List.mem_mergeSort]

theorem pairwise_sortedNames (t : Table α) : t.sortedNames.Pairwise (· ≤ ·) := by
  rw [sortedNames, List.pairwise_map]
  have hsorted : t.sorted.Pairwise fun a b => decide (a.1 ≤ b.1) = true := by
    refine List.pairwise_mergeSort (fun a b c hab hbc => ?_) (fun a b => ?_) _
    · exact decide_eq_true (String.le_trans (of_decide_eq_true hab) (of_decide_eq_true hbc))
    · simpa using String.le_total a.1 b.1
  exact hsorted.imp of_decide_eq_true

/-- The first name in order that passes a test is the least one. -/
theorem find?_sortedNames_iff {t : Table α} {test : String → Bool} {p : String → Prop}
    (h : ∀ name, test name = true ↔ p name) {name : String} :
    t.sortedNames.find? test = some name ↔ (t.find? name).isSome = true ∧ p name ∧
      ∀ other, (t.find? other).isSome = true → p other → name ≤ other := by
  have hleast : ∀ first, IsFirst p t.sortedNames first →
      ∀ other, (t.find? other).isSome = true → p other → first ≤ other := by
    rintro first ⟨-, before, after, happend, hbefore⟩ other hother hp
    have hpairwise := happend ▸ t.pairwise_sortedNames
    have hmem := happend ▸ mem_sortedNames_iff.2 hother
    rcases List.mem_append.1 hmem with hmem | hmem
    · exact absurd hp (hbefore _ hmem)
    · rcases List.mem_cons.1 hmem with rfl | hmem
      · exact String.le_refl _
      · exact (List.pairwise_cons.1 (List.pairwise_append.1 hpairwise).2.1).1 _ hmem
  rw [find?_eq_some_iff_isFirst h]
  constructor
  · intro hfirst
    have hall := hleast name hfirst
    obtain ⟨hp, before, after, happend, -⟩ := hfirst
    refine ⟨mem_sortedNames_iff.1 ?_, hp, hall⟩
    rw [happend]
    exact List.mem_append_right _ List.mem_cons_self
  · rintro ⟨hname, hp, hall⟩
    -- the first one is no greater, and is one of the others
    obtain ⟨first, hfirst⟩ : ∃ first, t.sortedNames.find? test = some first := by
      rw [← Option.isSome_iff_exists, List.find?_isSome]
      exact ⟨name, mem_sortedNames_iff.2 hname, (h name).2 hp⟩
    have hmem := mem_sortedNames_iff.1 (List.mem_of_find?_eq_some hfirst)
    have hpfirst := (h first).1 (List.find?_some hfirst)
    rw [find?_eq_some_iff_isFirst h] at hfirst
    have hsame := String.le_antisymm (hleast first hfirst name hname hp) (hall first hmem hpfirst)
    exact hsame ▸ hfirst

end Table

namespace State

variable {s : State} {form control event key : String} {p : ProcedureEntry}

/-- The procedure that stands under a name in a module, the first by its key if there are some. -/
def IsFirstInModules (s : State) (name : String) (p : ProcedureEntry) : Prop :=
  ∃ moduleName, s.procedures.find? (moduleName ++ "." ++ name) = some p ∧
    ∀ other, (s.procedures.find? (other ++ "." ++ name)).isSome = true →
      moduleName ++ "." ++ name ≤ other ++ "." ++ name

theorem procedureInModule?_eq_some_iff :
    s.procedureInModule? key = some p ↔ s.IsFirstInModules key p := by
  rw [procedureInModule?, procedureKeys, Option.bind_eq_some_iff]
  simp only [Table.find?_sortedNames_iff fun _ => endsWithName_iff]
  constructor
  · rintro ⟨_, ⟨-, ⟨moduleName, rfl⟩, hleast⟩, hp⟩
    exact ⟨moduleName, hp, fun other hother => hleast _ hother ⟨other, rfl⟩⟩
  · rintro ⟨moduleName, hp, hleast⟩
    refine ⟨_, ⟨?_, ⟨moduleName, rfl⟩, ?_⟩, hp⟩
    · rw [hp]
      rfl
    · rintro _ hother ⟨other, rfl⟩
      exact hleast other hother

theorem procedureInModule?_eq_none_iff :
    s.procedureInModule? key = none ↔
      ∀ moduleName, s.procedures.find? (moduleName ++ "." ++ key) = none := by
  constructor
  · intro hnone moduleName
    rw [← Option.not_isSome_iff_eq_none]
    intro hsome
    have hfound : (s.procedureKeys.find? (endsWithName key)).isSome = true :=
      List.find?_isSome.2 ⟨_, Table.mem_sortedNames_iff.2 hsome, endsWithName_iff.2 ⟨_, rfl⟩⟩
    obtain ⟨first, hfirst⟩ := Option.isSome_iff_exists.1 hfound
    have hmem := Table.mem_sortedNames_iff.1 (List.mem_of_find?_eq_some hfirst)
    rw [procedureInModule?, hfirst, Option.bind_some] at hnone
    rw [State.procedureAt?] at hnone
    rw [hnone] at hmem
    cases hmem
  · intro hnone
    rw [← Option.not_isSome_iff_eq_none, Option.isSome_iff_exists]
    rintro ⟨p, hp⟩
    obtain ⟨moduleName, hfound, -⟩ := procedureInModule?_eq_some_iff.1 hp
    cases hfound.symm.trans (hnone moduleName)

/-! ### Tiers -/

/-- The methods of a form along its chain, in the order of their declarations, each with its
class. -/
def methodsAlong (s : State) (form : String) : List (Procedure × ClassInfo) :=
  ClassTable.declaredAlong (·.methods) (s.classTable.chain form)

/-- Neither a `Handles` clause nor a handler that has been added is for the event. -/
structure NoExplicit (s : State) (form control event : String) : Prop where
  methods : ∀ d ∈ s.methodsAlong form, ¬ d.1.Handles form control event
  registrations : ∀ r ∈ s.registrations, ¬ r.IsBoundTo s.heap form control event

/-- No method of the form has a name that is for the event. -/
structure NoNamed (s : State) (form control event : String) : Prop where
  ofControl : ∀ d ∈ s.methodsAlong form, Text.fold d.1.name ≠ Text.fold (control ++ "_" ++ event)
  ofForm : Text.fold control = Text.fold form →
    ∀ d ∈ s.methodsAlong form, Text.fold d.1.name ≠ Text.fold ("Form_" ++ event)

/-- No procedure has a name that is for the event. -/
structure NoFree (s : State) (control event : String) : Prop where
  outside : s.procedures.find? (Text.lower (control ++ "_" ++ event)) = none
  inModules : ∀ moduleName,
    s.procedures.find? (moduleName ++ "." ++ Text.lower (control ++ "_" ++ event)) = none

/-- The handler that an event has. -/
inductive Resolves (s : State) (form control event : String) : Handler → Prop
  /-- The first method that has a `Handles` clause for it. -/
  | handles {m : Procedure} {c : ClassInfo}
    (first : IsFirst (·.1.Handles form control event) (s.methodsAlong form) (m, c)) :
    Resolves s form control event ⟨m.name, .explicit, .method m c⟩
  /-- The first handler that has been added for it. -/
  | registration {r : Registration}
    (methods : ∀ d ∈ s.methodsAlong form, ¬ d.1.Handles form control event)
    (first : IsFirst (·.IsBoundTo s.heap form control event) s.registrations r) :
    Resolves s form control event ⟨r.handler, .explicit, .registration r⟩
  /-- The first method with the name of the control. -/
  | ofControl {m : Procedure} {c : ClassInfo} (explicit : s.NoExplicit form control event)
    (first : s.classTable.FirstMethod form (control ++ "_" ++ event) m c) :
    Resolves s form control event ⟨m.name, .naming, .method m c⟩
  /-- The first method with the name that stands for the form itself. -/
  | ofForm {m : Procedure} {c : ClassInfo} (explicit : s.NoExplicit form control event)
    (named : ∀ d ∈ s.methodsAlong form, Text.fold d.1.name ≠ Text.fold (control ++ "_" ++ event))
    (itself : Text.fold control = Text.fold form)
    (first : s.classTable.FirstMethod form ("Form_" ++ event) m c) :
    Resolves s form control event ⟨m.name, .naming, .method m c⟩
  /-- The procedure outside all modules. -/
  | outside {p : ProcedureEntry} (explicit : s.NoExplicit form control event)
    (named : s.NoNamed form control event)
    (found : s.procedures.find? (Text.lower (control ++ "_" ++ event)) = some p) :
    Resolves s form control event ⟨p.decl.name, .freeProcedure, .procedure p⟩
  /-- The first procedure in a module. -/
  | inModule {p : ProcedureEntry} (explicit : s.NoExplicit form control event)
    (named : s.NoNamed form control event)
    (outside : s.procedures.find? (Text.lower (control ++ "_" ++ event)) = none)
    (first : s.IsFirstInModules (Text.lower (control ++ "_" ++ event)) p) :
    Resolves s form control event ⟨p.decl.name, .freeProcedure, .procedure p⟩

theorem handlesMethod?_eq_some_iff {m : Procedure} {c : ClassInfo} :
    s.handlesMethod? form control event = some (m, c) ↔
      IsFirst (·.1.Handles form control event) (s.methodsAlong form) (m, c) :=
  ClassTable.firstMember_eq_some_iff any_handlesEvent_iff

theorem handlesMethod?_eq_none_iff :
    s.handlesMethod? form control event = none ↔
      ∀ d ∈ s.methodsAlong form, ¬ d.1.Handles form control event :=
  ClassTable.firstMember_eq_none_iff any_handlesEvent_iff

theorem find?_registrations_eq_some_iff {r : Registration} :
    s.registrations.find? (Registration.isFor s.heap form control event) = some r ↔
      IsFirst (·.IsBoundTo s.heap form control event) s.registrations r :=
  find?_eq_some_iff_isFirst Registration.isFor_iff

theorem find?_registrations_eq_none_iff :
    s.registrations.find? (Registration.isFor s.heap form control event) = none ↔
      ∀ r ∈ s.registrations, ¬ r.IsBoundTo s.heap form control event := by
  simp only [List.find?_eq_none, Registration.isFor_iff]

theorem explicitHandler?_eq_some_iff {h : Handler} :
    s.explicitHandler? form control event = some h ↔
      (∃ m c, IsFirst (·.1.Handles form control event) (s.methodsAlong form) (m, c) ∧
        h = ⟨m.name, .explicit, .method m c⟩) ∨
      (∀ d ∈ s.methodsAlong form, ¬ d.1.Handles form control event) ∧
        ∃ r, IsFirst (·.IsBoundTo s.heap form control event) s.registrations r ∧
          h = ⟨r.handler, .explicit, .registration r⟩ := by
  simp only [← handlesMethod?_eq_some_iff, ← handlesMethod?_eq_none_iff,
    ← find?_registrations_eq_some_iff, explicitHandler?]
  cases s.handlesMethod? form control event with
  | some found =>
    obtain ⟨m, c⟩ := found
    simp [eq_comm]
  | none => simp [eq_comm (a := h)]

theorem explicitHandler?_eq_none_iff :
    s.explicitHandler? form control event = none ↔ s.NoExplicit form control event := by
  have hparts : s.NoExplicit form control event ↔
      s.handlesMethod? form control event = none ∧
        s.registrations.find? (Registration.isFor s.heap form control event) = none := by
    rw [handlesMethod?_eq_none_iff, find?_registrations_eq_none_iff]
    exact ⟨fun ⟨h, h'⟩ => ⟨h, h'⟩, fun ⟨h, h'⟩ => ⟨h, h'⟩⟩
  rw [hparts, explicitHandler?]
  cases s.handlesMethod? form control event <;> simp

theorem findSome?_conventionalNames :
    (conventionalNames form control event).findSome? (s.classTable.method? form) =
      (s.classTable.method? form (control ++ "_" ++ event)).or
        (if Text.fold control = Text.fold form then s.classTable.method? form ("Form_" ++ event)
        else none) := by
  rw [conventionalNames, List.findSome?_cons]
  cases s.classTable.method? form (control ++ "_" ++ event) with
  | some found => rfl
  | none => by_cases hsame : Text.fold control = Text.fold form <;> simp [hsame]

theorem namedHandler?_eq_some_iff {h : Handler} :
    s.namedHandler? form control event = some h ↔
      ∃ m c, (s.classTable.FirstMethod form (control ++ "_" ++ event) m c ∨
        (∀ d ∈ s.methodsAlong form, Text.fold d.1.name ≠ Text.fold (control ++ "_" ++ event)) ∧
          Text.fold control = Text.fold form ∧
          s.classTable.FirstMethod form ("Form_" ++ event) m c) ∧
        h = ⟨m.name, .naming, .method m c⟩ := by
  simp only [methodsAlong, ← ClassTable.method?_eq_some_iff, ← ClassTable.method?_eq_none_iff,
    namedHandler?, findSome?_conventionalNames, Option.map_eq_some_iff, Option.or_eq_some_iff,
    Prod.exists]
  by_cases hsame : Text.fold control = Text.fold form <;> simp [hsame, eq_comm]

theorem namedHandler?_eq_none_iff :
    s.namedHandler? form control event = none ↔ s.NoNamed form control event := by
  have hparts : s.NoNamed form control event ↔
      s.classTable.method? form (control ++ "_" ++ event) = none ∧
        (Text.fold control = Text.fold form →
          s.classTable.method? form ("Form_" ++ event) = none) := by
    rw [ClassTable.method?_eq_none_iff, ClassTable.method?_eq_none_iff]
    exact ⟨fun ⟨h, h'⟩ => ⟨h, h'⟩, fun ⟨h, h'⟩ => ⟨h, h'⟩⟩
  rw [hparts, namedHandler?, Option.map_eq_none_iff, findSome?_conventionalNames,
    Option.or_eq_none_iff]
  by_cases hsame : Text.fold control = Text.fold form <;> simp [hsame]

theorem freeHandler?_eq_some_iff {h : Handler} :
    s.freeHandler? control event = some h ↔
      ∃ p, (s.procedures.find? (Text.lower (control ++ "_" ++ event)) = some p ∨
        s.procedures.find? (Text.lower (control ++ "_" ++ event)) = none ∧
          s.IsFirstInModules (Text.lower (control ++ "_" ++ event)) p) ∧
        h = ⟨p.decl.name, .freeProcedure, .procedure p⟩ := by
  simp only [freeHandler?, eventProcedure?, procedureAt?, Option.map_eq_some_iff,
    ← procedureInModule?_eq_some_iff]
  cases s.procedures.find? (Text.lower (control ++ "_" ++ event)) <;> simp [eq_comm]

theorem freeHandler?_eq_none_iff :
    s.freeHandler? control event = none ↔ s.NoFree control event := by
  have hparts : s.NoFree control event ↔
      s.procedures.find? (Text.lower (control ++ "_" ++ event)) = none ∧
        s.procedureInModule? (Text.lower (control ++ "_" ++ event)) = none := by
    rw [procedureInModule?_eq_none_iff]
    exact ⟨fun ⟨h, h'⟩ => ⟨h, h'⟩, fun ⟨h, h'⟩ => ⟨h, h'⟩⟩
  rw [hparts, freeHandler?, Option.map_eq_none_iff, eventProcedure?, procedureAt?]
  cases s.procedures.find? (Text.lower (control ++ "_" ++ event)) <;> simp

/-! ### The handler of an event -/

theorem handler?_eq_or :
    s.handler? form control event = (s.explicitHandler? form control event).or
      ((s.namedHandler? form control event).or (s.freeHandler? control event)) := by
  unfold handler?
  cases s.explicitHandler? form control event with
  | some h => rfl
  | none => cases s.namedHandler? form control event <;> rfl

theorem handler?_eq_none_iff :
    s.handler? form control event = none ↔ s.NoExplicit form control event ∧
      s.NoNamed form control event ∧ s.NoFree control event := by
  rw [handler?_eq_or, Option.or_eq_none_iff, Option.or_eq_none_iff, explicitHandler?_eq_none_iff,
    namedHandler?_eq_none_iff, freeHandler?_eq_none_iff]

/-- The handler that is found is the one that the event has. -/
theorem handler?_eq_some_iff {h : Handler} :
    s.handler? form control event = some h ↔ s.Resolves form control event h := by
  rw [handler?_eq_or, Option.or_eq_some_iff, Option.or_eq_some_iff, explicitHandler?_eq_some_iff,
    explicitHandler?_eq_none_iff, namedHandler?_eq_some_iff, namedHandler?_eq_none_iff,
    freeHandler?_eq_some_iff]
  constructor
  · rintro ((⟨m, c, hfirst, rfl⟩ | ⟨hmethods, r, hfirst, rfl⟩) | ⟨hexplicit, hrest⟩)
    · exact .handles hfirst
    · exact .registration hmethods hfirst
    · obtain ⟨m, c, hfirst | ⟨hnamed, hitself, hfirst⟩, rfl⟩ |
        ⟨hnamed, p, hfound | ⟨houtside, hfirst⟩, rfl⟩ := hrest
      · exact .ofControl hexplicit hfirst
      · exact .ofForm hexplicit hnamed hitself hfirst
      · exact .outside hexplicit hnamed hfound
      · exact .inModule hexplicit hnamed houtside hfirst
  · intro h
    cases h with
    | handles hfirst => exact .inl (.inl ⟨_, _, hfirst, rfl⟩)
    | registration hmethods hfirst => exact .inl (.inr ⟨hmethods, _, hfirst, rfl⟩)
    | ofControl hexplicit hfirst => exact .inr ⟨hexplicit, .inl ⟨_, _, .inl hfirst, rfl⟩⟩
    | ofForm hexplicit hnamed hitself hfirst =>
      exact .inr ⟨hexplicit, .inl ⟨_, _, .inr ⟨hnamed, hitself, hfirst⟩, rfl⟩⟩
    | outside hexplicit hnamed hfound =>
      exact .inr ⟨hexplicit, .inr ⟨hnamed, _, .inl hfound, rfl⟩⟩
    | inModule hexplicit hnamed houtside hfirst =>
      exact .inr ⟨hexplicit, .inr ⟨hnamed, _, .inr ⟨houtside, hfirst⟩, rfl⟩⟩

/-- The case of ASCII letters in the names of the form, the control and the event makes no
difference. -/
theorem handler?_congr {form' control' event' : String} (hform : Text.SameLetters form form')
    (hcontrol : Text.SameLetters control control') (hevent : Text.SameLetters event event') :
    s.handler? form control event = s.handler? form' control' event' := by
  have hname : Text.SameLetters (control ++ "_" ++ event) (control' ++ "_" ++ event') :=
    (hcontrol.append (.refl "_")).append hevent
  have hformName : Text.SameLetters ("Form_" ++ event) ("Form_" ++ event') :=
    Text.SameLetters.append (.refl _) hevent
  have hchain : s.classTable.chain form = s.classTable.chain form' :=
    ClassTable.chain_congr hform.lower_eq
  have halias : ∀ name, isFormAlias name form = isFormAlias name form' := fun name => by
    simp only [isFormAlias, Text.equalFold, hform.fold_eq]
  have hpath : handlesEvent form control event = handlesEvent form' control' event' := by
    funext path
    unfold handlesEvent
    split
    · rfl
    · simp only [halias, Text.equalFold, hcontrol.fold_eq, hevent.fold_eq]
      split <;> simp only [hform.fold_eq]
  have hregistration : Registration.isFor s.heap form control event =
      Registration.isFor s.heap form' control' event' := by
    funext r
    simp only [Registration.isFor, halias, Text.equalFold, hform.fold_eq, hcontrol.fold_eq,
      hevent.fold_eq]
  have hmethod : ∀ {name name' : String}, Text.SameLetters name name' →
      s.classTable.method? form name = s.classTable.method? form' name' := fun h => by
    simp only [ClassTable.method?, hchain, Text.equalFold, h.fold_eq]
  have hexplicit : s.explicitHandler? form control event =
      s.explicitHandler? form' control' event' := by
    rw [explicitHandler?, explicitHandler?, handlesMethod?, handlesMethod?, hchain, hpath,
      hregistration]
  have hnamed : s.namedHandler? form control event = s.namedHandler? form' control' event' := by
    rw [namedHandler?, namedHandler?, findSome?_conventionalNames, findSome?_conventionalNames,
      hmethod hname, hmethod hformName, hform.fold_eq, hcontrol.fold_eq]
  have hfree : s.freeHandler? control event = s.freeHandler? control' event' := by
    rw [freeHandler?, freeHandler?, eventProcedure?, eventProcedure?, hname.lower_eq]
  rw [handler?_eq_or, handler?_eq_or, hexplicit, hnamed, hfree]

/-- The case of ASCII letters makes no difference to the handler of an event. A method is chosen for
its name only if no `Handles` clause and no added handler is for the event, and a procedure only if
there is no method with such a name either; there is no handler just if none of the tiers has a
match; and within a tier the handler is the one that `Resolves` says. -/
theorem handler_resolution (s : State) (form control event : String) :
    (∀ form' control' event', Text.SameLetters form form' → Text.SameLetters control control' →
      Text.SameLetters event event' →
      s.handler? form' control' event' = s.handler? form control event) ∧
    (∀ h, s.handler? form control event = some h →
      (h.strategy = .naming → s.NoExplicit form control event) ∧
      (h.strategy = .freeProcedure →
        s.NoExplicit form control event ∧ s.NoNamed form control event)) ∧
    (s.handler? form control event = none ↔ s.NoExplicit form control event ∧
      s.NoNamed form control event ∧ s.NoFree control event) ∧
    ∀ h, s.handler? form control event = some h ↔ s.Resolves form control event h := by
  refine ⟨fun form' control' event' hform hcontrol hevent => ?_, fun h hfound => ?_,
    handler?_eq_none_iff, fun h => handler?_eq_some_iff⟩
  · exact (handler?_congr hform hcontrol hevent).symm
  · cases handler?_eq_some_iff.1 hfound with
    | handles | registration => exact ⟨nofun, nofun⟩
    | ofControl hexplicit | ofForm hexplicit => exact ⟨fun _ => hexplicit, nofun⟩
    | outside hexplicit hnamed | inModule hexplicit hnamed =>
      exact ⟨nofun, fun _ => ⟨hexplicit, hnamed⟩⟩

/-! ### Two names before the order -/

/-- Within a tier, the method that handles an event by its name is the first one in the order of
declaration along the chain, and the procedure is the first one in the order of the keys. -/
structure FollowsOrder (s : State) (form control event : String) : Prop where
  method : ∀ h m c, s.handler? form control event = some h → h.strategy = .naming →
    h.target = .method m c →
    IsFirst (fun d => Text.fold d.1.name = Text.fold (control ++ "_" ++ event) ∨
      Text.fold control = Text.fold form ∧ Text.fold d.1.name = Text.fold ("Form_" ++ event))
      (s.methodsAlong form) (m, c)
  procedure : ∀ h p, s.handler? form control event = some h → h.target = .procedure p →
    ∃ key, s.procedures.find? key = some p ∧
      IsFirst (fun key => key = Text.lower (control ++ "_" ++ event) ∨
        endsWithName (Text.lower (control ++ "_" ++ event)) key = true) s.procedureKeys key

/-- A form with a method for its own event, whose base has one with the name of the form; and two
procedures of one name, one of them in a module. -/
def namesakes : State :=
  let sub (name : String) : Procedure := ⟨"Sub", name, [], "", [], [], false⟩
  let derived : ClassDecl := ⟨"MyForm", false, "BaseForm", [], [sub "Form_Load"], [], []⟩
  let base : ClassDecl := ⟨"BaseForm", false, "", [], [sub "MyForm_Load"], [], []⟩
  { classes := ((∅ : ClassTable).declare base "").declare derived ""
    procedures := .ofList
      [("btn_click", ⟨sub "Btn_Click", ""⟩), ("a.btn_click", ⟨sub "BTN_CLICK", "A"⟩)] }

/-- The method with the name of the form comes before the one that is declared first, and the
procedure outside all modules before the one with the first key. -/
theorem namesakes_not_followsOrder :
    ¬ namesakes.FollowsOrder "MyForm" "MyForm" "Load" ∧
      ¬ namesakes.FollowsOrder "MyForm" "Btn" "Click" := by
  refine ⟨fun h => ?_, fun h => ?_⟩
  · obtain ⟨m, c, hhandler, hname⟩ : ∃ m c, namesakes.handler? "MyForm" "MyForm" "Load" =
        some ⟨"MyForm_Load", .naming, .method m c⟩ ∧ m.name = "MyForm_Load" := ⟨_, _, rfl, rfl⟩
    obtain ⟨-, before, after, happend, hbefore⟩ := h.method _ m c hhandler rfl rfl
    have hnames : (before ++ (m, c) :: after).map (·.1.name) = ["Form_Load", "MyForm_Load"] :=
      happend ▸ rfl
    cases before with
    | nil => exact absurd (hname.symm.trans (List.cons.inj hnames).1) (by decide)
    | cons d before =>
      have hd : d.1.name = "Form_Load" := (List.cons.inj hnames).1
      exact hbefore d List.mem_cons_self (.inr ⟨rfl, congrArg Text.fold hd⟩)
  · obtain ⟨p, hhandler, hname⟩ : ∃ p, namesakes.handler? "MyForm" "Btn" "Click" =
        some ⟨"Btn_Click", .freeProcedure, .procedure p⟩ ∧ p.decl.name = "Btn_Click" :=
      ⟨_, rfl, rfl⟩
    obtain ⟨key, hfound, hfirst⟩ := h.procedure _ p hhandler rfl
    have hlower : Text.lower ("Btn" ++ "_" ++ "Click") = "btn_click" := rfl
    rw [hlower] at hfirst
    have hkey : key = "btn_click" := by
      obtain ⟨q, q', hprocedures, hother⟩ : ∃ q q', namesakes.procedures =
          (Table.insert ∅ "btn_click" q).insert "a.btn_click" q' ∧ q'.decl.name = "BTN_CLICK" :=
        ⟨_, _, rfl, rfl⟩
      rw [hprocedures, Table.find?_insert, Table.find?_insert] at hfound
      split at hfound
      · cases hfound
        exact absurd (hname.symm.trans hother) (by decide)
      · split at hfound
        · next heq => exact heq.symm
        · cases hfound
    -- but it is not the least one
    have hleast : key ≤ "a.btn_click" := by
      have htest : ∀ key, (key == "btn_click" || endsWithName "btn_click" key) = true ↔
          key = "btn_click" ∨ endsWithName "btn_click" key = true := fun key => by simp
      have hfind := (find?_eq_some_iff_isFirst htest).2 hfirst
      rw [procedureKeys, Table.find?_sortedNames_iff htest] at hfind
      exact hfind.2.2 _ rfl (.inr rfl)
    rw [hkey] at hleast
    revert hleast
    decide

end State

end FormBasic
