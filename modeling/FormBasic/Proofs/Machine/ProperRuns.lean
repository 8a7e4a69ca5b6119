import FormBasic.Proofs.Arrays
import FormBasic.Proofs.Machine.ProperState
import FormBasic.Proofs.Machine.Watch

/-!
# Runs that keep states proper

Two runs are compared from proper states, one of which may be given up with a mark. Unless it is,
both do the same, the state in which they end is proper, and what they give has a property `P`. For
an evaluation `P` is that the value is proper, and for most other runs it is nothing at all. The
property is part of the relation because what a run may do with a value depends on it: a field may
be written with the value of an expression, but not with just any value.

## Main definitions

* `Interp.Yields` — the comparison, with `Interp.GivesValue` and `Interp.Keeps` as its two main
  cases

## Main results

* `Yields.bind` — runs in sequence: the second one may rely on what the first one gives
* `Yields.inCall`, `Yields.found?`, `Yields.attempt` — the other ways of putting runs together
* `givesValue_of_builtin?` — built-in procedures give proper values
-/

namespace FormBasic

namespace Interp

variable {α β : Type} {n : Int}

/-! ### The relation -/

/-- A run that ends in a proper state, and with a result that has a property if it succeeds. -/
def EndsProper (P : α → Prop) (x : Interp α) (s : State) : Prop :=
  (x.after s).Proper ∧ ∀ a s', x s = .ok a s' → P a

/-- Two runs that from every proper state are the same, end in a proper state and give what has a
property, unless the first one ends with a mark. -/
def Yields (n : Int) (P : α → Prop) (x y : Interp α) : Prop :=
  ∀ s, s.Proper → x.Marked n s ∨ x s = y s ∧ y.EndsProper P s

/-- Two runs that give proper values. -/
abbrev GivesValue (n : Int) (x y : Interp Value) : Prop :=
  Yields n (fun v : Value => v.isProper = true) x y

/-- Two runs that keep the state proper, whatever they give. -/
abbrev Keeps (n : Int) (x y : Interp α) : Prop := Yields n (fun _ => True) x y

namespace EndsProper

variable {P Q : α → Prop} {x : Interp α} {s s' : State}

theorem of_ok {a : α} (hx : x s = .ok a s') (hs : s'.Proper) (ha : P a) : x.EndsProper P s := by
  refine ⟨by rwa [after_of_ok hx], fun b t hb => ?_⟩
  cases hx.symm.trans hb
  exact ha

theorem of_error {e : Halt} (hx : x s = .error e s') (hs : s'.Proper) : x.EndsProper P s := by
  refine ⟨by rwa [after_of_error hx], fun b t hb => ?_⟩
  cases hx.symm.trans hb

theorem mono (h : x.EndsProper P s) (hPQ : ∀ a, P a → Q a) : x.EndsProper Q s :=
  ⟨h.1, fun a s' hx => hPQ a (h.2 a s' hx)⟩

end EndsProper

namespace Yields

variable {P : α → Prop} {Q : β → Prop} {x y : Interp α}

theorem of_same (h : ∀ s, s.Proper → x.EndsProper P s) : Yields n P x x := fun s hs =>
  .inr ⟨rfl, h s hs⟩

theorem mono {P' : α → Prop} (h : Yields n P x y) (hP : ∀ a, P a → P' a) : Yields n P' x y :=
  fun s hs => (h s hs).imp_right fun ⟨heq, hend⟩ => ⟨heq, hend.mono hP⟩

theorem keeps (h : Yields n P x y) : Keeps n x y := h.mono fun _ _ => trivial

theorem or {q : Prop} (h : Yields n P x y) : Yields n (fun a => P a ∨ q) x y :=
  h.mono fun _ ha => .inl ha

theorem pure {a : α} (ha : P a) : Yields n P (Pure.pure a : Interp α) (Pure.pure a) :=
  .of_same fun _ hs => .of_ok rfl hs ha

theorem throw (e : Halt) :
    Yields n P (MonadExcept.throw e : Interp α) (MonadExcept.throw e) :=
  .of_same fun _ hs => .of_error rfl hs

theorem fail (c : Cause) : Yields n P (Interp.fail c : Interp α) (Interp.fail c) := throw _

theorem failWith (message : String) :
    Yields n P (Interp.failWith message : Interp α) (Interp.failWith message) := throw _

theorem outOfFuel : Yields n P (Interp.outOfFuel : Interp α) Interp.outOfFuel := throw _

/-- The second of two runs in sequence may rely on what the first one gives. -/
theorem bind {k l : α → Interp β} (hx : Yields n P x y)
    (hk : ∀ a, P a → Yields n Q (k a) (l a)) : Yields n Q (x >>= k) (y >>= l) := by
  intro s hs
  obtain hmark | ⟨heq, hafter, hP⟩ := hx s hs
  · exact .inl (hmark.bind k)
  · cases hy : y s with
    | error e s' =>
      rw [after_of_error hy] at hafter
      refine .inr ⟨?_, .of_error (bind_of_error l hy) hafter⟩
      rw [bind_of_error k (heq.trans hy), bind_of_error l hy]
    | ok a s' =>
      rw [after_of_ok hy] at hafter
      rw [Marked, EndsProper, after, bind_of_ok k (heq.trans hy), bind_of_ok l hy]
      exact hk a (hP a s' hy) s' hafter

/-- What a run reads of the state it reads of a proper state. -/
theorem read {k l : State → Interp α} (h : ∀ s, s.Proper → Yields n P (k s) (l s)) :
    Yields n P (get >>= k) (get >>= l) := fun s hs => h s hs s hs

theorem map {f : α → β} (hx : Yields n P x y) (hf : ∀ a, P a → Q (f a)) :
    Yields n Q (f <$> x) (f <$> y) := by
  rw [map_eq_pure_bind, map_eq_pure_bind]
  exact hx.bind fun a ha => .pure (hf a ha)

theorem branch {c : Prop} [Decidable c] {x' y' : Interp α} (h : c → Yields n P x y)
    (h' : ¬ c → Yields n P x' y') : Yields n P (if c then x else x') (if c then y else y') := by
  split
  · next hc => exact h hc
  · next hc => exact h' hc

theorem ite {c : Prop} [Decidable c] {x' y' : Interp α} (h : Yields n P x y)
    (h' : Yields n P x' y') : Yields n P (if c then x else x') (if c then y else y') :=
  branch (fun _ => h) fun _ => h'

/-- Two runs that stand in for optional runs, which may give more than is asked for. -/
theorem getD {P' : α → Prop} {o o' : Option (Interp α)}
    (ho : Option.Rel (fun x y => Yields n P' x y) o o') (hP : ∀ a, P' a → P a)
    (h : Yields n P x y) : Yields n P (o.getD x) (o'.getD y) := by
  cases ho with
  | none => exact h
  | some hz => exact hz.mono hP

theorem lift {z : Fallible α} (h : ∀ a, z = .ok a → P a) :
    Yields n P (Interp.lift z) (Interp.lift z) := by
  cases z with
  | ok a => exact pure (h a rfl)
  | error c => exact fail c

theorem computed (z : Fallible α) : Keeps n (Interp.lift z) (Interp.lift z) :=
  lift fun _ _ => trivial

/-! ### Failures taken for answers -/

theorem found? (h : Yields n P x y) :
    Yields n (fun o => ∀ a, o = some a → P a) (Interp.found? x) (Interp.found? y) := by
  intro s hs
  obtain hmark | ⟨heq, hafter, hP⟩ := h s hs
  · exact .inl hmark.found?
  · refine .inr ⟨by simp only [Interp.found?, heq], by rwa [after_found?], fun o s' ho a ha => ?_⟩
    rw [Interp.found?, ha] at ho
    split at ho
    · next b t hy =>
      cases ho
      exact hP a s' hy
    · split at ho <;> cases ho
    · cases ho

theorem foundOr (h : Yields n P x y) (c : Cause) :
    Yields n P (Interp.foundOr x c) (Interp.foundOr y c) := by
  refine h.found?.bind fun o ho => ?_
  cases o with
  | some a => exact pure (ho a rfl)
  | none => exact fail c

theorem attempt (h : Keeps n x y) : Keeps n (Interp.attempt x) (Interp.attempt y) := by
  intro s hs
  obtain hmark | ⟨heq, hafter, -⟩ := h s hs
  · exact .inl hmark.attempt
  · exact .inr ⟨by simp only [Interp.attempt, heq], by rwa [after_attempt], fun _ _ _ => trivial⟩

theorem resume (outcome : Except Failure α) :
    Keeps n (Interp.resume outcome) (Interp.resume outcome) := by
  cases outcome with
  | ok a => exact pure trivial
  | error f => exact throw _

theorem onFailure (f : Failure → Failure) (h : Yields n P x y) :
    Yields n P (Interp.onFailure f x) (Interp.onFailure f y) := by
  intro s hs
  obtain hmark | ⟨heq, hafter, hP⟩ := h s hs
  · exact .inl (hmark.onFailure f)
  · refine .inr ⟨by simp only [Interp.onFailure, heq], by rwa [after_onFailure], fun a s' ha => ?_⟩
    rw [Interp.onFailure] at ha
    split at ha
    · cases ha
    · exact hP a s' ha

/-! ### Contexts and scopes -/

theorem inContext {d : Detour} (hd : d.KeepsProper) (h : Yields n P x y) :
    Yields n P (Interp.inContext d x) (Interp.inContext d y) := by
  intro s hs
  obtain hmark | ⟨heq, hafter, hP⟩ := h { s with context := d.enter s.context }
    ⟨hs.scopes, hs.heap, hd.enter hs.withStack⟩
  · exact .inl (.inContext hmark)
  · refine .inr ⟨by simp only [Interp.inContext, heq], ?_, fun a s' ha => ?_⟩
    · rw [after_inContext]
      exact ⟨hafter.scopes, hafter.heap, hd.leave hs.withStack hafter.withStack⟩
    · rw [Interp.inContext] at ha
      split at ha
      · next hy =>
        cases ha
        exact hP a _ hy
      · cases ha

theorem inScope (h : Yields n P x y) : Yields n P (Interp.inScope x) (Interp.inScope y) := by
  intro s hs
  obtain hmark | ⟨heq, hafter, hP⟩ := h { s with scopes := s.scopes.push }
    ⟨hs.scopes.push, hs.heap, hs.withStack⟩
  · exact .inl (.inScope hmark)
  · refine .inr ⟨by simp only [Interp.inScope, heq], ?_, fun a s' ha => ?_⟩
    · rw [after_inScope]
      exact ⟨hafter.scopes.pop, hafter.heap, hafter.withStack⟩
    · rw [Interp.inScope] at ha
      split at ha
      · next hy =>
        cases ha
        exact hP a _ hy
      · cases ha

theorem inCall (c : Callable) (self : Option ObjectRef) (classContext : String)
    (h : Yields n P x y) :
    Yields n P (Interp.inCall c self classContext x) (Interp.inCall c self classContext y) :=
  read fun _ _ => ite (failWith _) <|
    inContext ⟨fun _ => nofun, fun hbefore _ => hbefore⟩ (h.onFailure _).inScope

/-! ### Changes of the state -/

theorem modifyGet {f : State → α × State}
    (h : ∀ s, s.Proper → (f s).2.Proper ∧ P (f s).1) :
    Yields n P (MonadStateOf.modifyGet f : Interp α) (MonadStateOf.modifyGet f) :=
  .of_same fun s hs => .of_ok rfl (h s hs).1 (h s hs).2

theorem modify {f : State → State} (h : ∀ s, s.Proper → (f s).Proper) :
    Keeps n (modify f : Interp PUnit) (modify f) :=
  modifyGet fun s hs => ⟨h s hs, trivial⟩

end Yields

/-! ### Bindings and fields -/

theorem keeps_bind (name : String) {b : Binding} (hb : b.value.isProper = true) :
    Keeps n (updateScopes (·.updateCurrent (·.insert (Text.lower name) b)))
      (updateScopes (·.updateCurrent (·.insert (Text.lower name) b))) :=
  .modify fun _ hs => ⟨hs.scopes.insertCurrent _ hb, hs.heap, hs.withStack⟩

theorem keeps_define (name : String) {v : Value} (hv : v.isProper = true) :
    Keeps n (define name v) (define name v) := keeps_bind name hv

theorem keeps_defineConst (name : String) {v : Value} (hv : v.isProper = true) :
    Keeps n (updateScopes (·.defineConst name v)) (updateScopes (·.defineConst name v)) :=
  keeps_bind name hv

theorem keeps_defineGlobal (name : String) {v : Value} (hv : v.isProper = true) :
    Keeps n (updateScopes (·.defineGlobal name v)) (updateScopes (·.defineGlobal name v)) :=
  .modify fun _ hs => ⟨hs.scopes.defineGlobal _ hv, hs.heap, hs.withStack⟩

theorem keeps_defineMember (owner member : String) {v : Value} (hv : v.isProper = true) :
    Keeps n (updateScopes (·.defineMember owner member v))
      (updateScopes (·.defineMember owner member v)) :=
  keeps_defineGlobal _ hv

theorem keeps_rebind (name : String) {v : Value} (hv : v.isProper = true) :
    Keeps n (rebind name v) (rebind name v) := by
  refine .of_same fun s hs => ⟨?_, fun _ _ _ => trivial⟩
  obtain hsame | ⟨scopes, hset, hafter⟩ := after_rebind name v s
  · rwa [hsame]
  · rw [hafter]
    exact ⟨hs.scopes.set hv hset, hs.heap, hs.withStack⟩

theorem keeps_setField (r : ObjectRef) (name : String) {v : Value} (hv : v.isProper = true) :
    Keeps n (setField r name v) (setField r name v) :=
  .modify fun _ hs => ⟨hs.scopes, hs.heap.set _ _ hv, hs.withStack⟩

theorem keeps_newObject (className : String) :
    Keeps n (newObject className) (newObject className) :=
  .modifyGet fun _ hs => ⟨⟨hs.scopes, hs.heap.alloc className, hs.withStack⟩, trivial⟩

theorem keeps_emit (e : Effect) : Keeps n (emit e) (emit e) :=
  .modify fun _ hs => ⟨hs.scopes, hs.heap, hs.withStack⟩

theorem keeps_publish (name : String) (r : ObjectRef) :
    Keeps n (publish name r) (publish name r) := by
  have hfield : Keeps n (getField? r "name") (getField? r "name") := .read fun _ _ => .pure trivial
  refine hfield.bind fun _ _ => .ite ?_ (keeps_defineGlobal name rfl)
  exact (keeps_setField r "name" rfl).bind fun _ _ => keeps_defineGlobal name rfl

/-! ### Arrays -/

theorem givesValue_newArrayOf (vs : List Value) : GivesValue n (newArrayOf vs) (newArrayOf vs) :=
  .modifyGet fun _ hs => ⟨⟨hs.scopes, hs.heap.tags _, hs.withStack⟩, rfl⟩

theorem givesValue_newTexts (ts : List String) : GivesValue n (newTexts ts) (newTexts ts) :=
  givesValue_newArrayOf _

theorem isProper_newArray {start : Value} (hstart : start.isProper = true) (bs : List Int)
    (tags : Nat) : ((newArray start bs).run tags).1.isProper = true := by
  cases bs with
  | nil => exact hstart
  | cons b bs => rfl

/-- An array starts with proper values if it has no dimension at all. -/
theorem givesValue_build {start : Value} (hstart : start.isProper = true) (bs : List Int) :
    GivesValue n (build (newArray start bs)) (build (newArray start bs)) :=
  .modifyGet fun s hs =>
    ⟨⟨hs.scopes, hs.heap.tags _, hs.withStack⟩, isProper_newArray hstart bs s.heap.tags⟩

theorem givesValue_withElement (v : Value) (is : List Int) {element : Value}
    (helement : element.isProper = true) :
    GivesValue n (withTags (withElement v is element)) (withTags (withElement v is element)) := by
  refine .read fun s _ => ?_
  refine Yields.bind (P := fun found : Value × Nat => found.1.isProper = true)
    (.lift fun _ hfound => (Value.replaced_of_withElement hfound).isProper helement)
    fun found hfound => ?_
  have hset : Keeps n (modify fun s => { s with heap := { s.heap with tags := found.2 } } :
      Interp PUnit) (modify fun s => { s with heap := { s.heap with tags := found.2 } }) :=
    .modify fun _ hs => ⟨hs.scopes, hs.heap.tags _, hs.withStack⟩
  exact hset.bind fun _ _ => .pure hfound

/-! ### Instances and data binding -/

theorem keeps_mapM_newTexts (rows : List (List String)) :
    Keeps n (rows.mapM newTexts) (rows.mapM newTexts) := by
  induction rows with
  | nil => exact .pure trivial
  | cons row rows ih =>
    rw [List.mapM_cons]
    exact (givesValue_newTexts row).bind fun _ _ => ih.bind fun _ _ => .pure trivial

theorem keeps_newTable (className : String) (table : Data.ResultSet) :
    Keeps n (newTable className table) (newTable className table) := by
  refine (keeps_newObject _).bind fun t _ => ?_
  refine (givesValue_newTexts _).bind fun columns hcolumns => ?_
  refine (keeps_setField t _ hcolumns).bind fun _ _ => ?_
  refine (keeps_mapM_newTexts _).bind fun rows _ => ?_
  refine (givesValue_newArrayOf _).bind fun v hv => ?_
  exact (keeps_setField t _ hv).bind fun _ _ => .pure trivial

theorem keeps_undeclaredInstance (className : String) (args : List Value) :
    Keeps n (undeclaredInstance className args) (undeclaredInstance className args) := by
  refine .ite ?_ (.ite ?_ (.ite ?_ (keeps_newObject _)))
  · exact (keeps_newObject _).bind fun r _ => (keeps_setField r _ rfl).bind fun _ _ => .pure trivial
  · refine (keeps_newObject _).bind fun r _ => (keeps_setField r _ rfl).bind fun _ _ => ?_
    exact (keeps_setField r _ rfl).bind fun _ _ => (keeps_setField r _ rfl).bind fun _ _ =>
      .pure trivial
  · refine (keeps_newTable _ _).bind fun t _ => ?_
    cases args with
    | nil => exact .pure trivial
    | cons v vs => exact (keeps_setField t _ rfl).bind fun _ _ => .pure trivial

theorem keeps_queryFor (target : ObjectRef) (query : String) :
    Keeps n (queryFor target query) (queryFor target query) := by
  refine .read fun s _ => ?_
  cases s.service with
  | none => exact .failWith _
  | some service =>
    dsimp only
    split
    · exact .pure trivial
    · exact .failWith _

theorem keeps_tableFor (target : ObjectRef) (v : Value) :
    Keeps n (tableFor target v) (tableFor target v) := by
  unfold tableFor
  split
  · refine .ite (.pure trivial) (.ite (.read fun s _ => ?_) (.fail _))
    split
    · exact .pure trivial
    · exact keeps_newTable _ _
  · exact (keeps_queryFor _ _).bind fun _ _ => keeps_newTable _ _
  · exact .ite (keeps_newTable _ _) (.fail _)

theorem keeps_movePosition (r : ObjectRef) (position count : Int) :
    Keeps n (movePosition r position count) (movePosition r position count) := by
  refine (keeps_setField r _ rfl).bind fun _ _ => (keeps_setField r _ rfl).bind fun _ _ => ?_
  exact .read fun _ _ => keeps_emit _

theorem keeps_assignDataSource (r : ObjectRef) {v : Value} (hv : v.isProper = true) :
    Keeps n (assignDataSource r v) (assignDataSource r v) := by
  refine (keeps_tableFor r v).bind fun t _ => .ite ?_ ?_
  · exact (keeps_setField r _ rfl).bind fun _ _ => .read fun _ _ => keeps_movePosition _ _ _
  · exact (keeps_setField r _ hv).bind fun _ _ => .read fun _ _ => keeps_emit _

theorem keeps_assignBindingMember (r : ObjectRef) (member : String) {v : Value}
    (hv : v.isProper = true) :
    Keeps n (assignBindingMember r member v) (assignBindingMember r member v) := by
  refine .ite ?_ (.ite ?_ (.pure trivial))
  · exact (keeps_assignDataSource r hv).bind fun _ _ => .pure trivial
  · refine Yields.bind (.computed _) fun _ _ => .read fun s _ => ?_
    exact (keeps_movePosition _ _ _).bind fun _ _ => .pure trivial

theorem keeps_of_bindingMethod? {h : Heap} {r : ObjectRef} {method : String} {x : Interp Unit}
    (hx : bindingMethod? h r method = some x) : Keeps n x x := by
  obtain ⟨target, rfl⟩ := exists_movePosition_of_bindingMethod? hx
  exact keeps_movePosition _ _ _

/-! ### The console -/

theorem keeps_leave (session : ConsoleSession) :
    Keeps n (leave session : Interp α) (leave session) := by
  have hclose : Keeps n
      (modify fun s => { s with console := some { session with closed := true } } : Interp PUnit)
      (modify fun s => { s with console := some { session with closed := true } }) :=
    .modify fun _ hs => ⟨hs.scopes, hs.heap, hs.withStack⟩
  exact hclose.bind fun _ _ => .throw _

theorem keeps_send (session : ConsoleSession) (m : ConsoleMessage) :
    Keeps n (send session m) (send session m) := by
  refine .ite (.throw _) (.ite (keeps_leave _) ?_)
  exact .modify fun _ hs => ⟨hs.scopes, hs.heap, hs.withStack⟩

theorem keeps_consoleWrite (text : String) : Keeps n (consoleWrite text) (consoleWrite text) := by
  refine .read fun s _ => ?_
  cases s.console with
  | none => exact keeps_emit _
  | some session => exact keeps_send _ _

theorem keeps_consoleClear : Keeps n consoleClear consoleClear := by
  refine .read fun s _ => ?_
  cases s.console with
  | none => exact keeps_emit _
  | some session => exact keeps_send _ _

theorem keeps_consoleRead : Keeps n consoleRead consoleRead := by
  refine .read fun s _ => ?_
  cases s.console with
  | none => exact .pure trivial
  | some session =>
    refine (keeps_send _ _).bind fun _ _ => ?_
    dsimp only
    split
    · exact .pure trivial
    · exact keeps_leave _

theorem keeps_resetColors : Keeps n resetColors resetColors :=
  .modify fun _ hs => ⟨hs.scopes, hs.heap, hs.withStack⟩

theorem keeps_colorNumber (v : Value) : Keeps n (colorNumber v) (colorNumber v) :=
  Yields.bind (.computed _) fun _ _ => .ite (.failWith _) (.pure trivial)

theorem keeps_assignIntrinsic (owner member : String) {v : Value} (hv : v.isProper = true) :
    Keeps n (assignIntrinsic owner member v) (assignIntrinsic owner member v) := by
  refine .ite ?_ (.ite ?_ (.ite (keeps_defineMember _ _ hv) (.failWith _)))
  · exact (keeps_colorNumber v).bind fun _ _ =>
      .modify fun _ hs => ⟨hs.scopes, hs.heap, hs.withStack⟩
  · exact (keeps_colorNumber v).bind fun _ _ =>
      .modify fun _ hs => ⟨hs.scopes, hs.heap, hs.withStack⟩

/-! ### What the host does -/

theorem keeps_addControls (form : ObjectRef) {cs : List ControlSpec}
    (hcs : ∀ c ∈ cs, ∀ p ∈ c.properties, p.2.isProper = true) :
    Keeps n (addControls form cs) (addControls form cs) := by
  have hfields : ∀ (r : ObjectRef) (ps : List (String × Value)),
      (∀ p ∈ ps, p.2.isProper = true) →
      Keeps n (ps.forM fun p => setField r p.1 p.2) (ps.forM fun p => setField r p.1 p.2) := by
    intro r ps hps
    induction ps with
    | nil => exact .pure trivial
    | cons p ps ih =>
      refine (keeps_setField r p.1 (hps p List.mem_cons_self)).bind fun _ _ => ?_
      exact ih fun q hq => hps q (List.mem_cons_of_mem _ hq)
  induction cs with
  | nil => exact .pure trivial
  | cons c cs ih =>
    have hnew : Keeps n (newControl c) (newControl c) := by
      refine (keeps_undeclaredInstance _ _).bind fun r _ => ?_
      refine (keeps_setField r _ rfl).bind fun _ _ => ?_
      exact (hfields r _ (hcs c List.mem_cons_self)).bind fun _ _ => .pure trivial
    refine hnew.bind fun r _ => (keeps_setField form c.name rfl).bind fun _ _ => ?_
    exact ih fun d hd => hcs d (List.mem_cons_of_mem _ hd)

end Interp

open Interp

variable {n : Int}

/-! ### Built-in procedures -/

namespace Builtin

theorem givesValue_msgBox (args : List Value) : GivesValue n (msgBox args) (msgBox args) := by
  refine Yields.bind (.computed _) fun _ _ => .read fun s _ => .ite ?_ ?_
  · exact (keeps_consoleWrite _).bind fun _ _ => .pure rfl
  · exact (keeps_emit _).bind fun _ _ => .pure rfl

theorem givesValue_inputBox (args : List Value) : GivesValue n (inputBox args) (inputBox args) := by
  refine Yields.bind (.computed _) fun _ _ => .read fun s _ => .ite ?_ ?_
  · exact (keeps_consoleWrite _).bind fun _ _ => keeps_consoleRead.bind fun _ _ => .pure rfl
  · refine Yields.bind (.computed _) fun x _ => Yields.bind (.computed _) fun y _ => ?_
    exact (keeps_emit _).bind fun _ _ => .pure rfl

theorem givesValue_write (ending : String) (args : List Value) :
    GivesValue n (write ending args) (write ending args) :=
  (keeps_consoleWrite _).bind fun _ _ => .pure rfl

theorem givesValue_runApplication (args : List Value) :
    GivesValue n (runApplication args) (runApplication args) :=
  Yields.bind (.computed _) fun _ _ => .read fun _ _ => (keeps_emit _).bind fun _ _ => .pure rfl

theorem givesValue_random (args : List Value) : GivesValue n (random args) (random args) := by
  refine .read fun s _ => ?_
  have hseed : ∀ seed, Keeps n (modify fun s => { s with seed } : Interp PUnit)
      (modify fun s => { s with seed }) :=
    fun _ => .modify fun _ hs => ⟨hs.scopes, hs.heap, hs.withStack⟩
  exact (hseed _).bind fun _ _ => .pure rfl

theorem givesValue_of_effectful? {key : String} {b : Builtin} (hb : effectful? key = some b)
    (args : List Value) : GivesValue n (b args) (b args) := by
  unfold effectful? at hb
  split at hb <;> cases hb
  · exact givesValue_msgBox args
  · exact givesValue_inputBox args
  · exact Yields.bind (.computed _) fun _ _ => givesValue_newTexts _
  · exact givesValue_random args
  · exact .read fun _ _ => .pure rfl
  · exact .read fun _ _ => .pure rfl
  · exact .read fun _ _ => .pure rfl
  · exact .read fun _ _ => .pure rfl
  · exact givesValue_write _ args
  · exact givesValue_write _ args
  · exact keeps_consoleRead.bind fun _ _ => .pure rfl
  · exact keeps_consoleClear.bind fun _ _ => .pure rfl
  · exact keeps_resetColors.bind fun _ _ => .pure rfl
  · exact givesValue_runApplication args

end Builtin

/-- Built-in procedures give proper values, except for `IIf`, whose arguments have to be proper. -/
theorem givesValue_of_builtin? {key : String} {b : Builtin} (hb : builtin? key = some b)
    {args : List Value} (hargs : key = "iif" → ∀ a ∈ args, a.isProper = true) :
    GivesValue n (b args) (b args) := by
  unfold builtin? at hb
  split at hb
  · next f hf =>
    cases hb
    exact .lift (Library.givesProper_of_function? hf hargs)
  · exact Builtin.givesValue_of_effectful? hb args

/-- Whatever its arguments, no built-in procedure spoils the state. -/
theorem keeps_of_builtin? {key : String} {b : Builtin} (hb : builtin? key = some b)
    (args : List Value) : Keeps n (b args) (b args) := by
  unfold builtin? at hb
  split at hb
  · cases hb
    exact .computed _
  · exact (Builtin.givesValue_of_effectful? hb args).keeps

namespace Interp

theorem givesValue_valueMethod (v : Value) (method : String) (args : List Value) :
    GivesValue n (valueMethod v method args) (valueMethod v method args) := by
  unfold valueMethod
  split
  · exact .ite (givesValue_newTexts _) (.lift (Library.givesProper_valueMethod _ _ _))
  · exact .lift (Library.givesProper_valueMethod _ _ _)

theorem givesValue_intrinsicMember (owner member : String) :
    GivesValue n (intrinsicMember owner member) (intrinsicMember owner member) := by
  refine .read fun s _ => .ite (.pure rfl) (.ite (.pure rfl) (.ite (.pure rfl) ?_))
  split
  · next hb => exact givesValue_of_builtin? hb fun _ => nofun
  · exact .fail _

end Interp

namespace Runner

theorem givesValue_withTarget : GivesValue n withTarget withTarget := by
  refine .read fun s hs => ?_
  cases hstack : s.context.withStack with
  | nil => exact .failWith _
  | cons v vs => exact .pure (hs.withStack v (by rw [hstack]; exact List.mem_cons_self))

theorem givesValue_currentObject : GivesValue n currentObject currentObject := by
  refine .read fun s _ => ?_
  cases s.context.self with
  | none => exact .failWith _
  | some r => exact .pure rfl

theorem givesValue_commonMethod (r : ObjectRef) (method : String) (args : List Value) :
    GivesValue n (commonMethod r method args) (commonMethod r method args) := by
  refine .read fun s _ => ?_
  split
  · exact (keeps_emit _).bind fun _ _ => .pure rfl
  · exact (keeps_emit _).bind fun _ _ => .pure rfl
  · exact (keeps_emit _).bind fun _ _ => .pure rfl
  · exact .pure rfl
  · exact .pure rfl
  · split
    · exact .pure rfl
    · exact .fail _

theorem givesValue_missingBase (className method : String) :
    GivesValue n (missingBase className method) (missingBase className method) :=
  .ite (.pure rfl) (.fail _)

/-- A value that has to be an instance and is one is proper. -/
theorem yields_neededObject (v : Value) :
    Yields n (fun r => v = .object r) (neededObject v) (neededObject v) := by
  unfold neededObject
  split
  · exact .pure rfl
  · exact .fail _

theorem givesValue_cast (kind targetType : String) (v : Value) :
    GivesValue n (cast kind targetType v) (cast kind targetType v) := by
  unfold cast
  split
  · exact .read fun s _ => .ite (.pure rfl) (.ite (.pure rfl) (.fail _))
  · split
    · next hw => exact .pure (Value.givesProper_coerceTo _ _ _ hw)
    · exact .ite (.pure rfl) (.fail _)

theorem givesValue_resultOf (c : Callable) (signal : Signal) :
    GivesValue n (resultOf c signal) (resultOf c signal) := by
  let convert (v : Value) : Interp Value :=
    if c.isFunction = true then lift (v.coerceTo c.returnType) else pure v
  have hv : ∀ v : Value, v.isProper = true →
      GivesValue n (pure v >>= convert) (pure v >>= convert) := fun v hv =>
    (Yields.pure (P := fun v : Value => v.isProper = true) hv).bind fun w hw =>
      .ite (.lift (Value.givesProper_coerceTo _ _)) (.pure hw)
  have hlookup : ∀ {s : State}, s.Proper →
      ((s.scopes.lookup? c.name).getD .nothing).isProper = true := by
    intro s hs
    cases hfound : s.scopes.lookup? c.name with
    | none => rfl
    | some v => exact hs.scopes.lookup? hfound
  refine .branch (fun hreturned => hv _ hreturned) fun _ => ?_
  exact .ite (.read fun s hs => hv _ (hlookup hs)) (hv _ rfl)

theorem keeps_newException (className message : String) :
    Keeps n (newException className message) (newException className message) :=
  (keeps_newObject _).bind fun r _ => (keeps_setField r _ rfl).bind fun _ _ => .pure trivial

theorem keeps_exceptionFor (f : Failure) : Keeps n (exceptionFor f) (exceptionFor f) := by
  unfold exceptionFor
  split
  · exact .pure trivial
  · exact keeps_newException _ _
  · exact .read fun _ _ => keeps_newException _ _

theorem keeps_afterCleanup (outcome : Except Failure Signal) (cleanup : Signal) :
    Keeps n (afterCleanup outcome cleanup) (afterCleanup outcome cleanup) := by
  refine (Yields.resume outcome).bind fun signal _ => ?_
  split <;> exact .pure trivial

theorem keeps_eventArguments (form : Option ObjectRef) (control : String) (args : List Value) :
    Keeps n (eventArguments form control args) (eventArguments form control args) := by
  have hsender : Keeps n (sender form control) (sender form control) := by
    refine .read fun s _ => ?_
    dsimp only
    split
    · exact .pure trivial
    · exact .pure trivial
    · exact (keeps_newObject _).bind fun r _ => (keeps_setField r _ rfl).bind fun _ _ =>
        .pure trivial
  refine .ite (hsender.bind fun _ _ => ?_) (.pure trivial)
  exact (keeps_newObject _).bind fun _ _ => .pure trivial

theorem keeps_assignFlattened (owner member : String) {v : Value} (hv : v.isProper = true) :
    Keeps n (assignFlattened owner member v) (assignFlattened owner member v) :=
  (keeps_defineMember owner member hv).bind fun _ _ => keeps_emit _

end Runner

end FormBasic
