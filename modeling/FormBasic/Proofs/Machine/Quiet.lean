import FormBasic.Machine.Exchange
import FormBasic.Machine.Host
import FormBasic.Proofs.Heap
import FormBasic.Proofs.Machine.Tandem
import Mathlib.Logic.Relation

/-!
# Runs that leave bindings and context alone

Nearly everything a program does outside its own assignments and calls (writing to the console,
queueing effects, building arrays and instances, moving binding sources, adding handlers) changes
neither the bindings nor the context, declares nothing, takes no effect back and needs no fuel; what
it does to the console session is to make calls; and if it finds that the host of the session has
gone, it gives up, and it is abandoned for no other reason. A runtime error with which it fails is
one that it raises itself, and whether it runs in a console session makes no difference to it,
unless it asks something. `Interp.Quiet` says so of a run, however it ends, and this module collects
the operations that are quiet. What is not quiet is short, and is listed by `StepRelation`.

## Main results

* `Interp.Quiet.bind` — quiet runs in sequence are quiet
* `quiet_of_builtin?` — every built-in procedure is quiet
-/

namespace FormBasic

/-! ### Calm changes -/

/-- What has been declared. -/
structure Declarations where
  procedures : Table ProcedureEntry
  properties : Table PropertyDecl
  classes : ClassTable

/-- What has been declared in a state. -/
def State.declarations (s : State) : Declarations := ⟨s.procedures, s.properties, s.classes⟩

/-- Where modules are imported from, and which have been. -/
structure Imports where
  config : Config
  files : Files
  imported : List String

/-- What has been imported in a state, and from where. -/
def State.imports (s : State) : Imports := ⟨s.config, s.files, s.imported⟩

/-- Whether the program has found that the host of its console session has gone. -/
def State.hostGone (s : State) : Bool := s.console.any (·.closed)

/-- What one call of the program does to its console session. -/
inductive ConsoleSession.Turn : ConsoleSession → ConsoleSession → Prop where
  /-- The host takes a message. -/
  | tell {c : ConsoleSession} (call : ConsoleCall) (hcall : call ≠ .readLine)
    (hopen : c.closed = false) (hstays : c.host.leaves (call.message :: c.sent) = false) :
    Turn c { c with sent := call.message :: c.sent }
  /-- The host takes a request and answers it. -/
  | ask {c : ConsoleSession} (line : String) (hopen : c.closed = false)
    (hstays : c.host.leaves (.inputRequest :: c.sent) = false)
    (hanswer : c.host.answer (.inputRequest :: c.sent) = some line) :
    Turn c { c with sent := .inputRequest :: c.sent }
  /-- The host takes a request and leaves. -/
  | desert {c : ConsoleSession} (hopen : c.closed = false)
    (hstays : c.host.leaves (.inputRequest :: c.sent) = false)
    (hanswer : c.host.answer (.inputRequest :: c.sent) = none) :
    Turn c { c with sent := .inputRequest :: c.sent, closed := true }
  /-- The host leaves instead of taking a message. -/
  | leave {c : ConsoleSession} (call : ConsoleCall) (hopen : c.closed = false)
    (hleaves : c.host.leaves (call.message :: c.sent) = true) : Turn c { c with closed := true }

/-- A console session is led to from another one by calls, or there is none. -/
abbrev ConsoleSession.Talks : Option ConsoleSession → Option ConsoleSession → Prop :=
  Relation.ReflTransGen (Option.Rel ConsoleSession.Turn)

theorem ConsoleSession.Turn.talks {c d : ConsoleSession} (h : c.Turn d) :
    Talks (some c) (some d) := .single (.some h)

/-- What is done to the handlers that have been added: one more is added behind them, or those that
are meant by a registration are taken out. -/
inductive Registration.Change : List Registration → List Registration → Prop
  | add (rs : List Registration) (r : Registration) : Change rs (rs ++ [r])
  | remove (rs : List Registration) (r : Registration) :
    Change rs (rs.filter fun old => !r.isRemovedBy old)

/-- Handlers that have been added, and those that they have become. -/
abbrev Registration.History : List Registration → List Registration → Prop :=
  Relation.ReflTransGen Registration.Change

/-- A state with the context, the bindings, the declarations and the imports of another one, in
which the fields of the other one remain and its effects still come first, and whose handlers and
console session have gone on as they may. -/
structure State.Calm (s t : State) : Prop where
  context : t.context = s.context
  scopes : t.scopes = s.scopes
  declarations : t.declarations = s.declarations
  moduleNames : t.moduleNames = s.moduleNames
  imports : t.imports = s.imports
  heap : s.heap.Grows t.heap
  effects : s.effects.toList <+: t.effects.toList
  console : ConsoleSession.Talks s.console t.console
  registrations : Registration.History s.registrations t.registrations

/-- What has been asked remains asked. -/
theorem State.HasAsked.talks {s t : State} (h : s.HasAsked)
    (htalks : ConsoleSession.Talks s.console t.console) : t.HasAsked := by
  unfold HasAsked at h ⊢
  generalize t.console = console at htalks ⊢
  induction htalks with
  | refl => exact h
  | tail _ hturn ih =>
    obtain ⟨session, rfl, hasked⟩ := ih
    cases hturn with
    | some hturn => cases hturn <;> exact ⟨_, rfl, by simp [hasked]⟩

namespace State.Calm

variable {s t u : State}

/-- Only the heap changes, and it grows. -/
theorem of_heap (hheap : s.heap.Grows t.heap)
    (h : (t.context, t.scopes, t.declarations, t.moduleNames, t.imports, t.effects, t.console,
        t.registrations) =
      (s.context, s.scopes, s.declarations, s.moduleNames, s.imports, s.effects, s.console,
        s.registrations)) : s.Calm t := by
  simp only [Prod.mk.injEq] at h
  obtain ⟨hcontext, hscopes, hdeclarations, hmodules, himports, heffects, hconsole,
    hregistrations⟩ := h
  exact ⟨hcontext, hscopes, hdeclarations, hmodules, himports, hheap, heffects ▸ List.prefix_rfl,
    hconsole ▸ .refl, hregistrations ▸ .refl⟩

theorem of_eq (h : (t.context, t.scopes, t.declarations, t.moduleNames, t.imports, t.effects,
      t.console, t.registrations, t.heap.instances) =
    (s.context, s.scopes, s.declarations, s.moduleNames, s.imports, s.effects, s.console,
      s.registrations, s.heap.instances)) : s.Calm t := by
  simp only [Prod.mk.injEq] at h
  obtain ⟨hcontext, hscopes, hdeclarations, hmodules, himports, heffects, hconsole,
    hregistrations, hheap⟩ := h
  refine .of_heap (Heap.grows_of_instances hheap) ?_
  rw [hcontext, hscopes, hdeclarations, hmodules, himports, heffects, hconsole, hregistrations]

theorem refl (s : State) : s.Calm s := .of_eq rfl

theorem trans (h : s.Calm t) (h' : t.Calm u) : s.Calm u :=
  ⟨h'.context.trans h.context, h'.scopes.trans h.scopes, h'.declarations.trans h.declarations,
    h'.moduleNames.trans h.moduleNames, h'.imports.trans h.imports, h.heap.trans h'.heap,
    h.effects.trans h'.effects, h.console.trans h'.console,
    h.registrations.trans h'.registrations⟩

end State.Calm

/-- An end of a run that no `Try` takes for an answer. -/
def Halt.isFinal : Halt → Bool
  | .failure .abandoned => true
  | .failure _ => false
  | .outOfFuel => true

/-- A failure that has not left any procedure. -/
def Failure.isFresh : Failure → Bool
  | .runtime _ stack => stack.isEmpty
  | _ => true

namespace Interp

variable {α β : Type}

/-! ### Giving up -/

/-- A run that ends for good if it finds that the host has gone. -/
def GivesUp (x : Interp α) (s : State) : Prop :=
  (x.after s).hostGone = true →
    s.hostGone = true ∨ ∃ e s', x s = .error e s' ∧ e.isFinal = true

theorem givesUp_of_after {x : Interp α} {s : State} (h : (x.after s).console = s.console) :
    x.GivesUp s := by
  intro hgone
  rw [State.hostGone, h] at hgone
  exact .inl hgone

theorem givesUp_bind {x : Interp α} {k : α → Interp β} {s : State} (hx : x.GivesUp s)
    (hk : ∀ a s', x s = .ok a s' → (k a).GivesUp s') : (x >>= k).GivesUp s := by
  intro hgone
  cases hr : x s with
  | ok a s' =>
    rw [after, bind_of_ok k hr] at hgone
    rw [bind_of_ok k hr]
    rcases hk a s' hr hgone with hgone' | hend
    · rcases hx (by rwa [after_of_ok hr]) with h | ⟨e, t, he, -⟩
      · exact .inl h
      · rw [hr] at he
        cases he
    · exact .inr hend
  | error e s' =>
    rw [after, bind_of_error k hr] at hgone
    rw [bind_of_error k hr]
    rcases hx (by rwa [after_of_error hr]) with h | ⟨e', t, he, hfinal⟩
    · exact .inl h
    · rw [hr] at he
      cases he
      exact .inr ⟨e, s', rfl, hfinal⟩

/-- A run that is abandoned only if the host has been found gone. -/
def Perseveres (x : Interp α) (s : State) : Prop :=
  ∀ s', x s = .error (.failure .abandoned) s' → s'.hostGone = true

theorem perseveres_of_ok {x : Interp α} {s s' : State} {a : α} (h : x s = .ok a s') :
    x.Perseveres s := by
  intro t habandoned
  cases h.symm.trans habandoned

theorem perseveres_throw {f : Failure} (hf : f ≠ .abandoned) (s : State) :
    (throw (.failure f) : Interp α).Perseveres s := by
  rintro _ ⟨⟩
  exact absurd rfl hf

/-- What a run reads from the state is the state that it is run in. -/
theorem perseveres_of_get {k : State → Interp α} {s : State} (hk : (k s).Perseveres s) :
    (get >>= k).Perseveres s := hk

theorem perseveres_bind {x : Interp α} {k : α → Interp β} {s : State} (hx : x.Perseveres s)
    (hk : ∀ a s', x s = .ok a s' → (k a).Perseveres s') : (x >>= k).Perseveres s := by
  intro t habandoned
  cases hr : x s with
  | ok a s' => exact hk a s' hr t ((bind_of_ok k hr).symm.trans habandoned)
  | error e s' =>
    cases (bind_of_error k hr).symm.trans habandoned
    exact hx t hr

/-! ### Quiet runs -/

/-- A run from a state that leaves the context, the bindings and the declarations alone, takes no
effect back, does not run out of fuel, and gives up if it finds that the host has gone. -/
def QuietAt (x : Interp α) (s : State) : Prop := s.Calm (x.after s) ∧ x.Ends s ∧ x.GivesUp s

/-- A run whose runtime errors are its own: they have not left any procedure. -/
def Fresh (x : Interp α) : Prop := ∀ s f s', x s = .error (.failure f) s' → f.isFresh = true

/-- A run that is quiet from every state, is abandoned only if the host has gone, raises its errors
itself, and does the same in a console session as outside. -/
structure Quiet (x : Interp α) : Prop where
  quietAt : ∀ s, x.QuietAt s
  perseveres : ∀ s, x.Perseveres s
  fresh : x.Fresh
  tandems : x.Tandems

theorem quietAt_pure (a : α) (s : State) : QuietAt (pure a : Interp α) s :=
  ⟨.refl s, ends_of_ok rfl, givesUp_of_after rfl⟩

theorem quietAt_throw (f : Failure) (s : State) : QuietAt (throw (.failure f) : Interp α) s :=
  ⟨.refl s, ends_of_failure rfl, givesUp_of_after rfl⟩

/-- Runs that do the same in a state are quiet together. -/
theorem quietAt_congr {x y : Interp α} {s : State} (h : x s = y s) (hy : y.QuietAt s) :
    x.QuietAt s := by
  unfold QuietAt Ends GivesUp after at hy ⊢
  rwa [h]

theorem quietAt_get (s : State) : QuietAt (get : Interp State) s :=
  ⟨.refl s, ends_of_ok rfl, givesUp_of_after rfl⟩

/-- What a run reads from the state is the state that it is run in. -/
theorem quietAt_of_get {k : State → Interp α} {s : State} (hk : (k s).QuietAt s) :
    (get >>= k).QuietAt s := hk

theorem QuietAt.bind {x : Interp α} {k : α → Interp β} {s : State} (hx : QuietAt x s)
    (hk : ∀ a s', x s = .ok a s' → QuietAt (k a) s') : QuietAt (x >>= k) s :=
  ⟨after_bind .trans hx.1 fun a s' hr => (hk a s' hr).1,
    ends_bind hx.2.1 fun a s' hr => (hk a s' hr).2.1,
    givesUp_bind hx.2.2 fun a s' hr => (hk a s' hr).2.2⟩

theorem grows_of_quietAt {x : Interp α} (h : ∀ s, x.QuietAt s) : x.Grows where
  effects s := (h s).1.effects
  asked s hasked := hasked.talks (h s).1.console

theorem Fresh.bind {x : Interp α} {k : α → Interp β} (hx : x.Fresh) (hk : ∀ a, (k a).Fresh) :
    (x >>= k).Fresh := by
  intro s f s' h
  cases hr : x s with
  | ok a s₁ => exact hk a s₁ f s' ((bind_of_ok k hr).symm.trans h)
  | error e s₁ =>
    cases (bind_of_error k hr).symm.trans h
    exact hx s f s' hr

theorem quiet_pure (a : α) : Quiet (pure a : Interp α) where
  quietAt := quietAt_pure a
  perseveres _ := perseveres_of_ok rfl
  fresh _ _ _ h := nomatch h
  tandems := .pure a

theorem quiet_throw (f : Failure) (hf : f.isFresh = true)
    (habandoned : f ≠ .abandoned := by exact nofun) :
    Quiet (throw (.failure f) : Interp α) where
  quietAt := quietAt_throw f
  perseveres := perseveres_throw habandoned
  fresh := by
    rintro _ _ _ ⟨⟩
    exact hf
  tandems := .throw _

/-- A change of the state that has nothing to do with the console and the queue. -/
theorem quiet_modifyGet {f : State → α × State} (h : ∀ s : State, s.Calm (f s).2)
    (hblind : ∀ s console effects, f { s with console, effects } =
      ((f s).1, { (f s).2 with console, effects })) :
    Quiet (modifyGet f : Interp α) where
  quietAt s := by
    have hkept := congrArg Prod.snd (hblind s s.console s.effects)
    have hconsole : (f s).2.console = s.console := (congrArg State.console hkept :)
    exact ⟨h s, ends_of_ok rfl, givesUp_of_after hconsole⟩
  perseveres _ := perseveres_of_ok rfl
  fresh _ _ _ h := nomatch h
  tandems := .modifyGet hblind

theorem quiet_modify {f : State → State} (h : ∀ s : State, s.Calm (f s))
    (hblind : ∀ s console effects, f { s with console, effects } =
      { f s with console, effects }) :
    Quiet (modify f : Interp PUnit) :=
  quiet_modifyGet (f := fun s => ((⟨⟩ : PUnit), f s)) h
    fun s console effects => by rw [hblind]

theorem Quiet.bind {x : Interp α} {k : α → Interp β} (hx : Quiet x) (hk : ∀ a, Quiet (k a)) :
    Quiet (x >>= k) where
  quietAt s := (hx.quietAt s).bind fun a s' _ => (hk a).quietAt s'
  perseveres s := perseveres_bind (hx.perseveres s) fun a s' _ => (hk a).perseveres s'
  fresh := hx.fresh.bind fun a => (hk a).fresh
  tandems := hx.tandems.bind (fun a => grows_of_quietAt (hk a).quietAt) fun a => (hk a).tandems

theorem Quiet.map {x : Interp α} (hx : Quiet x) (f : α → β) : Quiet (f <$> x) := by
  rw [map_eq_pure_bind]
  exact hx.bind fun a => quiet_pure (f a)

/-- What a run reads from the state it may use in any way that is quiet, as long as it does not look
at the console session and the queue of effects. -/
theorem quiet_of_get {k : State → Interp α} (hblind : Blind k) (hk : ∀ s, Quiet (k s)) :
    Quiet (get >>= k) where
  quietAt s := (quietAt_get s).bind fun a s' _ => (hk a).quietAt s'
  perseveres s := perseveres_of_get ((hk s).perseveres s)
  fresh s := (hk s).fresh s
  tandems := .of_get (fun s => (hk s).tandems) hblind

theorem quiet_ite {c : Prop} [Decidable c] {x y : Interp α} (hx : Quiet x) (hy : Quiet y) :
    Quiet (if c then x else y) := by
  split
  · exact hx
  · exact hy

theorem quiet_mapM {f : α → Interp β} (hf : ∀ a, Quiet (f a)) (as : List α) :
    Quiet (as.mapM f) := by
  induction as with
  | nil => exact quiet_pure _
  | cons a as ih =>
    rw [List.mapM_cons]
    exact (hf a).bind fun b => ih.bind fun bs => quiet_pure _

/-! ### Failures and values -/

theorem quiet_fail (c : Cause) : Quiet (fail c : Interp α) := quiet_throw _ rfl

theorem quiet_failWith (message : String) : Quiet (failWith message : Interp α) :=
  quiet_throw _ rfl

theorem quiet_lift (x : Fallible α) : Quiet (lift x) := by
  cases x with
  | ok a => exact quiet_pure a
  | error c => exact quiet_fail c

theorem quietAt_resume (x : Except Failure α) (s : State) : QuietAt (resume x) s := by
  cases x with
  | ok a => exact quietAt_pure a s
  | error f => exact quietAt_throw f s

theorem quiet_withTags (x : StateT Nat Fallible α) : Quiet (withTags x) := by
  refine quiet_of_get (fun _ _ _ => rfl) fun s => (quiet_lift _).bind fun result => ?_
  exact Quiet.bind (quiet_modify (fun _ => .of_eq rfl) fun _ _ _ => rfl) fun _ => quiet_pure _

theorem quiet_build (x : Tagged Value) : Quiet (build x) :=
  quiet_modifyGet (fun _ => .of_eq rfl) fun _ _ _ => rfl

theorem quiet_newArrayOf (vs : List Value) : Quiet (newArrayOf vs) :=
  quiet_modifyGet (fun _ => .of_eq rfl) fun _ _ _ => rfl

theorem quiet_newTexts (ts : List String) : Quiet (newTexts ts) := quiet_newArrayOf _

/-! ### Instances and effects -/

theorem quietAt_emit (e : Effect) (s : State) : QuietAt (emit e) s := by
  have hrun : emit e s = .ok () { s with effects := s.effects.push e } := rfl
  refine ⟨?_, ends_of_ok hrun, givesUp_of_after rfl⟩
  rw [after_of_ok hrun]
  exact ⟨rfl, rfl, rfl, rfl, rfl, .refl _, by simp, .refl, .refl⟩

theorem quiet_emit (e : Effect) (he : e.isConsole = false) : Quiet (emit e) where
  quietAt := quietAt_emit e
  perseveres _ := perseveres_of_ok rfl
  fresh _ _ _ h := nomatch h
  tandems := .emit he

theorem quiet_changeRegistrations (remove : Bool) (r : Registration) :
    Quiet (modify fun s => { s with registrations :=
        if remove then s.registrations.filter fun old => !r.isRemovedBy old
        else s.registrations ++ [r] } : Interp PUnit) := by
  refine quiet_modify (fun s => ?_) fun _ _ _ => rfl
  refine ⟨rfl, rfl, rfl, rfl, rfl, .refl _, List.prefix_rfl, .refl, ?_⟩
  cases remove with
  | true => exact .single (.remove _ r)
  | false => exact .single (.add _ r)

theorem quiet_setField (r : ObjectRef) (name : String) (v : Value) : Quiet (setField r name v) :=
  quiet_modify (fun s => .of_heap (s.heap.grows_set r name v) rfl) fun _ _ _ => rfl

theorem quiet_getField? (r : ObjectRef) (name : String) : Quiet (getField? r name) :=
  quiet_of_get (fun _ _ _ => rfl) fun _ => quiet_pure _

theorem quiet_newObject (className : String) : Quiet (newObject className) :=
  quiet_modifyGet (fun s => .of_heap (s.heap.grows_alloc className) rfl) fun _ _ _ => rfl

theorem quiet_newTable (className : String) (table : Data.ResultSet) :
    Quiet (newTable className table) :=
  (quiet_newObject _).bind fun _ => (quiet_newTexts _).bind fun _ =>
    (quiet_setField _ _ _).bind fun _ => (quiet_mapM quiet_newTexts _).bind fun _ =>
      (quiet_newArrayOf _).bind fun _ => (quiet_setField _ _ _).bind fun _ => quiet_pure _

theorem quiet_undeclaredInstance (className : String) (args : List Value) :
    Quiet (undeclaredInstance className args) := by
  unfold undeclaredInstance
  refine quiet_ite ?_ (quiet_ite ?_ (quiet_ite ?_ (quiet_newObject _)))
  · exact (quiet_newObject _).bind fun _ => (quiet_setField _ _ _).bind fun _ => quiet_pure _
  · exact (quiet_newObject _).bind fun _ => (quiet_setField _ _ _).bind fun _ =>
      (quiet_setField _ _ _).bind fun _ => (quiet_setField _ _ _).bind fun _ => quiet_pure _
  · refine (quiet_newTable _ _).bind fun _ => ?_
    cases args with
    | nil => exact quiet_pure _
    | cons v vs => exact (quiet_setField _ _ _).bind fun _ => quiet_pure _

/-! ### Data binding -/

theorem quiet_queryFor (target : ObjectRef) (query : String) : Quiet (queryFor target query) := by
  refine quiet_of_get (fun _ _ _ => rfl) fun s => ?_
  cases s.service with
  | none => exact quiet_failWith _
  | some service =>
    dsimp only
    split
    · exact quiet_pure _
    · exact quiet_failWith _

theorem quiet_tableFor (target : ObjectRef) (v : Value) : Quiet (tableFor target v) := by
  unfold tableFor
  split
  · refine quiet_ite (quiet_pure _) (quiet_ite ?_ (quiet_fail _))
    refine quiet_of_get (fun _ _ _ => rfl) fun s => ?_
    split
    · exact quiet_pure _
    · exact quiet_newTable _ _
  · exact (quiet_queryFor _ _).bind fun _ => quiet_newTable _ _
  · exact quiet_ite (quiet_newTable _ _) (quiet_fail _)

theorem quiet_movePosition (r : ObjectRef) (position count : Int) :
    Quiet (movePosition r position count) :=
  (quiet_setField _ _ _).bind fun _ => (quiet_setField _ _ _).bind fun _ =>
    quiet_of_get (fun _ _ _ => rfl) fun _ => quiet_emit _ rfl

theorem quiet_assignDataSource (r : ObjectRef) (v : Value) : Quiet (assignDataSource r v) := by
  refine (quiet_tableFor r v).bind fun _ => quiet_ite ?_ ?_
  · exact (quiet_setField _ _ _).bind fun _ =>
      quiet_of_get (fun _ _ _ => rfl) fun _ => quiet_movePosition _ _ _
  · exact (quiet_setField _ _ _).bind fun _ =>
      quiet_of_get (fun _ _ _ => rfl) fun _ => quiet_emit _ rfl

theorem quiet_assignBindingMember (r : ObjectRef) (member : String) (v : Value) :
    Quiet (assignBindingMember r member v) := by
  unfold assignBindingMember
  refine quiet_ite ((quiet_assignDataSource r v).bind fun _ => quiet_pure _)
    (quiet_ite ((quiet_lift _).bind fun _ => ?_) (quiet_pure _))
  refine quiet_of_get (fun _ _ _ => rfl) fun _ => ?_
  exact (quiet_movePosition _ _ _).bind fun _ => quiet_pure _

/-- A method of a binding source moves its position. -/
theorem exists_movePosition_of_bindingMethod? {h : Heap} {r : ObjectRef} {method : String}
    {x : Interp Unit} (hx : bindingMethod? h r method = some x) :
    ∃ target, x = movePosition r target (h.intField r "count") := by
  unfold bindingMethod? at hx
  split at hx
  · obtain ⟨target, -, rfl⟩ := Option.map_eq_some_iff.1 hx
    exact ⟨target, rfl⟩
  · cases hx

theorem quiet_of_bindingMethod? {h : Heap} {r : ObjectRef} {method : String} {x : Interp Unit}
    (hx : bindingMethod? h r method = some x) : Quiet x := by
  obtain ⟨target, rfl⟩ := exists_movePosition_of_bindingMethod? hx
  exact quiet_movePosition _ _ _

/-! ### The console -/

theorem send_of_closed {session : ConsoleSession} (hclosed : session.closed = true)
    (m : ConsoleMessage) : send session m = abandon := by
  simp only [send, hclosed, if_true]

theorem send_of_leaves {session : ConsoleSession} (hopen : session.closed = false)
    {m : ConsoleMessage} (hleaves : session.host.leaves (m :: session.sent) = true) :
    send session m = leave session := by
  simp only [send, hopen, hleaves, Bool.false_eq_true, if_false, if_true]

theorem send_of_stays {session : ConsoleSession} (hopen : session.closed = false)
    {m : ConsoleMessage} (hstays : session.host.leaves (m :: session.sent) = false) :
    send session m = modify fun s =>
      { s with console := some { session with sent := m :: session.sent } } := by
  simp only [send, hopen, hstays, Bool.false_eq_true, if_false]

/-- A call that is refused because the host has gone gives up. -/
theorem quietAt_of_leave {session : ConsoleSession} {s : State} (hs : s.console = some session)
    {x : Interp α} {session' : ConsoleSession} (hturn : session.Turn session')
    (hx : x s = .error (.failure .abandoned) { s with console := some session' }) :
    QuietAt x s := by
  refine ⟨?_, ends_of_failure hx, fun _ => .inr ⟨_, _, hx, rfl⟩⟩
  rw [after_of_error hx]
  exact ⟨rfl, rfl, rfl, rfl, rfl, .refl _, List.prefix_rfl, hs ▸ hturn.talks, .refl⟩

/-- A call after which the session is as open as it was before. -/
theorem quietAt_of_turn {session : ConsoleSession} {s : State} (hs : s.console = some session)
    {x : Interp α} {a : α} {session' : ConsoleSession} (hturn : session.Turn session')
    (hclosed : session'.closed = session.closed)
    (hx : x s = .ok a { s with console := some session' }) : QuietAt x s := by
  refine ⟨?_, ends_of_ok hx, fun hgone => .inl ?_⟩
  · rw [after_of_ok hx]
    exact ⟨rfl, rfl, rfl, rfl, rfl, .refl _, List.prefix_rfl, hs ▸ hturn.talks, .refl⟩
  · rw [after_of_ok hx] at hgone
    rw [State.hostGone, hs]
    exact hclosed.symm.trans hgone

theorem quietAt_send {session : ConsoleSession} {s : State} (hs : s.console = some session)
    {call : ConsoleCall} (hcall : call ≠ .readLine) : QuietAt (send session call.message) s := by
  cases hclosed : session.closed with
  | true =>
    rw [send_of_closed hclosed]
    exact quietAt_throw _ s
  | false =>
    cases hleaves : session.host.leaves (call.message :: session.sent) with
    | true =>
      rw [send_of_leaves hclosed hleaves]
      exact quietAt_of_leave hs (.leave call hclosed hleaves) rfl
    | false =>
      rw [send_of_stays hclosed hleaves]
      exact quietAt_of_turn hs (.tell call hcall hclosed hleaves) rfl rfl

theorem perseveres_leave (session : ConsoleSession) (s : State) :
    (leave session : Interp α).Perseveres s := by
  rintro _ ⟨⟩
  rfl

theorem perseveres_send {session : ConsoleSession} {s : State} (hs : s.console = some session)
    (m : ConsoleMessage) : (send session m).Perseveres s := by
  cases hclosed : session.closed with
  | true =>
    rw [send_of_closed hclosed]
    rintro _ ⟨⟩
    rw [State.hostGone, hs]
    exact hclosed
  | false =>
    cases hleaves : session.host.leaves (m :: session.sent) with
    | true =>
      rw [send_of_leaves hclosed hleaves]
      exact perseveres_leave _ s
    | false =>
      rw [send_of_stays hclosed hleaves]
      exact perseveres_of_ok rfl

theorem fresh_abandon : (abandon : Interp α).Fresh := by
  rintro _ _ _ ⟨⟩
  rfl

theorem fresh_leave (session : ConsoleSession) : (leave session : Interp α).Fresh :=
  Fresh.bind (fun _ _ _ h => nomatch h) fun _ => fresh_abandon

theorem fresh_send (session : ConsoleSession) (m : ConsoleMessage) : (send session m).Fresh := by
  unfold send
  dsimp only
  split
  · exact fresh_abandon
  · split
    · exact fresh_leave _
    · exact fun _ _ _ h => nomatch h

/-- A host that stays takes the message. -/
theorem send_of_stays_open {host : ConsoleHost} (hstays : host.Stays) (sent : List ConsoleMessage)
    (m : ConsoleMessage) (s : State) :
    send { host, sent } m s = .ok () { s with console := some { host, sent := m :: sent } } := by
  rw [send_of_stays rfl (hstays _)]
  rfl

/-- A run that sends a message in a session and queues an effect outside. -/
theorem quiet_of_tell {x : Interp Unit} (call : State → ConsoleCall) {e : Effect}
    (houtside : ∀ s : State, s.console = none → x s = emit e s)
    (hinside : ∀ (s : State) session, s.console = some session →
      x s = send session (call s).message s)
    (hcall : ∀ s, call s ≠ .readLine) (hm : ∀ s, (call s).message.effect? = some e)
    (he : e.isConsole = true) : Quiet x where
  quietAt s := by
    cases hs : s.console with
    | none => exact quietAt_congr (houtside s hs) (quietAt_emit e s)
    | some session => exact quietAt_congr (hinside s session hs) (quietAt_send hs (hcall s))
  perseveres s s' h := by
    cases hs : s.console with
    | none => cases (houtside s hs).symm.trans h
    | some session => exact perseveres_send hs _ s' ((hinside s session hs).symm.trans h)
  fresh s f s' h := by
    cases hs : s.console with
    | none => cases (houtside s hs).symm.trans h
    | some session => exact fresh_send _ _ s f s' ((hinside s session hs).symm.trans h)
  tandems host queue t s hstays h := by
    obtain ⟨sent, hs⟩ := h.exists_session
    have ht : x t = .ok () { t with effects := t.effects.push e } := houtside t h.outside
    have hrun := (hinside s _ hs).trans (send_of_stays_open hstays sent (call s).message s)
    right
    rw [outcome_of_ok hrun, outcome_of_ok ht, after_of_ok hrun, after_of_ok ht]
    exact ⟨rfl, h.tell hs (hm s) he⟩

theorem consoleWrite_of_session {s : State} {session : ConsoleSession}
    (hs : s.console = some session) (text : String) :
    consoleWrite text s = send session (.output text s.foreground s.background) s := by
  rw [consoleWrite, get_bind_apply, hs]

theorem quiet_consoleWrite (text : String) : Quiet (consoleWrite text) :=
  quiet_of_tell (fun s => .write text s.foreground s.background)
    (fun s hs => by rw [consoleWrite, get_bind_apply, hs])
    (fun _ _ hs => consoleWrite_of_session hs text)
    (fun _ => nofun) (fun _ => rfl) rfl

theorem quiet_consoleClear : Quiet consoleClear :=
  quiet_of_tell (fun _ => .clear)
    (fun s hs => by rw [consoleClear, get_bind_apply, hs])
    (fun s session hs => by rw [consoleClear, get_bind_apply, hs]; rfl)
    (fun _ => nofun) (fun _ => rfl) rfl

theorem quietAt_consoleRead (s : State) : QuietAt consoleRead s := by
  refine quietAt_of_get ?_
  cases hs : s.console with
  | none => exact quietAt_pure _ s
  | some session =>
    dsimp only
    cases hclosed : session.closed with
    | true =>
      rw [send_of_closed hclosed]
      exact quietAt_throw _ s
    | false =>
      cases hleaves : session.host.leaves (.inputRequest :: session.sent) with
      | true =>
        rw [send_of_leaves hclosed hleaves]
        exact quietAt_of_leave hs (.leave .readLine hclosed hleaves) rfl
      | false =>
        rw [send_of_stays hclosed hleaves]
        cases hanswer : session.host.answer (.inputRequest :: session.sent) with
        | some line => exact quietAt_of_turn hs (.ask line hclosed hleaves hanswer) rfl rfl
        | none => exact quietAt_of_leave hs (.desert hclosed hleaves hanswer) rfl

theorem perseveres_consoleRead (s : State) : consoleRead.Perseveres s := by
  refine perseveres_of_get ?_
  cases hs : s.console with
  | none => exact perseveres_of_ok rfl
  | some session =>
    refine perseveres_bind (perseveres_send hs _) fun _ s' _ => ?_
    dsimp only
    split
    · exact perseveres_of_ok rfl
    · exact perseveres_leave _ s'

theorem fresh_consoleRead : consoleRead.Fresh := by
  refine Fresh.bind (fun _ _ _ h => nomatch h) fun s => ?_
  cases s.console with
  | none => exact (quiet_pure _).fresh
  | some session =>
    refine (fresh_send _ _).bind fun _ => ?_
    dsimp only
    split
    · exact (quiet_pure _).fresh
    · exact fresh_leave _

/-- In a session with a host that stays, the program has asked for the line. -/
theorem hasAsked_consoleRead {s : State} {host : ConsoleHost} {sent : List ConsoleMessage}
    (hs : s.console = some { host, sent }) (hstays : host.Stays) :
    (consoleRead.after s).HasAsked := by
  have hsend := send_of_stays_open hstays sent .inputRequest s
  rw [consoleRead, after, get_bind_apply, hs]
  dsimp only
  rw [bind_of_ok _ hsend]
  cases hanswer : host.answer (.inputRequest :: sent) with
  | some line => exact ⟨_, rfl, List.mem_cons_self⟩
  | none => exact ⟨_, rfl, List.mem_cons_self⟩

/-- So it has after a prompt, whatever it does with the line. -/
theorem hasAsked_prompt {s : State} {host : ConsoleHost} {sent : List ConsoleMessage}
    (hs : s.console = some { host, sent }) (hstays : host.Stays) (prompt : String)
    {k : String → Interp α} (hk : ∀ line, (k line).Grows) :
    ((consoleWrite prompt >>= fun _ => consoleRead >>= k).after s).HasAsked := by
  have hwrite := send_of_stays_open hstays sent (.output prompt s.foreground s.background) s
  rw [← consoleWrite_of_session hs] at hwrite
  rw [after_bind_of_ok _ hwrite]
  exact (Grows.after_bind hk consoleRead _).2 (hasAsked_consoleRead rfl hstays)

theorem quiet_consoleRead : Quiet consoleRead where
  quietAt := quietAt_consoleRead
  perseveres := perseveres_consoleRead
  fresh := fresh_consoleRead
  tandems host queue t s hstays h := by
    obtain ⟨sent, hs⟩ := h.exists_session
    exact .inl (.inr (hasAsked_consoleRead hs hstays))

theorem quiet_resetColors : Quiet resetColors := quiet_modify (fun _ => .of_eq rfl) fun _ _ _ => rfl

theorem quiet_colorNumber (v : Value) : Quiet (colorNumber v) :=
  (quiet_lift _).bind fun _ => quiet_ite (quiet_failWith _) (quiet_pure _)

/-! ### What the host does -/

theorem quiet_newControl (c : ControlSpec) : Quiet (newControl c) := by
  have hfields : ∀ r : ObjectRef, Quiet (c.properties.forM fun p => setField r p.1 p.2) := by
    intro r
    induction c.properties with
    | nil => exact quiet_pure _
    | cons p ps ih => exact Quiet.bind (quiet_setField _ _ _) fun _ => ih
  refine (quiet_undeclaredInstance _ _).bind fun r => (quiet_setField _ _ _).bind fun _ => ?_
  exact (hfields r).bind fun _ => quiet_pure _

theorem quiet_addControls (form : ObjectRef) (cs : List ControlSpec) :
    Quiet (addControls form cs) := by
  induction cs with
  | nil => exact quiet_pure _
  | cons c cs ih =>
    exact (quiet_newControl c).bind fun _ => (quiet_setField _ _ _).bind fun _ => ih

end Interp

open Interp

/-! ### What the machine does -/

namespace Runner

theorem quiet_withTarget : Quiet withTarget := by
  refine quiet_of_get (fun _ _ _ => rfl) fun s => ?_
  cases s.context.withStack with
  | nil => exact quiet_failWith _
  | cons v vs => exact quiet_pure v

theorem quiet_currentObject : Quiet currentObject := by
  refine quiet_of_get (fun _ _ _ => rfl) fun s => ?_
  cases s.context.self with
  | none => exact quiet_failWith _
  | some r => exact quiet_pure _

theorem quiet_missingBase (className method : String) : Quiet (missingBase className method) :=
  quiet_ite (quiet_pure _) (quiet_fail _)

theorem quiet_neededObject (v : Value) : Quiet (neededObject v) := by
  unfold neededObject
  split
  · exact quiet_pure _
  · exact quiet_fail _

theorem quiet_cast (kind targetType : String) (v : Value) : Quiet (cast kind targetType v) := by
  unfold cast
  split
  · refine quiet_of_get (fun _ _ _ => rfl) fun s => ?_
    exact quiet_ite (quiet_pure _) (quiet_ite (quiet_pure _) (quiet_fail _))
  · split
    · exact quiet_pure _
    · exact quiet_ite (quiet_pure _) (quiet_fail _)

theorem quiet_resultOf (c : Callable) (signal : Signal) : Quiet (resultOf c signal) := by
  have hv : ∀ v : Value, Quiet (if c.isFunction = true then lift (v.coerceTo c.returnType)
      else pure v) := fun v => quiet_ite (quiet_lift _) (quiet_pure _)
  exact quiet_ite (Quiet.bind (quiet_pure _) hv)
    (quiet_ite (quiet_of_get (fun _ _ _ => rfl) fun _ => Quiet.bind (quiet_pure _) hv)
      (Quiet.bind (quiet_pure _) hv))

theorem quiet_newException (className message : String) :
    Quiet (newException className message) :=
  (quiet_newObject _).bind fun _ => (quiet_setField _ _ _).bind fun _ => quiet_pure _

theorem quiet_exceptionFor (f : Failure) : Quiet (exceptionFor f) := by
  unfold exceptionFor
  split
  · exact quiet_pure _
  · exact quiet_newException _ _
  · exact quiet_of_get (fun _ _ _ => rfl) fun _ => quiet_newException _ _

theorem quiet_sender (form : Option ObjectRef) (control : String) :
    Quiet (sender form control) := by
  refine quiet_of_get (fun _ _ _ => rfl) fun s => ?_
  dsimp only
  split
  · exact quiet_pure _
  · exact quiet_pure _
  · exact (quiet_newObject _).bind fun _ => (quiet_setField _ _ _).bind fun _ => quiet_pure _

theorem quiet_eventArguments (form : Option ObjectRef) (control : String) (args : List Value) :
    Quiet (eventArguments form control args) := by
  refine quiet_ite ((quiet_sender _ _).bind fun _ => ?_) (quiet_pure _)
  exact (quiet_newObject _).bind fun _ => quiet_pure _

end Runner

/-! ### Built-in procedures -/

namespace Builtin

/-- A run that reads the state and is quiet whatever it reads, and asks something. -/
theorem quiet_of_asking {α : Type} {k : State → Interp α} (hk : ∀ s, (k s).Quiet)
    (hasks : ∀ {host queue t s}, host.Stays → Tandem host queue t s →
      (get >>= k).Converses queue t s) : (get >>= k).Quiet where
  quietAt s := quietAt_of_get ((hk s).quietAt s)
  perseveres s := perseveres_of_get ((hk s).perseveres s)
  fresh s := (hk s).fresh s
  tandems _ _ _ _ hstays h := .inl (hasks hstays h)

/-- Outside a session the user is told, which is a dialog. -/
theorem quiet_msgBox (args : List Value) : Quiet (msgBox args) := by
  refine (quiet_lift _).bind fun _ => quiet_of_asking (fun s => ?_) fun {_ _ t s} _ h => ?_
  · exact quiet_ite (Quiet.bind (quiet_consoleWrite _) fun _ => quiet_pure _)
      (Quiet.bind (quiet_emit _ rfl) fun _ => quiet_pure _)
  · refine .inl ⟨.messageBox (Library.argAt args 0).toText, ?_, rfl⟩
    rw [after, get_bind_apply, h.outside]
    exact h.mem_drop_push _

/-- In a session the program waits for a line. -/
theorem quiet_inputBox (args : List Value) : Quiet (inputBox args) := by
  refine (quiet_lift _).bind fun _ => quiet_of_asking (fun s => quiet_ite ?_ ?_) ?_
  · exact (quiet_consoleWrite _).bind fun _ => quiet_consoleRead.bind fun _ => quiet_pure _
  · refine (quiet_lift _).bind fun x => (quiet_lift _).bind fun y => ?_
    exact (quiet_emit _ rfl).bind fun _ => quiet_pure _
  · intro host queue t s hstays h
    obtain ⟨sent, hs⟩ := h.exists_session
    right
    rw [after, get_bind_apply, hs]
    exact hasAsked_prompt hs hstays _ fun _ => grows_of_quietAt (quietAt_pure _)

theorem quiet_write (ending : String) (args : List Value) : Quiet (write ending args) :=
  (quiet_consoleWrite _).bind fun _ => quiet_pure _

theorem quiet_runApplication (args : List Value) : Quiet (runApplication args) := by
  refine (quiet_lift _).bind fun _ => quiet_of_get (fun _ _ _ => rfl) fun s => ?_
  exact (quiet_emit _ rfl).bind fun _ => quiet_pure _

theorem quiet_random (args : List Value) : Quiet (random args) := by
  have hseed : ∀ seed, Quiet (modify fun s => { s with seed } : Interp PUnit) :=
    fun _ => quiet_modify (fun _ => .of_eq rfl) fun _ _ _ => rfl
  refine quiet_of_get (fun _ _ _ => ?_) fun s => Quiet.bind (hseed _) fun _ => quiet_pure _
  dsimp only

theorem quiet_now (args : List Value) : Quiet (now args) :=
  quiet_of_get (fun _ _ _ => by dsimp only) fun _ => quiet_pure _

theorem quiet_today (args : List Value) : Quiet (today args) :=
  quiet_of_get (fun _ _ _ => by dsimp only) fun _ => quiet_pure _

theorem quiet_of_effectful? {key : String} {b : Builtin} (hb : effectful? key = some b)
    (args : List Value) : Quiet (b args) := by
  unfold effectful? at hb
  split at hb <;> cases hb
  · exact quiet_msgBox args
  · exact quiet_inputBox args
  · exact (quiet_lift _).bind fun _ => quiet_newTexts _
  · exact quiet_random args
  · exact quiet_now args
  · exact quiet_today args
  · exact quiet_now args
  · exact quiet_today args
  · exact quiet_write _ args
  · exact quiet_write _ args
  · exact quiet_consoleRead.bind fun _ => quiet_pure _
  · exact quiet_consoleClear.bind fun _ => quiet_pure _
  · exact quiet_resetColors.bind fun _ => quiet_pure _
  · exact quiet_runApplication args

end Builtin

theorem quiet_of_builtin? {key : String} {b : Builtin} (hb : builtin? key = some b)
    (args : List Value) : Quiet (b args) := by
  unfold builtin? at hb
  split at hb
  · cases hb
    exact quiet_lift _
  · exact Builtin.quiet_of_effectful? hb args

namespace Interp

theorem quiet_valueMethod (v : Value) (method : String) (args : List Value) :
    Quiet (valueMethod v method args) := by
  unfold valueMethod
  split
  · exact quiet_ite (quiet_newTexts _) (quiet_lift _)
  · exact quiet_lift _

theorem quiet_intrinsicMember (owner member : String) : Quiet (intrinsicMember owner member) := by
  refine quiet_of_get (fun _ _ _ => rfl) fun s => quiet_ite (quiet_pure _) (quiet_ite (quiet_pure _)
    (quiet_ite (quiet_pure _) ?_))
  split
  · exact quiet_of_builtin? (by assumption) _
  · exact quiet_fail _

end Interp

namespace Runner

theorem quiet_commonMethod (r : ObjectRef) (method : String) (args : List Value) :
    Quiet (commonMethod r method args) := by
  refine quiet_of_get (fun _ _ _ => by dsimp only [State.hostName]) fun s => ?_
  split
  · exact (quiet_emit _ rfl).bind fun _ => quiet_pure _
  · exact (quiet_emit _ rfl).bind fun _ => quiet_pure _
  · exact (quiet_emit _ rfl).bind fun _ => quiet_pure _
  · exact quiet_pure _
  · exact quiet_pure _
  · split
    · exact quiet_pure _
    · exact quiet_fail _

end Runner

end FormBasic
