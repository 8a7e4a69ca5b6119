import FormBasic.Proofs.Machine.Watch
import FormBasic.Proofs.Scope

/-!
# What a call does to the bindings of its caller

A call opens a scope above those of its caller, and names are resolved through all of them. So a
callee that assigns to a name which it has not bound itself gives a new value to the binding of its
caller: scoping is dynamic. This module says that nothing else happens to the scopes of a caller. No
name comes or goes in them, constants stay, and a binding changes only by an assignment that finds
no binding of the name in the scopes opened by the call, or as a variable that was passed by
reference.

Inside a call the levels of the caller are out of reach for everything but rebinding, so the
relation is about runs that start above these levels. The write-back, which runs at the level of the
caller, is treated by hand.

## Main results

* `callerRelation` — runs that start above a level and keep the levels below it
* `Runner.kept_invoke`, `Runner.kept_invokeOn` — a call without and with its write-back
-/

namespace FormBasic

open Interp

/-! ### Keys that an assignment reaches -/

/-- The key of a name, its own or that in a module. -/
def IsKeyOf (key name : String) : Prop :=
  key = Text.lower name ∨ ∃ moduleName, key = Text.lower (qualify moduleName name)

namespace State

/-- Whether an assignment to a name rebinds a key. -/
def rebinds (s : State) (name key : String) : Bool :=
  match s.target name with
  | .binding found => Text.lower found == key
  | _ => false

theorem fst_mem_of_firstBound {scopes : Scopes} {keys : List String} {found : String × Value}
    (h : firstBound scopes keys = some found) : found.1 ∈ keys := by
  induction keys with
  | nil => cases h
  | cons key keys ih =>
    rw [firstBound] at h
    split at h
    · cases h
      exact List.mem_cons_self
    · exact List.mem_cons_of_mem _ (ih h)

theorem exists_qualify_of_moduleVariable? {s : State} {name : String} {found : String × Value}
    (h : s.moduleVariable? name = some found) : ∃ m, found.1 = qualify m name := by
  have hk : found.1 ∈ s.moduleKeys name := fst_mem_of_firstBound h
  have others : found.1 ∈ s.moduleNames.map (qualify · name) → ∃ m, found.1 = qualify m name := by
    intro hm
    obtain ⟨m, -, hm⟩ := List.mem_map.1 hm
    exact ⟨m, hm.symm⟩
  unfold moduleKeys at hk
  split at hk
  · exact others hk
  · rcases List.mem_cons.1 hk with hk | hk
    · exact ⟨_, hk⟩
    · exact others hk

/-- An assignment to a name reaches no other keys than those of the name. -/
theorem isKeyOf_of_target {s : State} {name key : String} (h : s.target name = .binding key) :
    IsKeyOf (Text.lower key) name := by
  unfold target at h
  split at h
  · cases h
    exact .inl rfl
  · split at h
    · cases h
    · split at h
      · cases h
      · split at h
        · cases h
          exact .inl rfl
        · split at h
          · next found _ hm =>
            cases h
            obtain ⟨m, hm⟩ := exists_qualify_of_moduleVariable? hm
            exact .inr ⟨m, congrArg Text.lower hm⟩
          · split at h <;> cases h

end State

/-! ### The relation -/

section
variable {α β : Type} {C : Nat → Prop} {level : Nat} {Fixed : String → Prop}

/-- From states with a number of scopes that meets a condition, a run keeps the levels below. -/
def Interp.KeepsFrom (C : Nat → Prop) (level : Nat) (Fixed : String → Prop) (x : Interp α) : Prop :=
  ∀ s : State, C s.scopes.locals.length → s.scopes.Kept level Fixed (x.after s).scopes

namespace Interp.KeepsFrom

variable {x : Interp α}

theorem of_scopes (h : ∀ s, (x.after s).scopes = s.scopes) : KeepsFrom C level Fixed x := by
  intro s _
  rw [h s]
  exact .refl _

theorem of_quietAt (h : ∀ s, x.QuietAt s) : KeepsFrom C level Fixed x :=
  .of_scopes fun s => (h s).1.scopes

theorem of_quiet (h : x.Quiet) : KeepsFrom C level Fixed x := .of_quietAt h.quietAt

theorem bind {k : α → Interp β} (hx : KeepsFrom C level Fixed x)
    (hk : ∀ a, KeepsFrom C level Fixed (k a)) : KeepsFrom C level Fixed (x >>= k) := by
  intro s hs
  have hkept := hx s hs
  refine after_bind (R := fun s t => s.scopes.Kept level Fixed t.scopes) .trans hkept ?_
  intro a s' hr
  rw [after_of_ok hr] at hkept
  exact hk a s' (by rwa [hkept.length])

theorem ite {c : Prop} [Decidable c] {y : Interp α} (hx : KeepsFrom C level Fixed x)
    (hy : KeepsFrom C level Fixed y) : KeepsFrom C level Fixed (if c then x else y) := by
  split
  · exact hx
  · exact hy

theorem found? (hx : KeepsFrom C level Fixed x) : KeepsFrom C level Fixed (Interp.found? x) := by
  intro s hs
  rw [after_found?]
  exact hx s hs

theorem attempt (hx : KeepsFrom C level Fixed x) : KeepsFrom C level Fixed (Interp.attempt x) := by
  intro s hs
  rw [after_attempt]
  exact hx s hs

theorem inContext (d : Detour) (hx : KeepsFrom C level Fixed x) :
    KeepsFrom C level Fixed (Interp.inContext d x) := by
  intro s hs
  rw [after_inContext]
  exact hx { s with context := d.enter s.context } hs

/-- A call keeps the levels of its caller if its body keeps those below its own scope. -/
theorem inCall (c : Callable) (self : Option ObjectRef) (classContext : String)
    (hx : KeepsFrom (level < ·) level Fixed x) :
    KeepsFrom (level ≤ ·) level Fixed (Interp.inCall c self classContext x) := by
  intro s hs
  rw [after_inCall]
  split
  · exact .refl _
  · have hbody := hx
      { s with context := c.enter self classContext s.context, scopes := s.scopes.push }
      (Nat.lt_succ_of_le hs)
    rw [after_inContext, after_inScope, after_onFailure]
    exact .call hs hbody

end Interp.KeepsFrom

end

/-- Keeping the levels below one is a relation that the machine respects, apart from rebinding. -/
def callerRelation (level : Nat) (Fixed : String → Prop) : RunRelation where
  Rel x _ := KeepsFrom (level < ·) level Fixed x
  quiet := KeepsFrom.of_quiet
  bind := KeepsFrom.bind
  read _ h := .bind (.of_quietAt quietAt_get) fun s => h s trivial
  bindCurrent key b := fun s hs =>
    (.updateCurrent hs (·.insert key b) : s.scopes.Kept level Fixed _)
  bindGlobal _ _ := fun _ _ => .of_bindingAt? rfl fun _ _ _ => rfl
  foundOr _ h := h.found?.bind fun
    | some _ => .of_quiet (quiet_pure _)
    | none => .of_quiet (quiet_fail _)
  entering _ h := h.inContext _
  outOfFuel := .of_scopes fun _ => rfl
  inCall c self classContext h := fun s hs => h.inCall c self classContext s (Nat.le_of_lt hs)

theorem callerRelation_admits {level : Nat} {Fixed : String → Prop} {q : Request}
    (h : q.isAssign = false) : (callerRelation level Fixed).Admits q where
  rebinds hassign := by
    rw [h] at hassign
    cases hassign
  forgives _ := KeepsFrom.found?
  catches _ := KeepsFrom.attempt
  rethrows _ {_} x := KeepsFrom.of_quietAt (quietAt_resume x)

namespace Runner

/-! ### Watched calls -/

/-- A watch that lets an assignment to a fixed key through only where the key is bound above a
level. -/
structure Shelters (level : Nat) (Fixed : String → Prop) (test : Test) (alarm : Alarm) : Prop where
  alarm : ∀ q s, ((alarm q).after s).scopes = s.scopes
  test : ∀ {name v s r key}, test (.assign name v) s r = true → level < s.scopes.locals.length →
    Fixed key → s.rebinds name key = true → s.scopes.boundFrom level key = true

variable {level : Nat} {Fixed : String → Prop} {test : Test} {alarm : Alarm}

theorem kept_rebind {s : State} {key : String} (v : Value)
    (h : Fixed (Text.lower key) → s.scopes.boundFrom level (Text.lower key) = true) :
    s.scopes.Kept level Fixed ((rebind key v).after s).scopes := by
  obtain hsame | ⟨scopes, hset, hafter⟩ := after_rebind key v s
  · rw [hsame]
    exact .refl _
  · rw [hafter]
    exact .set hset h

theorem rebinds_of_target {s : State} {name key : String} (h : s.target name = .binding key) :
    s.rebinds name (Text.lower key) = true := by
  simp only [State.rebinds, h, beq_self_eq_true]

theorem Shelters.related (h : Shelters level Fixed test alarm) (fuel : Nat) :
    Related (callerRelation level Fixed) (watched test alarm fuel) (watched test alarm fuel) := by
  refine related_watched (fun {run run'} hrel q => ?_) fuel
  show KeepsFrom (level < ·) level Fixed _
  intro s hs
  rw [after_tested]
  split
  · next htest =>
    cases q with
    | assign name v =>
      -- the target is settled in the state in which the assignment is made
      show s.scopes.Kept level Fixed ((run.assignTo name v (s.target name)).after s).scopes
      cases ht : s.target name with
      | binding key =>
        exact kept_rebind v fun hkey => h.test htest hs hkey (rebinds_of_target ht)
      | _ =>
        rw [← ht]
        refine hrel.on.assignTo name v (s := s) trivial (fun key hkey => ?_) s hs
        rw [ht] at hkey
        cases hkey
    | _ => exact hrel.step (callerRelation_admits rfl) s hs
  · exact KeepsFrom.of_scopes (h.alarm q) s hs

/-- A call keeps the levels of its caller. -/
theorem kept_invoke (h : Shelters level Fixed test alarm) (fuel : Nat) (c : Callable)
    (self : Option ObjectRef) (classContext : String) (args : List Value) :
    KeepsFrom (level ≤ ·) level Fixed
      ((watched test alarm fuel).invoke c self classContext args) := by
  cases fuel with
  | zero => exact .of_scopes fun _ => rfl
  | succ fuel =>
    intro s hs
    have hbody : KeepsFrom (level < ·) level Fixed ((watched test alarm fuel).runBody c args) :=
      (h.related fuel).runBody c args
    show s.scopes.Kept level Fixed
      ((tested test alarm (.invoke c self classContext args) _).after s).scopes
    rw [after_tested]
    split
    · exact hbody.inCall c self classContext s hs
    · exact KeepsFrom.of_scopes (h.alarm _) s hs

/-! ### Write-back -/

/-- The variable that an argument passes by reference. -/
def byRefName? (p : Parameter) : Expr → Option String
  | .variable name => if p.byRef && !p.paramArray then some name else none
  | _ => none

/-- The variables that are passed by reference. -/
def byRefNames (ps : List Parameter) (es : List Expr) : List String :=
  (ps.zip es).filterMap fun (p, e) => byRefName? p e

/-- An assignment at the level of the caller keeps what it does not reach. -/
theorem kept_assignBound (h : Shelters level Fixed test alarm) (fuel : Nat) {name : String}
    (hname : ∀ key, Fixed key → ¬ IsKeyOf key name) (v : Value) :
    KeepsFrom (level ≤ ·) level Fixed ((watched test alarm fuel).assignBound name v) := by
  cases fuel with
  | zero => exact .of_scopes fun _ => rfl
  | succ fuel =>
    have hinvoke := kept_invoke h fuel
    intro s hs
    show s.scopes.Kept level Fixed ((tested test alarm (.assign name v) _).after s).scopes
    rw [after_tested]
    split
    · show s.scopes.Kept level Fixed
        (((watched test alarm fuel).assignTo name v (s.target name)).after s).scopes
      cases ht : s.target name with
      | binding key =>
        exact kept_rebind v fun hkey => absurd (State.isKeyOf_of_target ht) (hname _ hkey)
      | property self p owner =>
        refine KeepsFrom.ite (.of_quiet (quiet_failWith _)) ?_ s hs
        exact (hinvoke _ _ _ _).bind fun _ => .of_quiet (quiet_pure _)
      | field self => exact KeepsFrom.of_quiet (quiet_setField _ _ _) s hs
      | moduleProperty p moduleName =>
        exact (hinvoke _ _ _ _).bind (fun _ => .of_quiet (quiet_pure _)) s hs
      | missing => exact .refl _
    · exact KeepsFrom.of_scopes (h.alarm _) s hs

theorem kept_writeBackTo (h : Shelters level Fixed test alarm) (fuel : Nat) (p : Parameter)
    (v : Value) {e : Expr}
    (he : ∀ name, byRefName? p e = some name → ∀ key, Fixed key → ¬ IsKeyOf key name) :
    KeepsFrom (level ≤ ·) level Fixed ((watched test alarm fuel).writeBackTo p v e) := by
  unfold writeBackTo
  split
  · next name =>
    split
    · next hp =>
      have hname : byRefName? p (.variable name) = some name := by
        simp only [Bool.and_eq_true] at hp
        simp only [byRefName?, hp.1.1, hp.1.2, Bool.and_self, if_true]
      refine (kept_assignBound h fuel (he name hname) v).found?.bind fun found => ?_
      cases found <;> exact .of_quiet (quiet_pure _)
    · exact .of_quiet (quiet_pure _)
  · exact .of_quiet (quiet_pure _)

theorem kept_writeBack (h : Shelters level Fixed test alarm) (fuel : Nat) (ps : List Parameter)
    (vs : List Value) (es : List Expr)
    (hes : ∀ name ∈ byRefNames ps es, ∀ key, Fixed key → ¬ IsKeyOf key name) :
    KeepsFrom (level ≤ ·) level Fixed ((watched test alarm fuel).writeBack ps vs es) := by
  fun_induction writeBack with
  | case1 p ps v vs e es ih =>
    refine (kept_writeBackTo h fuel p v fun name hname => hes name ?_).bind fun _ => ih fun n hn =>
      hes n ?_
    · exact List.mem_filterMap.2 ⟨(p, e), List.mem_cons_self, hname⟩
    · obtain ⟨pe, hpe, hn⟩ := List.mem_filterMap.1 hn
      exact List.mem_filterMap.2 ⟨pe, List.mem_cons_of_mem _ hpe, hn⟩
  | case2 => exact .of_quiet (quiet_pure _)

/-- A call with its write-back keeps the levels of its caller, apart from the variables that are
passed by reference. -/
theorem kept_invokeOn (h : Shelters level Fixed test alarm) (fuel : Nat) (c : Callable)
    (self : Option ObjectRef) (classContext : String) (args : List Value) (es : List Expr)
    (hes : ∀ name ∈ byRefNames c.parameters es, ∀ key, Fixed key → ¬ IsKeyOf key name) :
    KeepsFrom (level ≤ ·) level Fixed
      ((watched test alarm fuel).invokeOn c self classContext args es) := by
  refine (kept_invoke h fuel c self classContext args).bind fun (result, finals) => ?_
  exact (kept_writeBack h fuel c.parameters finals es hes).bind fun _ => .of_quiet (quiet_pure _)

/-! ### Calls -/

/-- Whether a request spares the binding of a key below a level: unless it is an assignment, made
above that level, which rebinds the key and finds it bound nowhere above. -/
def spares (level : Nat) (key : String) : Test
  | .assign name _, s, _ =>
    decide (s.scopes.locals.length ≤ level) || !s.rebinds name key || s.scopes.boundFrom level key
  | _, _, _ => true

theorem shelters_spares (level : Nat) (key : String) :
    Shelters level (· = key) (spares level key) fun _ => outOfFuel where
  alarm _ _ := rfl
  test := by
    rintro name v s r key htest hlevel rfl hrebinds
    simpa [spares, Nat.not_le.2 hlevel, hrebinds] using htest

theorem shelters_none (level : Nat) :
    Shelters level (fun _ => False) (fun _ _ _ => true) fun _ => outOfFuel where
  alarm _ _ := rfl
  test _ _ := False.elim

/-- A run that keeps each of some keys under its own watch, where the watch makes no difference,
keeps all of them. -/
theorem kept_of_always {α : Type} {x : Runner → Interp α} {fuel : Nat} {s : State}
    (hnone : KeepsFrom (level ≤ ·) level (fun _ => False) (x (withFuel fuel)))
    (hfixed : ∀ key, Fixed key → Always (spares level key) fuel x s ∧
      KeepsFrom (level ≤ ·) level (· = key)
        (x (watched (spares level key) (fun _ => outOfFuel) fuel)))
    (hs : level ≤ s.scopes.locals.length) :
    s.scopes.Kept level Fixed ((x (withFuel fuel)).after s).scopes where
  length := (hnone s hs).length
  names := (hnone s hs).names
  constants := (hnone s hs).constants
  values i hi key hkey := by
    obtain ⟨hall, hkeeps⟩ := hfixed key hkey
    have hkept := (hkeeps s hs).values i hi key rfl
    rwa [after, hall] at hkept

/-- After a call, the scopes of the caller bind the same names and have their constants, and a
binding has the value it had unless an assignment inside the call rebinds it, or it belongs to a
variable that was passed by reference. -/
theorem call_keeps_caller_bindings (fuel : Nat) (s : State) (c : Callable)
    (self : Option ObjectRef) (classContext : String) (args : List Value) (es : List Expr) :
    s.scopes.Kept s.scopes.locals.length
      (fun key => Always (spares s.scopes.locals.length key) fuel
        (·.invoke c self classContext args) s)
      (((withFuel fuel).invoke c self classContext args).after s).scopes ∧
    s.scopes.Kept s.scopes.locals.length
      (fun key => (∀ name ∈ byRefNames c.parameters es, ¬ IsKeyOf key name) ∧
        Always (spares s.scopes.locals.length key) fuel
          (·.invokeOn c self classContext args es) s)
      (((withFuel fuel).invokeOn c self classContext args es).after s).scopes := by
  have hwatched := watched_true (fun _ => outOfFuel) fuel
  refine ⟨kept_of_always (x := (·.invoke c self classContext args)) ?_ (fun key hkey => ?_)
    (Nat.le_refl _), kept_of_always (x := (·.invokeOn c self classContext args es)) ?_
    (fun key hkey => ?_) (Nat.le_refl _)⟩
  · rw [← hwatched]
    exact kept_invoke (shelters_none _) fuel c self classContext args
  · exact ⟨hkey, kept_invoke (shelters_spares _ key) fuel c self classContext args⟩
  · rw [← hwatched]
    exact kept_invokeOn (shelters_none _) fuel c self classContext args es fun _ _ _ => False.elim
  · refine ⟨hkey.2, kept_invokeOn (shelters_spares _ key) fuel c self classContext args es ?_⟩
    rintro name hname _ rfl
    exact hkey.1 name hname

/-- Inside a procedure with a variable `x`. -/
def insideCaller : State where
  context := { frames := ["caller"] }
  scopes := { locals := [.ofList [("x", ⟨.nothing, false⟩)]] }

/-- A callable with given parameters that assigns to `x`. -/
def assigningX (parameters : List Parameter) : Callable :=
  ⟨"callee", parameters, [.assign "x" (.boolean true)], false, "", ""⟩

/-- A callee with a parameter of that name leaves `x` alone when it is passed by value. -/
theorem call_keeps_caller_bindings_of_parameter :
    (((withFuel 4).invokeOn (assigningX [{ name := "x" }]) none "" [.nothing]
      [.variable "x"]).after insideCaller).scopes.bindingAt? 0 "x" =
    insideCaller.scopes.bindingAt? 0 "x" := by
  have h := (call_keeps_caller_bindings 4 insideCaller (assigningX [{ name := "x" }]) none ""
    [.nothing] [.variable "x"]).2
  have hrun : (withFuel 4).invokeOn (assigningX [{ name := "x" }]) none "" [.nothing]
      [.variable "x"] insideCaller = .ok .nothing insideCaller := rfl
  refine h.values 0 Nat.one_pos "x" ⟨nofun, fun _ => .trans ?_ hrun.symm⟩
  rfl

/-- A callee without it rebinds the `x` of its caller, which was not passed at all. -/
theorem callee_rebinds_caller_local :
    ¬ ∀ (fuel : Nat) (s : State) (c : Callable) (args : List Value) (es : List Expr)
      (key : String) (i : Nat), s.context.frames ≠ [] →
      (∀ name ∈ byRefNames c.parameters es, ¬ IsKeyOf key name) →
      (((withFuel fuel).invokeOn c none "" args es).after s).scopes.bindingAt? i key =
        s.scopes.bindingAt? i key := by
  intro h
  exact nomatch h 4 insideCaller (assigningX []) [] [] "x" 0 (by decide) nofun

end Runner

end FormBasic
