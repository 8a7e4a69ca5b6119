import FormBasic.Machine.Call

/-!
# How runs end

A run ends with a value, with a failure, or without fuel, and in each case in a state. This module
says for the building blocks of the machine in which state a run ends, and when it comes to an end
at all.

## Main definitions

* `Interp.after` — the state in which a run ends
* `Interp.outcome` — what it ends with
* `Interp.Ends` — it does not run out of fuel
-/

namespace FormBasic

namespace Interp

variable {α β : Type}

/-! ### Ends of runs -/

/-- The state in which a run ends, however it ends. -/
def after (x : Interp α) (s : State) : State :=
  match x s with
  | .ok _ s' => s'
  | .error _ s' => s'

theorem after_of_ok {x : Interp α} {s s' : State} {a : α} (h : x s = .ok a s') :
    x.after s = s' := by
  simp only [after, h]

theorem after_of_error {x : Interp α} {s s' : State} {e : Halt} (h : x s = .error e s') :
    x.after s = s' := by
  simp only [after, h]

/-- What a run ends with, a value or the reason why there is none. -/
def outcome (x : Interp α) (s : State) : Except Halt α :=
  match x s with
  | .ok a _ => .ok a
  | .error e _ => .error e

theorem outcome_of_ok {x : Interp α} {s s' : State} {a : α} (h : x s = .ok a s') :
    x.outcome s = .ok a := by
  simp only [outcome, h]

theorem outcome_of_error {x : Interp α} {s s' : State} {e : Halt} (h : x s = .error e s') :
    x.outcome s = .error e := by
  simp only [outcome, h]

/-- A run is its outcome and the state in which it ends. -/
theorem outcome_eq_ok {x : Interp α} {s : State} {a : α} :
    x.outcome s = .ok a ↔ x s = .ok a (x.after s) := by
  cases h : x s <;> simp [outcome, after, h]

theorem outcome_eq_error {x : Interp α} {s : State} {e : Halt} :
    x.outcome s = .error e ↔ x s = .error e (x.after s) := by
  cases h : x s <;> simp [outcome, after, h]

/-- The failure with which a run ends, if it ends with one. -/
def failure? (x : Interp α) (s : State) : Option Failure :=
  match x s with
  | .error (.failure f) _ => some f
  | _ => none

theorem exists_of_failure? {x : Interp α} {s : State} {f : Failure} (h : x.failure? s = some f) :
    ∃ s', x s = .error (.failure f) s' := by
  unfold failure? at h
  split at h
  · next g s' hrun =>
    cases h
    exact ⟨s', hrun⟩
  · cases h

/-- Runs that do the same in a state end in the same state. -/
theorem after_congr {x y : Interp α} {s : State} (h : x s = y s) : x.after s = y.after s := by
  simp only [after, h]

theorem bind_of_ok {x : Interp α} {s s' : State} {a : α} (k : α → Interp β)
    (h : x s = .ok a s') : (x >>= k) s = k a s' := by
  simp only [bind, EStateM.bind, h]

theorem bind_of_error {x : Interp α} {s s' : State} {e : Halt} (k : α → Interp β)
    (h : x s = .error e s') : (x >>= k) s = .error e s' := by
  simp only [bind, EStateM.bind, h]

theorem after_bind_of_ok {x : Interp α} {s s' : State} {a : α} (k : α → Interp β)
    (h : x s = .ok a s') : (x >>= k).after s = (k a).after s' := by
  rw [after, bind_of_ok k h, after]

/-- A run that reads the state first goes on with the state that it is run in. -/
theorem get_bind_apply (k : State → Interp α) (s : State) : (get >>= k) s = k s s := rfl

/-- Two runs in sequence end well if both do. -/
theorem exists_of_bind_ok {x : Interp α} {k : α → Interp β} {s s' : State} {b : β}
    (h : (x >>= k) s = .ok b s') : ∃ a s₁, x s = .ok a s₁ ∧ k a s₁ = .ok b s' := by
  cases hr : x s with
  | ok a s₁ => exact ⟨a, s₁, rfl, (bind_of_ok k hr).symm.trans h⟩
  | error e s₁ =>
    rw [bind_of_error k hr] at h
    cases h

/-- What holds between the ends of two runs holds between the ends of both in sequence. -/
theorem after_bind {R : State → State → Prop} (trans : ∀ {s t u}, R s t → R t u → R s u)
    {x : Interp α} {k : α → Interp β} {s : State} (hx : R s (x.after s))
    (hk : ∀ a s', x s = .ok a s' → R s' ((k a).after s')) : R s ((x >>= k).after s) := by
  cases hr : x s with
  | ok a s' =>
    rw [after_of_ok hr] at hx
    rw [after, bind_of_ok k hr]
    exact trans hx (hk a s' hr)
  | error e s' =>
    rw [after_of_error hr] at hx
    rw [after, bind_of_error k hr]
    exact hx

/-- A run that does not run out of fuel. -/
def Ends (x : Interp α) (s : State) : Prop := ∀ s', x s ≠ .error .outOfFuel s'

theorem ends_of_ok {x : Interp α} {s s' : State} {a : α} (h : x s = .ok a s') : x.Ends s := by
  intro s'' hfuel
  rw [h] at hfuel
  cases hfuel

theorem ends_of_failure {x : Interp α} {s s' : State} {f : Failure}
    (h : x s = .error (.failure f) s') : x.Ends s := by
  intro s'' hfuel
  rw [h] at hfuel
  cases hfuel

theorem ends_bind {x : Interp α} {k : α → Interp β} {s : State} (hx : x.Ends s)
    (hk : ∀ a s', x s = .ok a s' → (k a).Ends s') : (x >>= k).Ends s := by
  intro s''
  cases hr : x s with
  | ok a s' =>
    rw [bind_of_ok k hr]
    exact hk a s' hr s''
  | error e s' =>
    rw [bind_of_error k hr]
    rintro ⟨⟩
    exact hx _ hr

theorem found?_of_missing {x : Interp α} {s s' : State} {f : Failure}
    (h : x s = .error (.failure f) s') (hf : f.isMissing = true) : found? x s = .ok none s' := by
  simp only [found?, h, hf, if_true]

theorem found?_of_failure {x : Interp α} {s s' : State} {f : Failure}
    (h : x s = .error (.failure f) s') (hf : f.isMissing = false) :
    found? x s = .error (.failure f) s' := by
  simp only [found?, h, hf, Bool.false_eq_true, if_false]

theorem attempt_of_ok {x : Interp α} {s s' : State} {a : α} (h : x s = .ok a s') :
    attempt x s = .ok (.ok a) s' := by
  simp only [attempt, h]

theorem attempt_of_failure {x : Interp α} {s s' : State} {f : Failure}
    (h : x s = .error (.failure f) s') : attempt x s = .ok (.error f) s' := by
  simp only [attempt, h]

/-- A failure that is handed over as a result is the one with which the run ends. -/
theorem failure_of_attempt {x : Interp α} {s s' : State} {f : Failure}
    (h : attempt x s = .ok (.error f) s') : x s = .error (.failure f) s' := by
  unfold attempt at h
  split at h
  · cases h
  · next hr =>
    cases h
    exact hr
  · cases h

theorem attempt_of_outOfFuel {x : Interp α} {s s' : State} (h : x s = .error .outOfFuel s') :
    attempt x s = .error .outOfFuel s' := by
  simp only [attempt, h]

theorem after_found? (x : Interp α) (s : State) : (found? x).after s = x.after s := by
  unfold after found?
  cases x s with
  | ok a s' => rfl
  | error e s' =>
    cases e with
    | outOfFuel => rfl
    | failure f =>
      dsimp only
      cases f.isMissing <;> rfl

theorem after_attempt (x : Interp α) (s : State) : (attempt x).after s = x.after s := by
  unfold after attempt
  cases x s with
  | ok a s' => rfl
  | error e s' => cases e <;> rfl

theorem after_onFailure (f : Failure → Failure) (x : Interp α) (s : State) :
    (onFailure f x).after s = x.after s := by
  unfold after onFailure
  cases x s with
  | ok a s' => rfl
  | error e s' => cases e <;> rfl

theorem after_inContext (d : Detour) (x : Interp α) (s : State) :
    (inContext d x).after s =
      { x.after { s with context := d.enter s.context } with
        context :=
          d.leave s.context (x.after { s with context := d.enter s.context }).context } := by
  unfold after inContext
  cases x { s with context := d.enter s.context } <;> rfl

theorem exists_of_inContext_ok {d : Detour} {x : Interp α} {s t : State} {a : α}
    (h : inContext d x s = .ok a t) :
    ∃ u, x { s with context := d.enter s.context } = .ok a u ∧
      t = { u with context := d.leave s.context u.context } := by
  unfold inContext at h
  split at h
  · next u hrun =>
    cases h
    exact ⟨u, hrun, rfl⟩
  · cases h

theorem outcome_inContext (d : Detour) (x : Interp α) (s : State) :
    (inContext d x).outcome s = x.outcome { s with context := d.enter s.context } := by
  unfold outcome inContext
  cases x { s with context := d.enter s.context } <;> rfl

theorem after_inScope (x : Interp α) (s : State) :
    (inScope x).after s =
      { x.after { s with scopes := s.scopes.push } with
        scopes := (x.after { s with scopes := s.scopes.push }).scopes.pop } := by
  unfold after inScope
  cases x { s with scopes := s.scopes.push } <;> rfl

theorem ends_found? {x : Interp α} {s : State} (h : x.Ends s) : (found? x).Ends s := by
  intro s' hfuel
  unfold found? at hfuel
  split at hfuel
  · cases hfuel
  · split at hfuel <;> cases hfuel
  · next hr => exact h _ hr

theorem ends_attempt {x : Interp α} {s : State} (h : x.Ends s) : (attempt x).Ends s := by
  intro s' hfuel
  unfold attempt at hfuel
  split at hfuel
  · cases hfuel
  · cases hfuel
  · next hr => exact h _ hr

theorem ends_onFailure {f : Failure → Failure} {x : Interp α} {s : State} (h : x.Ends s) :
    (onFailure f x).Ends s := by
  intro s' hfuel
  unfold onFailure at hfuel
  split at hfuel
  · cases hfuel
  · exact h s' hfuel

theorem ends_inContext {d : Detour} {x : Interp α} {s : State}
    (h : x.Ends { s with context := d.enter s.context }) : (inContext d x).Ends s := by
  intro s' hfuel
  unfold inContext at hfuel
  split at hfuel
  · cases hfuel
  · next hr =>
    cases hfuel
    exact h _ hr

theorem ends_inScope {x : Interp α} {s : State}
    (h : x.Ends { s with scopes := s.scopes.push }) : (inScope x).Ends s := by
  intro s' hfuel
  unfold inScope at hfuel
  split at hfuel
  · cases hfuel
  · next hr =>
    cases hfuel
    exact h _ hr

theorem rebind_of_ok {key : String} {v : Value} {s : State} {scopes : Scopes}
    (h : s.scopes.set key v = .ok scopes) : rebind key v s = .ok () { s with scopes } := by
  show (lift (s.scopes.set key v) >>= _) s = _
  rw [h]
  rfl

theorem rebind_of_error {key : String} {v : Value} {s : State} {c : Cause}
    (h : s.scopes.set key v = .error c) : rebind key v s = .error (.failure (.runtime c [])) s := by
  show (lift (s.scopes.set key v) >>= _) s = _
  rw [h]
  rfl

/-- A name is rebound, or nothing changes. -/
theorem after_rebind (key : String) (v : Value) (s : State) :
    (rebind key v).after s = s ∨
      ∃ scopes, s.scopes.set key v = .ok scopes ∧ (rebind key v).after s = { s with scopes } := by
  cases h : s.scopes.set key v with
  | error c => exact .inl (after_of_error (rebind_of_error h))
  | ok scopes => exact .inr ⟨scopes, rfl, after_of_ok (rebind_of_ok h)⟩

/-- A call runs in a context and a scope of its own, unless there are too many. -/
theorem inCall_apply (c : Callable) (self : Option ObjectRef) (classContext : String)
    (x : Interp α) (s : State) :
    inCall c self classContext x s =
      if maxFrames ≤ s.context.frames.length then
        failWith ("Call stack overflow in " ++ c.name) s
      else
        inContext (c.detour self classContext) (inScope (onFailure (·.leave c.name) x)) s := by
  show (if maxFrames ≤ s.context.frames.length then _ else _ : Interp α) s = _
  split <;> rfl

theorem after_inCall (c : Callable) (self : Option ObjectRef) (classContext : String)
    (x : Interp α) (s : State) :
    (inCall c self classContext x).after s =
      if maxFrames ≤ s.context.frames.length then s
      else (inContext (c.detour self classContext)
        (inScope (onFailure (·.leave c.name) x))).after s := by
  rw [after, inCall_apply]
  by_cases h : maxFrames ≤ s.context.frames.length
  · rw [if_pos h, if_pos h]
    rfl
  · rw [if_neg h, if_neg h]
    rfl

end Interp

end FormBasic
