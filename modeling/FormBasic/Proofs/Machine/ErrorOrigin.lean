import FormBasic.Proofs.Machine.Asking
import FormBasic.Proofs.Machine.ContextBalance
import FormBasic.Proofs.Machine.FailurePropagation

/-!
# Where an error comes from

A runtime error notes the procedures that it leaves on its way out, and a host that is given the
error takes them for those that were active when it was raised. They are, as long as whatever the
error passes on its way passes it on. This module follows an error that has reached the host back:
from each request that fails with it to one that the step for this request makes, down to a request
whose step raises the error itself.

A step may do three things with a failure of a request that it makes. Most steps pass every failure
on as it is, and a call adds the name of its procedure. Where a name could not be found, an
assignment and the write-back of an argument may go on instead (see `FailurePropagation`). And a
name on its own that stands for a call reports itself in place of any name that its call did not
find, wherever this was: this error is raised at the name, and the procedures that the first one had
left are forgotten.

That a step passes on what it does not take is shown by putting two runs of it side by side. In the
second one the requests that fail with the error are given up, which makes no difference if there
are none; in the first one an alarm takes the place of any failure that is to be passed on. The
first run tracks the second one up to such a failure, with which the second one ends. But the second
one ends with the error, so there was no such failure.

## Main definitions

* `Interp.Tracks` — the comparison
* `Runner.Raises` — the step for a request raises an error itself
* `Runner.Originates` — an error of a request has been passed on from a request that raises it

## Main results

* `Runner.raises_of_step` — a step that fails with an error that none of its requests does raises it
* `Runner.originates_of_fails` — in a run without `Try`, every error originates in the run
* `Runner.error_tells_origin` — what a host is told of an error
-/

namespace FormBasic

open Interp

/-! ### Errors and their procedures -/

/-- Whether a failure that is met with given procedures active is an error with a cause, raised with
other given ones active: those that it has left and those that still are. -/
def Failure.tells (c : Cause) (active frames : List String) : Failure → Bool
  | .runtime cause stack => cause == c && stack ++ frames == active
  | _ => false

namespace Failure

variable {c : Cause} {active frames : List String}

/-- Leaving a procedure changes nothing in what an error tells. -/
theorem tells_leave (f : Failure) (name : String) :
    (f.leave name).tells c active frames = f.tells c active (name :: frames) := by
  cases f <;> simp [leave, tells]

@[simp] theorem tells_runtime {cause : Cause} {stack : List String} :
    (runtime cause stack).tells c active frames = true ↔ cause = c ∧ stack ++ frames = active := by
  simp [tells]

theorem exists_of_tells {f : Failure} (h : f.tells c active frames = true) :
    ∃ stack, f = .runtime c stack ∧ stack ++ frames = active := by
  cases f with
  | runtime cause stack =>
    obtain ⟨rfl, hstack⟩ := tells_runtime.1 h
    exact ⟨stack, rfl, hstack⟩
  | _ => cases h

end Failure

/-- Whether a name on its own is a call: it is no data and no property. -/
def State.callsByName (s : State) (name : String) : Bool :=
  !s.scopes.hasLocal name && (s.ownProperty? name).isNone && (s.data? name).isNone &&
    (s.moduleProperty? name).isNone

namespace Request

/-- Whether a request is for a name on its own. -/
def isName : Request → Bool
  | .eval e => e.isVariable
  | _ => false

/-- Whether the step of a request takes a name that could not be found for an answer itself, or
reports it as one of its own. -/
def takesMissing (q : Request) : Bool := q.isForgiving || q.isName

/-- Whether the step of a request passes a failure of a request that it makes on to its own end. -/
def passesOn (q : Request) (f : Failure) : Bool := !(q.takesMissing && f.isMissing)

theorem passesOn_leave (q : Request) {f : Failure} (name : String) (h : q.passesOn f = true) :
    q.passesOn (f.leave name) = true := by
  rwa [passesOn, FailureKind.isMissing_leave]

/-- The procedures that an error which the step of a request raises itself can have left: a call
leaves the procedure that it runs, unless it is not let through. -/
def ownStacks : Request → List (List String)
  | .invoke c _ _ _ => [[], [c.name]]
  | _ => [[]]

end Request

/-! ### Errors that are raised or passed on -/

/-- What is followed back: the cause of an error and the procedures that are active when it is
raised. With it goes which failures are to be passed on, also by calls. -/
structure Trail where
  cause : Cause
  active : List String
  passed : Failure → Bool
  leave : ∀ {f : Failure} (name : String), passed f = true → passed (f.leave name) = true

/-- Whether an end of a run with given procedures active is for another reason than the error, and
passed on. -/
def Halt.IsOther (T : Trail) (frames : List String) : Halt → Prop
  | .failure f => T.passed f = true ∧ f.tells T.cause T.active frames = false
  | .outOfFuel => True

/-- Leave a procedure: a failure notes it. -/
def Halt.leave (name : String) : Halt → Halt
  | .failure f => .failure (f.leave name)
  | .outOfFuel => .outOfFuel

theorem Halt.IsOther.leave {T : Trail} {frames : List String} {name : String} {e : Halt}
    (h : e.IsOther T (name :: frames)) : (e.leave name).IsOther T frames := by
  cases e with
  | failure f => exact ⟨T.leave name h.1, (f.tells_leave name).trans h.2⟩
  | outOfFuel => trivial

namespace Interp

variable {α β : Type}

/-- A run that does not fail raises no errors of others. -/
theorem fresh_of_ok {x : Interp α} (h : ∀ s, ∃ a s', x s = .ok a s') : x.Fresh := by
  intro s f s' hf
  obtain ⟨a, t, hx⟩ := h s
  cases hx.symm.trans hf

/-- Of two runs from a state, the second one gives the procedures back, and has left none but given
ones when it ends with the error. The first one tracks it: it does the same unless the second one
ends for another reason. -/
structure TracksFrom (T : Trail) (own : List (List String)) (x y : Interp α) (s : State) :
    Prop where
  frames : (y.after s).context.frames = s.context.frames
  raised : ∀ stack s', y s = .error (.failure (.runtime T.cause stack)) s' →
    stack ++ s.context.frames = T.active → stack ∈ own
  same : x s = y s ∨ ∃ e s', y s = .error e s' ∧ e.IsOther T s.context.frames

/-- Two runs of which the first one tracks the second one, which leaves no procedures. -/
def Tracks (T : Trail) (x y : Interp α) : Prop := ∀ s, x.TracksFrom T [[]] y s

/-- A call that fails was not let through, or its body has failed. -/
theorem failure_of_inCall {x : Interp α} {c : Callable} {self : Option ObjectRef}
    {classContext : String} {s s' : State} {f : Failure}
    (h : inCall c self classContext x s = .error (.failure f) s') :
    f.isFresh = true ∨ ∃ g t,
      x { s with context := c.enter self classContext s.context, scopes := s.scopes.push } =
        .error (.failure g) t ∧ f = g.leave c.name := by
  rw [inCall_apply] at h
  split at h
  · cases h
    exact .inl rfl
  · right
    cases hr : x { s with context := c.enter self classContext s.context,
                          scopes := s.scopes.push } with
    | ok a t =>
      simp only [inContext, inScope, onFailure, Callable.detour, hr] at h
      cases h
    | error e t =>
      cases e with
      | outOfFuel =>
        simp only [inContext, inScope, onFailure, Callable.detour, hr] at h
        cases h
      | failure g =>
        simp only [inContext, inScope, onFailure, Callable.detour, hr] at h
        cases h
        exact ⟨g, t, rfl, rfl⟩

namespace Tracks

variable {T : Trail} {x y : Interp α}

/-- A run that leaves the context alone and raises its errors itself. -/
theorem of_fresh (hcontext : ∀ s, (x.after s).context = s.context) (hx : x.Fresh) :
    Tracks T x x := fun s =>
  { frames := congrArg Context.frames (hcontext s)
    raised := fun stack s' h _ => by
      have hfresh : stack = [] := by simpa [Failure.isFresh] using hx s _ s' h
      rw [hfresh]
      exact List.mem_singleton_self _
    same := .inl rfl }

theorem of_ok (h : ∀ s, ∃ a s', x s = .ok a s' ∧ s'.context = s.context) : Tracks T x x := by
  refine of_fresh (fun s => ?_) (fresh_of_ok fun s => ?_)
  · obtain ⟨a, s', hx, hcontext⟩ := h s
    rwa [after_of_ok hx]
  · obtain ⟨a, s', hx, -⟩ := h s
    exact ⟨a, s', hx⟩

theorem bind {k l : α → Interp β} (hx : Tracks T x y) (hk : ∀ a, Tracks T (k a) (l a)) :
    Tracks T (x >>= k) (y >>= l) := by
  intro s
  obtain ⟨hframes, hraised, hsame⟩ := hx s
  cases hr : y s with
  | ok a s' =>
    rw [after_of_ok hr] at hframes
    have hx' : x s = .ok a s' := by
      obtain heq | ⟨e, t, he, -⟩ := hsame
      · exact heq.trans hr
      · cases hr.symm.trans he
    obtain ⟨hframes', hraised', hsame'⟩ := hk a s'
    rw [hframes] at hframes' hraised' hsame'
    refine ⟨by rwa [after_bind_of_ok l hr], ?_, ?_⟩
    · rwa [bind_of_ok l hr]
    · rwa [bind_of_ok k hx', bind_of_ok l hr]
  | error e s' =>
    rw [after_of_error hr] at hframes
    have hend := bind_of_error l hr
    refine ⟨by rwa [after_of_error hend], fun stack t h hactive => ?_, ?_⟩
    · cases hend.symm.trans h
      exact hraised stack s' hr hactive
    · rw [hend]
      obtain heq | ⟨e', t, he, hother⟩ := hsame
      · exact .inl (bind_of_error k (heq.trans hr))
      · cases hr.symm.trans he
        exact .inr ⟨e, s', rfl, hother⟩

theorem inContext {d : Detour} (hd : d.KeepsFrames) (h : Tracks T x y) :
    Tracks T (Interp.inContext d x) (Interp.inContext d y) := by
  intro s
  obtain ⟨hframes, hraised, hsame⟩ := h { s with context := d.enter s.context }
  dsimp only at hframes hraised hsame
  rw [hd.enter] at hframes hraised hsame
  refine ⟨?_, fun stack s' hend hactive => ?_, ?_⟩
  · rw [after_inContext]
    exact (hd.leave _ _).trans hframes
  · unfold Interp.inContext at hend
    split at hend
    · cases hend
    · next hr =>
      cases hend
      exact hraised stack _ hr hactive
  · obtain heq | ⟨e, t, he, hother⟩ := hsame
    · exact .inl (by simp only [Interp.inContext, heq])
    · refine .inr ⟨e, { t with context := d.leave s.context t.context }, ?_, hother⟩
      simp only [Interp.inContext, he]

/-- A missing name is taken for an answer if no failure that says so is to be passed on. -/
theorem found? (hpassed : ∀ f, T.passed f = true → f.isMissing = false) (h : Tracks T x y) :
    Tracks T (Interp.found? x) (Interp.found? y) := by
  intro s
  obtain ⟨hframes, hraised, hsame⟩ := h s
  refine ⟨by rwa [after_found?], fun stack s' hend hactive => ?_, ?_⟩
  · unfold Interp.found? at hend
    split at hend
    · cases hend
    · next f t hr =>
      split at hend
      · cases hend
      · cases hend
        exact hraised stack _ hr hactive
    · cases hend
  · obtain heq | ⟨e, t, he, hother⟩ := hsame
    · exact .inl (by simp only [Interp.found?, heq])
    · refine .inr ⟨e, t, ?_, hother⟩
      cases e with
      | outOfFuel => simp only [Interp.found?, he]
      | failure f => exact found?_of_failure he (hpassed f hother.1)

/-- A call that is let through leaves its procedure. -/
theorem inCall (c : Callable) (self : Option ObjectRef) (classContext : String)
    (h : Tracks T x y) (s : State) :
    (Interp.inCall c self classContext x).TracksFrom T [[], [c.name]]
      (Interp.inCall c self classContext y) s := by
  -- the state in which the body of the callable starts
  obtain ⟨hframes, hraised, hsame⟩ := h
    { s with context := c.enter self classContext s.context, scopes := s.scopes.push }
  refine ⟨?_, fun stack s' hend hactive => ?_, ?_⟩
  · rw [after_inCall]
    split
    · rfl
    · rw [after_inContext, after_inScope, after_onFailure]
      exact congrArg List.tail hframes
  · obtain hfresh | ⟨f, t, hr, hleave⟩ := failure_of_inCall hend
    · have hstack : stack = [] := by simpa [Failure.isFresh] using hfresh
      exact hstack ▸ List.mem_cons_self
    · cases f with
      | runtime cause inner =>
        cases hleave
        have hinner := hraised inner t hr (by simpa [Callable.enter] using hactive)
        rw [List.mem_singleton.1 hinner]
        exact List.mem_cons_of_mem _ List.mem_cons_self
      | _ => cases hleave
  · rw [inCall_apply, inCall_apply]
    split
    · exact .inl rfl
    · obtain heq | ⟨e, t, he, hother⟩ := hsame
      · left
        simp only [Interp.inContext, Interp.inScope, Interp.onFailure, Callable.detour, heq]
      · right
        have hend : Interp.onFailure (·.leave c.name) y
            { s with context := c.enter self classContext s.context, scopes := s.scopes.push } =
            .error (e.leave c.name) t := by
          cases e <;> simp only [Interp.onFailure, he, Halt.leave]
        refine ⟨e.leave c.name, { t with
          context := (c.detour self classContext).leave s.context t.context
          scopes := t.scopes.pop }, ?_, ?_⟩
        · simp only [Interp.inContext, Interp.inScope, Callable.detour, hend]
        · exact hother.leave

end Tracks

end Interp

/-- Tracking is a relation that the host respects, and so do programs but for their calls. -/
def trailRelation (T : Trail) : HostRelation where
  Rel := Tracks T
  quiet h := .of_fresh (fun s => (h.quietAt s).1.context) h.fresh
  bind := Tracks.bind
  read _ h := .bind (.of_ok fun s => ⟨s, s, rfl, rfl⟩) fun s => h s trivial
  bindCurrent _ _ := .of_ok fun s => ⟨_, _, rfl, rfl⟩
  bindGlobal _ _ := .of_ok fun s => ⟨_, _, rfl, rfl⟩
  entering := Tracks.inContext
  administer h := .of_ok fun s => ⟨_, _, rfl, (h s).1⟩

theorem trailRelation_rebinds (T : Trail) : (trailRelation T).Rebinds := by
  intro key v
  refine Tracks.of_fresh (fun s => ?_) ?_
  · obtain h | ⟨scopes, -, h⟩ := after_rebind key v s <;> rw [h]
  · refine (fresh_of_ok fun s => ⟨s, s, rfl⟩).bind fun s => ?_
    exact (quiet_lift _).fresh.bind fun scopes => fresh_of_ok fun s => ⟨_, _, rfl⟩

theorem trailRelation_outOfFuel (T : Trail) {α : Type} :
    (trailRelation T).Rel (outOfFuel : Interp α) outOfFuel :=
  Tracks.of_fresh (fun _ => rfl) fun _ _ _ h => by cases h

namespace Runner

/-! ### What a step does with failures -/

/-- Whether a request fails, and the failure has a property among the procedures that are active. -/
def failsBy (p : List String → Failure → Bool) : Test
  | _, s, .error (.failure f) _ => p s.context.frames f
  | _, _, _ => false

theorem failsBy_iff {p : List String → Failure → Bool} {q : Request} {s : State} {r : q.Outcome} :
    failsBy p q s r = true ↔
      ∃ f s', r = .error (.failure f) s' ∧ p s.context.frames f = true := by
  constructor
  · intro h
    unfold failsBy at h
    split at h
    · next f s' => exact ⟨f, s', rfl, h⟩
    · cases h
  · rintro ⟨f, s', rfl, h⟩
    exact h

/-- Whether a request fails with an error that was raised while given procedures were active. -/
abbrev failsWith (c : Cause) (active : List String) : Test :=
  failsBy fun frames f => f.tells c active frames

variable (T : Trail) (alarm : Alarm) (fuel : Nat)

/-- The runner that gives up where a request fails with the error. -/
def withoutError : Runner :=
  overseen (fun q s r => !failsWith T.cause T.active q s r) (fun _ => Interp.outOfFuel)
    (withFuel fuel)

/-- The runner that raises an alarm where a request fails with a failure that is passed on. -/
def alarmed : Runner :=
  overseen (fun q s r => !failsBy (fun _ => T.passed) q s r) alarm (withFuel fuel)

theorem tracks_answer (q : Request) :
    Tracks T ((alarmed T alarm fuel).answer q) ((withoutError T fuel).answer q) := by
  intro s
  have hframes := congrArg Context.frames (sameFrame_after ((related_any fuel).answer q) s).context
  cases htells : failsWith T.cause T.active q s ((withFuel fuel).answer q s) with
  | true =>
    have hy : (withoutError T fuel).answer q s = .error .outOfFuel s :=
      overseen_of_fail (by rw [htells]; rfl)
    refine ⟨by rw [after_of_error hy], fun stack s' hend => ?_, .inr ⟨_, s, hy, trivial⟩⟩
    cases hy.symm.trans hend
  | false =>
    have hy : (withoutError T fuel).answer q s = (withFuel fuel).answer q s :=
      overseen_of_pass (by rw [htells]; rfl)
    refine ⟨by rwa [after_congr hy], fun stack s' hend hactive => ?_, ?_⟩
    · rw [hy] at hend
      have hfails : failsWith T.cause T.active q s ((withFuel fuel).answer q s) = true :=
        failsBy_iff.2 ⟨_, s', hend, Failure.tells_runtime.2 ⟨rfl, hactive⟩⟩
      rw [htells] at hfails
      cases hfails
    · cases hpassed : failsBy (fun _ => T.passed) q s ((withFuel fuel).answer q s) with
      | false =>
        left
        rw [hy]
        exact overseen_of_pass (by rw [hpassed]; rfl)
      | true =>
        obtain ⟨f, s', hend, hf⟩ := failsBy_iff.1 hpassed
        refine .inr ⟨.failure f, s', hy.trans hend, hf, ?_⟩
        rwa [hend] at htells

theorem tracks_on : RelatedOn .all (trailRelation T).toStepRelation (alarmed T alarm fuel)
    (withoutError T fuel) where
  eval {e} _ := tracks_answer T alarm fuel (.eval e)
  exec {s} _ := tracks_answer T alarm fuel (.exec s)
  invoke {c} self classContext args _ :=
    tracks_answer T alarm fuel (.invoke c self classContext args)
  assignBound name v := tracks_answer T alarm fuel (.assign name v)
  declared _ _ := trivial
  fields _ _ _ _ _ _ := (trailRelation T).enters (Detour.keepsFrames_setting _ _)
    ((trailRelation T).setFields _ fun _ _ e _ => tracks_answer T alarm fuel (.eval e))

/-- One step tracks the other if the answers do, and the other one leaves at most the procedure
that it calls. -/
theorem tracks_step {q : Request} (htry : q.isTry = false)
    (hmissing : q.takesMissing = true → ∀ f, T.passed f = true → f.isMissing = false) (s : State) :
    ((alarmed T alarm fuel).step q).TracksFrom T q.ownStacks ((withoutError T fuel).step q) s := by
  have h := tracks_on T alarm fuel
  have hforgives : q.takesMissing = true → (trailRelation T).Forgives := fun hq _ _ _ =>
    Tracks.found? (hmissing hq)
  cases q with
  | eval e =>
    refine h.evalStep (fun _ _ => trivial) (fun _ _ => trivial) (fun he => ?_)
      (fun name hname => ?_) s
    · refine (trailRelation T).renames_of_forgives (hforgives ?_)
      exact Bool.or_eq_true_iff.2 (.inr he)
    · refine hforgives (Bool.or_eq_true_iff.2 (.inl ?_))
      exact List.any_eq_true.2 ⟨_, hname, rfl⟩
  | exec stmt =>
    have hf : stmt.isForgiving = true → (trailRelation T).Forgives := fun hstmt =>
      hforgives (Bool.or_eq_true_iff.2 (.inl hstmt))
    have hnotry : ¬ stmt.isTry = true := by
      intro ht
      cases htry.symm.trans ht
    exact h.execStep (fun _ _ => trivial) (fun _ _ _ _ => trivial)
      (h.executes rfl (trailRelation_outOfFuel T) hf
        (fun hstmt => (trailRelation T).renames_of_forgives (hf hstmt))
        (fun ht => absurd ht hnotry) fun ht => absurd ht hnotry) s
  | invoke c self classContext args =>
    refine Tracks.inCall c self classContext ?_ s
    exact h.runBody (trailRelation T).bindsCurrent (fun _ _ => trivial) (fun _ _ => trivial) args
  | assign name v => exact h.assignStep (trailRelation_rebinds T) name v s

variable {T} {fuel} {α : Type} {x : Runner → Interp α} {s s' : State} {stack : List String}

/-- If a run fails with the error and makes no request that does, then it raises the error itself,
and makes no request whose failure it would pass on. -/
theorem raises_of_tracks {own : List (List String)}
    (htracks : ∀ alarm,
      (x (alarmed T alarm fuel)).TracksFrom T own (x (withoutError T fuel)) s)
    (hrun : x (withFuel fuel) s = .error (.failure (.runtime T.cause stack)) s')
    (hactive : stack ++ s.context.frames = T.active)
    (hnone : ¬ Requests (failsWith T.cause T.active) fuel x s) :
    stack ∈ own ∧ ¬ Requests (failsBy fun _ => T.passed) fuel x s := by
  have hwithout : x (withoutError T fuel) s = x (withFuel fuel) s :=
    Classical.byContradiction fun hne => hnone ⟨_, hne⟩
  have hend := hwithout.trans hrun
  refine ⟨(htracks fun _ => Interp.outOfFuel).raised stack s' hend hactive, ?_⟩
  rintro ⟨alarm, hne⟩
  obtain heq | ⟨e, t, he, hother⟩ := (htracks alarm).same
  · exact hne (heq.trans hwithout)
  · cases hend.symm.trans he
    have htells : (Failure.runtime T.cause stack).tells T.cause T.active s.context.frames = true :=
      Failure.tells_runtime.2 ⟨rfl, hactive⟩
    rw [hother.2] at htells
    cases htells

/-! ### The origin of an error -/

section
variable (c : Cause) (active : List String)

/-- The step for a request raises an error itself while given procedures are active: it makes no
request that fails with the error, and none with a failure that it would pass on. -/
def Raises (fuel : Nat) (q : Request) (s : State) : Prop :=
  (∃ own ∈ q.ownStacks, own ++ s.context.frames = active) ∧
    ¬ Asks (failsWith c active) fuel q s ∧ ¬ Asks (failsBy fun _ => q.passesOn) fuel q s

open Classical in
/-- A request fails with an error that its step raises itself while given procedures are active, or
that comes from such a request which its step makes. -/
def Originates : (fuel : Nat) → Request → State → Prop
  | 0, _, _ => False
  | fuel + 1, q, s =>
    failsWith c active q s ((withFuel (fuel + 1)).answer q s) = true ∧
      (Raises c active fuel q s ∨
        Asks (fun q s _ => decide (Originates fuel q s)) fuel q s)

end

/-- A step that fails with an error and makes no request that does raises it itself. -/
theorem raises_of_step {c : Cause} {active : List String} {fuel : Nat} {q : Request} {s : State}
    (htry : q.isTry = false)
    (hfails : failsWith c active q s ((withFuel fuel).step q s) = true)
    (hnone : ¬ Asks (failsWith c active) fuel q s) : Raises c active fuel q s := by
  obtain ⟨f, s', hend, htells⟩ := failsBy_iff.1 hfails
  obtain ⟨stack, rfl, hactive⟩ := Failure.exists_of_tells htells
  let T : Trail := ⟨c, active, q.passesOn, q.passesOn_leave⟩
  have hmissing : q.takesMissing = true → ∀ f, T.passed f = true → f.isMissing = false := by
    intro hq f hf
    simpa [T, Request.passesOn, hq] using hf
  obtain ⟨hown, hpasses⟩ := raises_of_tracks (T := T) (x := (·.step q))
    (fun alarm => tracks_step T alarm fuel htry hmissing s) hend hactive hnone
  exact ⟨⟨stack, hown, hactive⟩, hnone, hpasses⟩

open Classical in
/-- If every request that fails with an error is one in which it originates, then so is one that a
run makes itself. -/
theorem requests_originates {c : Cause} {active : List String} {fuel : Nat} {α : Type}
    {x : Runner → Interp α} (hx : HandsOn x) {s : State} (hall : Always meetsNoTry fuel x s)
    (hrequests : Requests (failsWith c active) fuel x s)
    (horigin : ∀ q s, Always meetsNoTry fuel (·.answer q) s →
      failsWith c active q s ((withFuel fuel).answer q s) = true → Originates c active fuel q s) :
    Requests (fun q s _ => decide (Originates c active fuel q s)) fuel x s := by
  refine (Requests.of_always hx hall hrequests).mono fun q s hboth => ?_
  obtain ⟨hfails, hrest⟩ := Bool.and_eq_true_iff.1 hboth
  exact decide_eq_true (horigin q s (of_decide_eq_true hrest) hfails)

/-- In a run without `Try`, an error with which a request fails has its origin in it. -/
theorem originates_of_fails {c : Cause} {active : List String} {fuel : Nat} {q : Request}
    {s : State} (hall : Always meetsNoTry fuel (·.answer q) s)
    (hfails : failsWith c active q s ((withFuel fuel).answer q s) = true) :
    Originates c active fuel q s := by
  induction fuel generalizing q s with
  | zero =>
    obtain ⟨f, s', hend, -⟩ := failsBy_iff.1 hfails
    cases q <;> cases hend
  | succ fuel ih =>
    refine ⟨hfails, ?_⟩
    by_cases hasks : Asks (failsWith c active) fuel q s
    · exact .inr (requests_originates (handsOn_step q) hall.step hasks fun q s => ih)
    · have htry : q.isTry = false := by simpa [meetsNoTry] using hall.test_answer
      rw [answer_withFuel_succ] at hfails
      exact .inl (raises_of_step htry hfails hasks)

/-! ### What a host is told -/

/-- A program that is run in a console session does not fail. -/
theorem runConsole_ne_failure (run : Runner) (entry : String) (host : ConsoleHost) (s s' : State)
    (f : Failure) : run.runConsole entry host s ≠ .error (.failure f) s' := by
  intro h
  have hstart : (modify fun s : State => { s with console := some { host } } : Interp PUnit) s =
      .ok ⟨⟩ { s with console := some { host } } := rfl
  rw [runConsole, bind_of_ok _ hstart] at h
  cases hr : Interp.attempt (run.callProcedure entry []) { s with console := some { host } } with
  | ok outcome t =>
    rw [bind_of_ok _ hr, get_bind_apply] at h
    cases hconsole : t.console with
    | some session =>
      rw [hconsole] at h
      cases h
    | none =>
      rw [hconsole] at h
      cases h
  | error e t =>
    rw [bind_of_error _ hr] at h
    cases h
    unfold Interp.attempt at hr
    split at hr <;> cases hr

theorem perform_runConsole_ne (run : Runner) (entry : String) (host : ConsoleHost) (s s' : State)
    (f : Failure) : HostAction.perform run (.runConsole entry host) s ≠ .error (.failure f) s' := by
  intro h
  have hmap : ((fun _ => PUnit.unit) <$> run.runConsole entry host : Interp PUnit) s =
      .error (.failure f) s' := h
  rw [map_eq_pure_bind] at hmap
  cases hr : run.runConsole entry host s with
  | ok messages t =>
    rw [bind_of_ok _ hr] at hmap
    cases hmap
  | error e t =>
    rw [bind_of_error _ hr] at hmap
    cases hmap
    exact runConsole_ne_failure run entry host s _ f hr

open Classical in
/-- An action of the host that fails with an error raises it itself, with no procedure active, or
makes a request where it originates. -/
theorem originates_of_perform {fuel : Nat} {action : HostAction} {s s' : State} {c : Cause}
    {stack : List String} (hs : Session s) (hall : Always meetsNoTry fuel action.perform s)
    (hrun : action.perform (withFuel fuel) s = .error (.failure (.runtime c stack)) s') :
    (stack = [] ∧ ¬ Requests (failsBy fun _ _ => true) fuel action.perform s) ∨
      Requests (fun q s _ => decide (Originates c stack fuel q s)) fuel action.perform s := by
  have hframes : s.context.frames = [] := by rw [hs.sameFrame_initial.1]
  have hands : HandsOn action.perform := fun h => h.perform MarkedOr.attempt action
  by_cases hrequests : Requests (failsWith c stack) fuel action.perform s
  · exact .inr (requests_originates hands hall hrequests fun q s => originates_of_fails)
  · left
    let T : Trail := ⟨c, stack, fun _ => true, fun _ _ => rfl⟩
    have htracks : ∀ alarm, (action.perform (alarmed T alarm fuel)).TracksFrom T [[]]
        (action.perform (withoutError T fuel)) s := by
      intro alarm
      refine (tracks_on T alarm fuel).perform (L := trailRelation T) ?_ s
      rintro entry host rfl
      exact absurd hrun (perform_runConsole_ne _ entry host s s' _)
    have hactive : stack ++ s.context.frames = stack := by rw [hframes, List.append_nil]
    obtain ⟨hown, hnone⟩ := raises_of_tracks (T := T) htracks hrun hactive hrequests
    exact ⟨List.mem_singleton.1 hown, hnone⟩

/-- A name that stands for a call is read by making the call. -/
theorem readName_of_callsByName {run : Runner} {name : String} {s : State}
    (hname : s.callsByName name = true) :
    run.readName name s = foundOr (run.callNamed name []) (.undefinedVariable name) s := by
  simp only [State.callsByName, Bool.and_eq_true, Bool.not_eq_true', Option.isNone_iff_eq_none]
    at hname
  obtain ⟨⟨⟨hlocal, hown⟩, hdata⟩, hproperty⟩ := hname
  rw [readName, get_bind_apply, hlocal, hown, hdata, hproperty]
  rfl

/-- Where a call with an empty argument list fails because a name could not be found, the name of
the call on its own fails as one that could not be found itself. Every other failure is the same. -/
theorem eval_name_of_call_fails {fuel : Nat} {name : String} {s s' : State} {f : Failure}
    (hname : s.callsByName name = true)
    (hcall : (withFuel fuel).eval (.call name []) s = .error (.failure f) s') :
    (withFuel fuel).eval (.variable name) s =
      .error (.failure (if f.isMissing then .runtime (.undefinedVariable name) [] else f)) s' := by
  cases fuel with
  | zero => cases hcall
  | succ fuel =>
    have hcall : (withFuel fuel).callNamed name [] s = .error (.failure f) s' := hcall
    refine (readName_of_callsByName hname).trans ?_
    cases hf : f.isMissing with
    | true => exact bind_of_ok _ (found?_of_missing hcall hf)
    | false => exact bind_of_error _ (found?_of_failure hcall hf)

open Classical in
/-- In a run without `Try`, the error with which a request fails has been raised by the step for
some request of the run itself, with the same cause, and the procedures that it has left and those
that are still active are those that were active then; every request in between fails with it as
well. So a host, outside all procedures, is told the cause of an error that was raised and the
procedures that were active. A step that raises an error itself meets no failures, except for those
that say that a name could not be found where it may go on or report a name of its own. The
latter is what a name does that stands for a call, and then the host is told of this name and not of
the one that the call missed, as it would be if an empty argument list followed the name. -/
theorem error_tells_origin (fuel : Nat) (s : State) (c : Cause) (stack : List String) :
    (∀ q s', Always meetsNoTry fuel (·.answer q) s →
      (withFuel fuel).answer q s = .error (.failure (.runtime c stack)) s' →
      Originates c (stack ++ s.context.frames) fuel q s) ∧
    (∀ (action : HostAction) (s' : State), Session s → Always meetsNoTry fuel action.perform s →
      action.perform (withFuel fuel) s = .error (.failure (.runtime c stack)) s' →
      (stack = [] ∧ ¬ Requests (failsBy fun _ _ => true) fuel action.perform s) ∨
        Requests (fun q s _ => decide (Originates c stack fuel q s)) fuel action.perform s) ∧
    (∀ name f s', s.callsByName name = true →
      (withFuel fuel).eval (.call name []) s = .error (.failure f) s' →
      (withFuel fuel).eval (.variable name) s =
        .error (.failure (if f.isMissing then .runtime (.undefinedVariable name) [] else f))
          s') := by
  refine ⟨fun q s' hall hrun => originates_of_fails hall ?_,
    fun action s' hs hall hrun => originates_of_perform hs hall hrun,
    fun name f s' hname hcall => eval_name_of_call_fails hname hcall⟩
  exact failsBy_iff.2 ⟨_, s', hrun, Failure.tells_runtime.2 ⟨rfl, rfl⟩⟩

/-- A program with a function that assigns to what is bound nowhere, and one that calls it. -/
def totals : Program where
  declarations := [
    .procedure { (default : Procedure) with
      name := "Sum", kind := "Function", body := [.setAssign "total" (.integer 0)] },
    .procedure { (default : Procedure) with
      name := "Report", kind := "Function", body := [.returnValue (some (.call "Sum" []))] }]
  statements := []

/-- The state after the program has been loaded. -/
def withTotals : State :=
  (HostAction.perform (.withFuel 9) (.load "" (.ok totals))).after (.initial {})

/-- A call of the function that calls the other one. -/
def callReport : HostAction := .call "Report" []

open Classical in
theorem error_tells_origin_totals :
    Requests (fun q s _ => decide (Originates (.undefinedVariable "total") ["Sum", "Report"] 9 q s))
        9 callReport.perform withTotals ∧
      ∃ s', (withFuel 9).eval (.variable "Sum") withTotals =
        .error (.failure (.runtime (.undefinedVariable "Sum") [])) s' := by
  have hsession : Session withTotals :=
    .perform 9 (.load "" (.ok totals)) (.fresh {} none ∅ (State.initial {}).clock 1)
  -- the run that gives up at a `Try` decides both that there is none and how the run fails
  have hruns :
      (((callReport.perform (watched meetsNoTry (fun _ => outOfFuel) 9)).failure? withTotals).any
          (·.tells (.undefinedVariable "total") ["Sum", "Report"] []) &&
        (((withFuel 9).eval (.call "Sum" [])).failure? withTotals).any (·.isMissing) &&
        withTotals.callsByName "Sum") = true := by decide +kernel
  simp only [Bool.and_eq_true, Option.any_eq_true] at hruns
  obtain ⟨⟨⟨f, hreport, htells⟩, g, hsum, hmissing⟩, hcalls⟩ := hruns
  obtain ⟨s', hreport⟩ := exists_of_failure? hreport
  obtain ⟨t, hsum⟩ := exists_of_failure? hsum
  obtain ⟨stack, rfl, hstack⟩ := Failure.exists_of_tells htells
  rw [List.append_nil] at hstack
  subst hstack
  have hall : Always meetsNoTry 9 callReport.perform withTotals :=
    always_of_ends
      (fun h => Related.perform (L := endingSession) h (fun h => h.attempt) callReport)
      (ends_of_failure hreport)
  obtain ⟨-, hhost, hname⟩ :=
    error_tells_origin 9 withTotals (.undefinedVariable "total") ["Sum", "Report"]
  refine ⟨?_, t, ?_⟩
  · exact (hhost callReport s' hsession hall ((hall _).symm.trans hreport)).resolve_left
      fun h => by cases h.1
  · have heval := hname "Sum" g t hcalls hsum
    rwa [if_pos hmissing] at heval

end Runner

end FormBasic
