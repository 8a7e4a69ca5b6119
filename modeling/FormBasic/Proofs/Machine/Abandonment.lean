import FormBasic.Proofs.Machine.Watch

/-!
# Abandoned console sessions

When the host of a console session has gone, the next message or request of the program fails, and
this failure is not for the program: it travels through every `Try`, whose `Catch` lines are not
even looked at, and ends the entry procedure. `Finally` blocks are run on the way. What they do is
up to the program, and there are two things to say about it. A `Try` inside such a block is one like
any other, and it may catch what fails inside. And a block that fails with an error of its own
replaces the failure that was on its way, so that everything outside sees an ordinary error.

To say that no `Catch` block starts, a runner is *supervised*: at the points in the course of a
`Try` that matter, a test is made, and where it fails an alarm takes the place of what would have
happened. As with watched runners, what always holds of a run is that no alarm makes a difference.

The proof compares two supervised runners. One ends at the first `Finally` block that replaces an
abandonment, with a mark; the other one raises an alarm at a `Catch` block that starts too late. Up
to the mark they do the same, and end for good as soon as the host is found gone. A `Try` is the
only statement for which this is not a matter of course.

## Main definitions

* `TryEvent`, `Runner.supervised`, `Runner.AlwaysTries` — what always holds in the `Try` statements
  of a run
* `keepsAbandonment` — no `Finally` block replaces an abandonment
* `catchesInTime` — no `Catch` block of a `Try` that started with the host starts without it

## Main results

* `Runner.related_supervised` — the comparison of the two runners
* `Runner.abandonment_ends_program` — abandonment is not caught, and ends the entry procedure
-/

namespace FormBasic

open Interp

/-! ### Supervised runners -/

/-- A point in the course of a `Try`. -/
inductive TryEvent where
  /-- A `Catch` block is about to start. The states are that in which the `Try` started, and the
  present one. -/
  | catching (before now : State)
  /-- The `Finally` block has ended. How the rest had ended, and how the block did. -/
  | cleanedUp (outcome cleanup : Except Failure Signal)

/-- A test of such points. -/
abbrev TryTest := TryEvent → Bool

namespace Runner

section
variable (test : TryTest) (alarm : Interp Signal) (run : Runner)

/-- `Runner.runCatch`, with a test before the block. -/
def runCatchTested (before : State) (f : Failure) (r : ObjectRef) :
    List CatchClause → Interp Signal
  | [] => Interp.resume (.error f)
  | c :: cs => do
    if ← run.catches c r then
      if test (.catching before (← get)) then
        Interp.inContext (.handling r) (run.block c.body)
      else alarm
    else runCatchTested before f r cs

/-- `Runner.guarded`, with a test before the `Catch` block. -/
def guardedTested (before : State) (body : List Stmt) (cs : List CatchClause) :
    Interp Signal := do
  match ← Interp.attempt (run.block body) with
  | .ok signal => return signal
  | .error .abandoned => Interp.resume (.error .abandoned)
  | .error f => do run.runCatchTested test alarm before f (← exceptionFor f) cs

/-- `Runner.afterCleanup`, with a test after the `Finally` block. -/
def afterCleanupTested (outcome cleanup : Except Failure Signal) : Interp Signal := do
  if test (.cleanedUp outcome cleanup) then afterCleanup outcome (← Interp.resume cleanup)
  else alarm

/-- `Runner.tryCatch`, with tests. -/
def tryTested (body : List Stmt) (cs : List CatchClause) (cleanup : Option (List Stmt)) :
    Interp Signal := do
  let outcome ← Interp.attempt (run.guardedTested test alarm (← get) body cs)
  let ended ← Interp.attempt (run.block (cleanup.getD []))
  afterCleanupTested test alarm outcome ended

/-- One step for a request, in which a `Try` is tested. -/
def stepTested : (q : Request) → Interp q.Answer
  | .exec (.tryCatch body cs cleanup) => run.tryTested test alarm body cs cleanup
  | q => run.step q

/-- The runner with so much fuel in which every `Try` is tested. -/
def supervised : (fuel : Nat) → Runner
  | 0 => ofAnswers 0 fun _ => outOfFuel
  | fuel + 1 => ofAnswers (fuel + 1) ((supervised fuel).stepTested test alarm)

end

/-- In the run from a state with so much fuel, every `Try` passes a test: no alarm makes a
difference. -/
def AlwaysTries {α : Type} (test : TryTest) (fuel : Nat) (x : Runner → Interp α) (s : State) :
    Prop :=
  ∀ alarm : Interp Signal, x (supervised test alarm fuel) s = x (withFuel fuel) s

theorem stepTested_of_not_try {test : TryTest} {alarm : Interp Signal} {run : Runner}
    {q : Request} (h : q.isTry = false) : run.stepTested test alarm q = run.step q := by
  cases q with
  | exec s => cases s <;> first | rfl | cases h
  | _ => rfl

theorem attempt_resume {α β : Type} (x : Interp α) (k : α → Interp β) :
    (do let outcome ← Interp.attempt x; k (← Interp.resume outcome)) = x >>= k := by
  funext s
  cases hr : x s with
  | ok a s' => rw [bind_of_ok k hr, bind_of_ok _ (attempt_of_ok hr)]; rfl
  | error e s' =>
    rw [bind_of_error k hr]
    cases e with
    | outOfFuel => rw [bind_of_error _ (attempt_of_outOfFuel hr)]
    | failure f => rw [bind_of_ok _ (attempt_of_failure hr)]; rfl

theorem runCatchTested_true (alarm : Interp Signal) (run : Runner) (before : State) (f : Failure)
    (r : ObjectRef) (cs : List CatchClause) :
    run.runCatchTested (fun _ => true) alarm before f r cs = run.runCatch f r cs := by
  induction cs with
  | nil => rfl
  | cons c cs ih => rw [runCatchTested, runCatch, ih]; rfl

theorem tryTested_true (alarm : Interp Signal) (run : Runner) (body : List Stmt)
    (cs : List CatchClause) (cleanup : Option (List Stmt)) :
    run.tryTested (fun _ => true) alarm body cs cleanup = run.tryCatch body cs cleanup := by
  have hguarded : ∀ before, run.guardedTested (fun _ => true) alarm before body cs =
      run.guarded body cs := by
    intro before
    refine congrArg (Interp.attempt (run.block body) >>= ·) (funext fun outcome => ?_)
    cases outcome with
    | ok signal => rfl
    | error f =>
      cases f with
      | abandoned => rfl
      | _ => exact congrArg (exceptionFor _ >>= ·) (funext fun r => runCatchTested_true ..)
  funext s
  show (Interp.attempt (run.guardedTested (fun _ => true) alarm s body cs) >>= _) s = _
  rw [hguarded]
  refine congrFun (congrArg _ (funext fun outcome => ?_)) s
  exact attempt_resume _ _

/-- A supervised runner whose test never fails is not supervised. -/
theorem supervised_true (alarm : Interp Signal) (fuel : Nat) :
    supervised (fun _ => true) alarm fuel = withFuel fuel := by
  have hstep : ∀ (run : Runner) (q : Request),
      run.stepTested (fun _ => true) alarm q = run.step q := by
    intro run q
    cases hq : q.isTry with
    | false => exact stepTested_of_not_try hq
    | true =>
      cases q with
      | exec s =>
        cases s with
        | tryCatch body cs cleanup => exact tryTested_true alarm run body cs cleanup
        | _ => cases hq
      | _ => cases hq
  induction fuel with
  | zero => rfl
  | succ fuel ih =>
    rw [supervised, ih, funext (hstep _)]
    rfl

/-! ### Deciding what always holds -/

section
variable {test test' : TryTest} {alarm : Interp Signal} {run run' : Runner}
  (h : Related endingRelation run run') (htest : ∀ e, test e = true → test' e = true)
include htest

/-- Where one test gives a run up, it does not matter what the other one does. -/
theorem agree_tested {x y : Interp Signal} (e : TryEvent) (hx : AgreeIfEnds x y) :
    AgreeIfEnds (if test e then x else outOfFuel) (if test' e then y else alarm) := by
  by_cases he : test e = true
  · rw [if_pos he, if_pos (htest e he)]
    exact hx
  · rw [if_neg he]
    intro s hends
    exact absurd rfl (hends s)

include h

theorem agree_runCatchTested (before : State) (f : Failure) (r : ObjectRef)
    (cs : List CatchClause) :
    AgreeIfEnds (run.runCatchTested test outOfFuel before f r cs)
      (run'.runCatchTested test' alarm before f r cs) := by
  induction cs with
  | nil => exact .of_eq rfl
  | cons c cs ih =>
    have hcatches : AgreeIfEnds (run.catches c r) (run'.catches c r) :=
      h.on.catches (endingRelation.bindsCurrent _) (fun _ _ => trivial) r
    have hblock : AgreeIfEnds (run.block c.body) (run'.block c.body) :=
      h.on.block fun _ _ => trivial
    refine hcatches.bind fun b => endingRelation.ite ?_ ih
    refine AgreeIfEnds.bind (.of_eq rfl) fun now => ?_
    exact agree_tested htest _ (hblock.inContext _)

theorem agree_guardedTested (before : State) (body : List Stmt) (cs : List CatchClause) :
    AgreeIfEnds (run.guardedTested test outOfFuel before body cs)
      (run'.guardedTested test' alarm before body cs) := by
  have hbody : AgreeIfEnds (run.block body) (run'.block body) := h.on.block fun _ _ => trivial
  refine hbody.attempt.bind fun outcome => ?_
  cases outcome with
  | ok signal => exact .of_eq rfl
  | error f =>
    have hcatch : AgreeIfEnds
        (exceptionFor f >>= fun r => run.runCatchTested test outOfFuel before f r cs)
        (exceptionFor f >>= fun r => run'.runCatchTested test' alarm before f r cs) :=
      (AgreeIfEnds.of_eq rfl).bind fun r => agree_runCatchTested h htest before f r cs
    cases f with
    | abandoned => exact .of_eq rfl
    | _ => exact hcatch

theorem agree_tryTested (body : List Stmt) (cs : List CatchClause)
    (cleanup : Option (List Stmt)) :
    AgreeIfEnds (run.tryTested test outOfFuel body cs cleanup)
      (run'.tryTested test' alarm body cs cleanup) := by
  have hcleanup : AgreeIfEnds (run.block (cleanup.getD [])) (run'.block (cleanup.getD [])) :=
    h.on.block fun _ _ => trivial
  refine AgreeIfEnds.bind (.of_eq rfl) fun before => ?_
  refine (agree_guardedTested h htest before body cs).attempt.bind fun outcome => ?_
  refine hcleanup.attempt.bind fun ended => ?_
  exact agree_tested htest _ (.of_eq rfl)

theorem agree_stepTested (q : Request) :
    AgreeIfEnds (run.stepTested test outOfFuel q) (run'.stepTested test' alarm q) := by
  cases hq : q.isTry with
  | false =>
    rw [stepTested_of_not_try hq, stepTested_of_not_try hq]
    exact h.step (endingRelation_admits q)
  | true =>
    cases q with
    | exec s =>
      cases s with
      | tryCatch body cs cleanup => exact agree_tryTested h htest body cs cleanup
      | _ => cases hq
    | _ => cases hq

end

theorem related_ending {test test' : TryTest} (htest : ∀ e, test e = true → test' e = true)
    (alarm : Interp Signal) (fuel : Nat) :
    Related endingRelation (supervised test outOfFuel fuel) (supervised test' alarm fuel) := by
  induction fuel with
  | zero => exact .ofAnswers 0 fun _ => endingRelation.outOfFuel
  | succ fuel ih => exact .ofAnswers _ fun q => agree_stepTested ih htest q

/-- One run decides what always holds: that which is given up where the test fails. -/
theorem alwaysTries_of_ends {α : Type} {test : TryTest} {x : Runner → Interp α}
    (hx : ∀ {run run'}, Related endingRelation run run' → AgreeIfEnds (x run) (x run'))
    {fuel : Nat} {s : State} (hends : (x (supervised test outOfFuel fuel)).Ends s) :
    AlwaysTries test fuel x s := by
  intro alarm
  have hplain :
      x (supervised test outOfFuel fuel) s = x (supervised (fun _ => true) alarm fuel) s :=
    hx (related_ending (fun _ _ => rfl) alarm fuel) s hends
  rw [supervised_true] at hplain
  rw [← hplain]
  exact (hx (related_ending (fun _ h => h) alarm fuel) s hends).symm

end Runner

/-! ### Steady runs -/

section
variable {α β : Type} {n : Int} {x y : Interp α} {s : State}

/-- Two runs from a state that are the same and give up if they find that the host has gone, unless
the first one ends with a mark. -/
def Interp.SteadyAt (n : Int) (x y : Interp α) (s : State) : Prop :=
  x.Marked n s ∨ x s = y s ∧ x.GivesUp s

/-- Two runs from a state that are the same and end for good, unless the first one ends with a
mark. -/
def Interp.EndsAt (n : Int) (x y : Interp α) (s : State) : Prop :=
  x.Marked n s ∨ x s = y s ∧ ∃ e s', x s = .error e s' ∧ e.isFinal = true

/-- Two runs that are steady from all states. -/
def Interp.Steady (n : Int) (x y : Interp α) : Prop := ∀ s, SteadyAt n x y s

namespace Interp

theorem EndsAt.steadyAt (h : EndsAt n x y s) : SteadyAt n x y s := by
  obtain hmark | ⟨heq, hend⟩ := h
  · exact .inl hmark
  · exact .inr ⟨heq, fun _ => .inr hend⟩

/-- A run that succeeds has not just found that the host has gone. -/
theorem GivesUp.of_ok {s' : State} {a : α} (h : x.GivesUp s) (hrun : x s = .ok a s')
    (hgone : s'.hostGone = true) : s.hostGone = true := by
  obtain h | ⟨e, t, he, -⟩ := h (by rwa [after_of_ok hrun])
  · exact h
  · rw [hrun] at he
    cases he

/-- A run that fails in a way that a `Try` may take has not just found that the host has gone. -/
theorem GivesUp.of_error {s' : State} {e : Halt} (h : x.GivesUp s) (hrun : x s = .error e s')
    (hfinal : e.isFinal = false) (hgone : s'.hostGone = true) : s.hostGone = true := by
  obtain h | ⟨e', t, he, hfinal'⟩ := h (by rwa [after_of_error hrun])
  · exact h
  · rw [hrun] at he
    cases he
    rw [hfinal] at hfinal'
    cases hfinal'

end Interp

theorem Interp.EndsAt.of_step {x' y' : Interp α} {s' : State} (hx : x s = x' s')
    (hy : y s = y' s') (h : EndsAt n x' y' s') : EndsAt n x y s := by
  rw [EndsAt, Marked, hx, hy]
  exact h

namespace Interp.SteadyAt

theorem of_givesUp (h : x.GivesUp s) : SteadyAt n x x s := .inr ⟨rfl, h⟩

/-- Runs are steady if they go on as steady runs from a later state, by which the host has not been
found gone. -/
theorem of_step {x' y' : Interp α} {s' : State} (hx : x s = x' s') (hy : y s = y' s')
    (hgone : s'.hostGone = true → s.hostGone = true) (h : SteadyAt n x' y' s') :
    SteadyAt n x y s := by
  rw [SteadyAt, Marked, GivesUp, after, hx, hy]
  obtain hmark | ⟨heq, hgives⟩ := h
  · exact .inl hmark
  · exact .inr ⟨heq, fun hafter => (hgives hafter).imp_left hgone⟩

theorem bind {k l : α → Interp β} (hx : SteadyAt n x y s)
    (hk : ∀ a s', (s'.hostGone = true → s.hostGone = true) → SteadyAt n (k a) (l a) s') :
    SteadyAt n (x >>= k) (y >>= l) s := by
  obtain hmark | ⟨heq, hgives⟩ := hx
  · exact .inl (hmark.bind k)
  · cases hr : x s with
    | ok a s' =>
      exact of_step (bind_of_ok k hr) (bind_of_ok l (heq.symm.trans hr)) (hgives.of_ok hr)
        (hk a s' (hgives.of_ok hr))
    | error e s' =>
      refine .inr ⟨?_, givesUp_bind hgives fun a s'' h => by rw [hr] at h; cases h⟩
      rw [bind_of_error k hr, bind_of_error l (heq.symm.trans hr)]

/-- What is done with a failure depends on whether it is an abandonment, and then it has to end for
good. -/
theorem attempt_bind {k l : Except Failure α → Interp β} (hx : SteadyAt n x y s)
    (hok : ∀ a s', (s'.hostGone = true → s.hostGone = true) →
      SteadyAt n (k (.ok a)) (l (.ok a)) s')
    (hfailure : ∀ f s', (Halt.failure f).isFinal = false →
      (s'.hostGone = true → s.hostGone = true) → SteadyAt n (k (.error f)) (l (.error f)) s')
    (habandoned : ∀ s', EndsAt n (k (.error .abandoned)) (l (.error .abandoned)) s') :
    SteadyAt n (Interp.attempt x >>= k) (Interp.attempt y >>= l) s := by
  obtain hmark | ⟨heq, hgives⟩ := hx
  · exact .inl (hmark.attempt.bind k)
  · cases hr : x s with
    | ok a s' =>
      have hr' := heq.symm.trans hr
      exact of_step (bind_of_ok k (attempt_of_ok hr)) (bind_of_ok l (attempt_of_ok hr'))
        (hgives.of_ok hr) (hok a s' (hgives.of_ok hr))
    | error e s' =>
      have hr' := heq.symm.trans hr
      cases e with
      | outOfFuel =>
        have hrun := bind_of_error k (attempt_of_outOfFuel hr)
        have hrun' := bind_of_error l (attempt_of_outOfFuel hr')
        exact .inr ⟨hrun.trans hrun'.symm, fun _ => .inr ⟨_, _, hrun, rfl⟩⟩
      | failure f =>
        have hrun := bind_of_ok k (attempt_of_failure hr)
        have hrun' := bind_of_ok l (attempt_of_failure hr')
        by_cases hf : (Halt.failure f).isFinal = true
        · obtain rfl : f = .abandoned := by cases f <;> first | rfl | cases hf
          exact ((habandoned s').of_step hrun hrun').steadyAt
        · have hf' : (Halt.failure f).isFinal = false := by simpa using hf
          exact of_step hrun hrun' (hgives.of_error hr hf')
            (hfailure f s' hf' (hgives.of_error hr hf'))

end Interp.SteadyAt

/-! ### The relation -/

namespace Interp.Steady

theorem of_console (h : ∀ s, (x.after s).console = s.console) : Steady n x x := fun s =>
  .of_givesUp (givesUp_of_after (h s))

theorem of_quietAt (h : ∀ s, x.QuietAt s) : Steady n x x := fun s => .of_givesUp (h s).2.2

theorem of_quiet (h : x.Quiet) : Steady n x x := .of_quietAt h.quietAt

theorem bind {k l : α → Interp β} (hx : Steady n x y) (hk : ∀ a, Steady n (k a) (l a)) :
    Steady n (x >>= k) (y >>= l) := fun s => (hx s).bind fun a s' _ => hk a s'

theorem found? (h : Steady n x y) : Steady n (Interp.found? x) (Interp.found? y) := by
  intro s
  obtain hmark | ⟨heq, hgives⟩ := h s
  · exact .inl hmark.found?
  · refine .inr ⟨by simp only [Interp.found?, heq], fun hgone => ?_⟩
    rw [after_found?] at hgone
    obtain hs | ⟨e, t, hend, hfinal⟩ := hgives hgone
    · exact .inl hs
    · refine .inr ⟨e, t, ?_, hfinal⟩
      cases e with
      | outOfFuel => simp only [Interp.found?, hend]
      | failure f => exact found?_of_failure hend (by cases f <;> first | rfl | cases hfinal)

theorem inContext (d : Detour) (h : Steady n x y) :
    Steady n (Interp.inContext d x) (Interp.inContext d y) := by
  intro s
  obtain hmark | ⟨heq, hgives⟩ := h { s with context := d.enter s.context }
  · exact .inl (.inContext hmark)
  · refine .inr ⟨by simp only [Interp.inContext, heq], fun hgone => ?_⟩
    rw [after_inContext] at hgone
    obtain hs | ⟨e, t, hend, hfinal⟩ := hgives hgone
    · exact .inl hs
    · exact .inr ⟨e, { t with context := d.leave s.context t.context },
        by simp only [Interp.inContext, hend], hfinal⟩

theorem inScope (h : Steady n x y) : Steady n (Interp.inScope x) (Interp.inScope y) := by
  intro s
  obtain hmark | ⟨heq, hgives⟩ := h { s with scopes := s.scopes.push }
  · exact .inl (.inScope hmark)
  · refine .inr ⟨by simp only [Interp.inScope, heq], fun hgone => ?_⟩
    rw [after_inScope] at hgone
    obtain hs | ⟨e, t, hend, hfinal⟩ := hgives hgone
    · exact .inl hs
    · exact .inr ⟨e, { t with scopes := t.scopes.pop }, by simp only [Interp.inScope, hend], hfinal⟩

theorem onLeave (name : String) (h : Steady n x y) :
    Steady n (Interp.onFailure (·.leave name) x) (Interp.onFailure (·.leave name) y) := by
  intro s
  obtain hmark | ⟨heq, hgives⟩ := h s
  · exact .inl (hmark.onFailure _)
  · refine .inr ⟨by simp only [Interp.onFailure, heq], fun hgone => ?_⟩
    rw [after_onFailure] at hgone
    obtain hs | ⟨e, t, hend, hfinal⟩ := hgives hgone
    · exact .inl hs
    · refine .inr ⟨e, t, ?_, hfinal⟩
      cases e with
      | outOfFuel => simp only [Interp.onFailure, hend]
      | failure f =>
        obtain rfl : f = .abandoned := by cases f <;> first | rfl | cases hfinal
        simp only [Interp.onFailure, hend, Failure.leave]

theorem inCall (c : Callable) (self : Option ObjectRef) (classContext : String)
    (h : Steady n x y) :
    Steady n (Interp.inCall c self classContext x) (Interp.inCall c self classContext y) := by
  intro s
  by_cases hfull : maxFrames ≤ s.context.frames.length
  · refine SteadyAt.of_step ?_ ?_ id
      (of_quiet (quiet_failWith ("Call stack overflow in " ++ c.name)) s)
    · rw [inCall_apply, if_pos hfull]
    · rw [inCall_apply, if_pos hfull]
  · refine SteadyAt.of_step ?_ ?_ id
      ((h.onLeave c.name).inScope.inContext (c.detour self classContext) s)
    · rw [inCall_apply, if_neg hfull]
    · rw [inCall_apply, if_neg hfull]

theorem rebind (key : String) (v : Value) :
    Steady n (Interp.rebind key v) (Interp.rebind key v) := by
  refine of_console fun s => ?_
  obtain h | ⟨scopes, -, h⟩ := after_rebind key v s <;> rw [h]

end Interp.Steady

end

/-- Steadiness is a relation that the machine respects, `Try` apart. -/
def steadyRelation (n : Int) : RunRelation where
  Rel := Steady n
  quiet h := .of_quiet h
  bind := Steady.bind
  read _ h := .bind (.of_quietAt quietAt_get) fun s => h s trivial
  bindCurrent _ _ := .of_console fun _ => rfl
  bindGlobal _ _ := .of_console fun _ => rfl
  foundOr _ h := h.found?.bind fun
    | some _ => .of_console fun _ => rfl
    | none => .of_console fun _ => rfl
  entering _ h := h.inContext _
  inCall := Steady.inCall
  outOfFuel := .of_console fun _ => rfl

theorem steadyRelation_admits (n : Int) {q : Request} (hq : q.isTry = false) :
    (steadyRelation n).Admits q where
  rebinds _ := Steady.rebind
  forgives _ := Steady.found?
  catches h := by rw [hq] at h; cases h
  rethrows h := by rw [hq] at h; cases h

/-! ### `Try` statements -/

/-- No `Finally` block replaces an abandonment by a failure of its own. -/
def keepsAbandonment : TryTest
  | .cleanedUp (.error .abandoned) (.error .abandoned) => true
  | .cleanedUp (.error .abandoned) (.error _) => false
  | _ => true

/-- No `Catch` block of a `Try` that started before the host was found gone starts after that. -/
def catchesInTime : TryTest
  | .catching before now => before.hostGone || !now.hostGone
  | .cleanedUp _ _ => true

theorem keepsAbandonment_catching (before now : State) :
    keepsAbandonment (.catching before now) = true := rfl

theorem catchesInTime_cleanedUp (outcome cleanup : Except Failure Signal) :
    catchesInTime (.cleanedUp outcome cleanup) = true := rfl

theorem Interp.SteadyAt.of_get {α : Type} {n : Int} {k l : State → Interp α} {s : State}
    (h : SteadyAt n (k s) (l s) s) : SteadyAt n (get >>= k) (get >>= l) s := h

theorem quietAt_afterCleanup (outcome : Except Failure Signal) (cleanup : Signal) (s : State) :
    QuietAt (Runner.afterCleanup outcome cleanup) s := by
  refine (quietAt_resume _ s).bind fun signal s' _ => ?_
  split <;> exact quietAt_pure _ s'

/-- The state in which the entry procedure of a console program is called. -/
def State.attached (s : State) (host : ConsoleHost) : State :=
  { s with console := some { host } }

namespace Runner

variable {n : Int} {run run' : Runner} {alarm : Interp Signal} {s : State}

/-- After the `Finally` block, what was not an abandonment goes on as it is. -/
theorem steady_afterCleanupTested {outcome : Except Failure Signal}
    (houtcome : ∀ cleanup, keepsAbandonment (.cleanedUp outcome cleanup) = true)
    (cleanup : Except Failure Signal) :
    Steady n (afterCleanupTested keepsAbandonment (mark n) outcome cleanup)
      (afterCleanupTested catchesInTime alarm outcome cleanup) := by
  unfold afterCleanupTested
  rw [if_pos (houtcome cleanup), if_pos (catchesInTime_cleanedUp _ _)]
  exact .of_quietAt fun s => (quietAt_resume _ s).bind fun signal s' _ =>
    quietAt_afterCleanup _ _ s'

section
variable (h : Related (steadyRelation n) run run')
include h

/-- The host has not been found gone when a `Catch` block starts. -/
theorem steady_runCatchTested {before : State} (f : Failure) (r : ObjectRef)
    (cs : List CatchClause) (hs : s.hostGone = true → before.hostGone = true) :
    SteadyAt n (run.runCatchTested keepsAbandonment (mark n) before f r cs)
      (run'.runCatchTested catchesInTime alarm before f r cs) s := by
  induction cs generalizing s with
  | nil => exact Steady.of_quietAt (quietAt_resume _) s
  | cons c cs ih =>
    have hcatches : Steady n (run.catches c r) (run'.catches c r) :=
      h.on.catches ((steadyRelation n).bindsCurrent _) (fun _ _ => trivial) r
    refine (hcatches s).bind fun b s' hs' => ?_
    cases b with
    | false => exact ih fun hgone => hs (hs' hgone)
    | true =>
      refine SteadyAt.of_get ?_
      have htime : catchesInTime (.catching before s') = true := by
        rw [catchesInTime, Bool.or_eq_true, Bool.not_eq_true']
        by_cases hgone : s'.hostGone = true
        · exact .inl (hs (hs' hgone))
        · exact .inr (by simpa using hgone)
      rw [if_pos (keepsAbandonment_catching _ _), if_pos htime]
      exact (h.on.block fun _ _ => trivial : Steady n _ _).inContext _ s'

theorem steady_guardedTested (body : List Stmt) (cs : List CatchClause) :
    SteadyAt n (run.guardedTested keepsAbandonment (mark n) s body cs)
      (run'.guardedTested catchesInTime alarm s body cs) s := by
  have hbody : Steady n (run.block body) (run'.block body) := h.on.block fun _ _ => trivial
  refine (hbody s).attempt_bind (fun signal s' _ => ?_) (fun f s' hf hgone => ?_) fun s' => ?_
  · exact Steady.of_quiet (quiet_pure _) s'
  · have hcatch : SteadyAt n
        (exceptionFor f >>= fun r => run.runCatchTested keepsAbandonment (mark n) s f r cs)
        (exceptionFor f >>= fun r => run'.runCatchTested catchesInTime alarm s f r cs) s' := by
      refine (Steady.of_quiet (quiet_exceptionFor f) s').bind fun r s'' hgone' => ?_
      exact steady_runCatchTested h f r cs fun hgone'' => hgone (hgone' hgone'')
    cases f <;> first | exact hcatch | cases hf
  · exact .inr ⟨rfl, _, _, rfl, rfl⟩

/-- With the `Finally` block, an abandonment ends the statement for good. -/
theorem endsAt_afterAbandonment (cleanup : List Stmt) :
    EndsAt n
      (Interp.attempt (run.block cleanup) >>=
        afterCleanupTested keepsAbandonment (mark n) (.error .abandoned))
      (Interp.attempt (run'.block cleanup) >>=
        afterCleanupTested catchesInTime alarm (.error .abandoned)) s := by
  have hcleanup : Steady n (run.block cleanup) (run'.block cleanup) :=
    h.on.block fun _ _ => trivial
  obtain hmark | ⟨heq, -⟩ := hcleanup s
  · exact .inl (hmark.attempt.bind _)
  · cases hr : run.block cleanup s with
    | ok signal s' =>
      refine .of_step (bind_of_ok _ (attempt_of_ok hr))
        (bind_of_ok _ (attempt_of_ok (heq.symm.trans hr))) (.inr ⟨rfl, _, _, rfl, rfl⟩)
    | error e s' =>
      cases e with
      | outOfFuel =>
        have hrun := bind_of_error
          (afterCleanupTested keepsAbandonment (mark n) (.error .abandoned))
          (attempt_of_outOfFuel hr)
        have hrun' := bind_of_error
          (afterCleanupTested catchesInTime alarm (.error .abandoned))
          (attempt_of_outOfFuel (heq.symm.trans hr))
        exact .inr ⟨hrun.trans hrun'.symm, _, _, hrun, rfl⟩
      | failure f =>
        refine .of_step (bind_of_ok _ (attempt_of_failure hr))
          (bind_of_ok _ (attempt_of_failure (heq.symm.trans hr))) ?_
        cases f with
        | abandoned => exact .inr ⟨rfl, _, _, rfl, rfl⟩
        -- the block has failed on its own, and the run is marked
        | _ => exact .inl ⟨_, rfl, rfl⟩

theorem steady_tryTested (body : List Stmt) (cs : List CatchClause)
    (cleanup : Option (List Stmt)) :
    Steady n (run.tryTested keepsAbandonment (mark n) body cs cleanup)
      (run'.tryTested catchesInTime alarm body cs cleanup) := by
  have hcleanup : Steady n (run.block (cleanup.getD [])) (run'.block (cleanup.getD [])) :=
    h.on.block fun _ _ => trivial
  have hrest : ∀ {outcome : Except Failure Signal},
      (∀ ended, keepsAbandonment (.cleanedUp outcome ended) = true) → Steady n
        (Interp.attempt (run.block (cleanup.getD [])) >>=
          afterCleanupTested keepsAbandonment (mark n) outcome)
        (Interp.attempt (run'.block (cleanup.getD [])) >>=
          afterCleanupTested catchesInTime alarm outcome) := by
    intro outcome houtcome s'
    refine (hcleanup s').attempt_bind (fun signal s'' _ => ?_) (fun f s'' _ _ => ?_) fun s'' => ?_
    · exact steady_afterCleanupTested houtcome _ s''
    · exact steady_afterCleanupTested houtcome _ s''
    · unfold afterCleanupTested
      rw [if_pos (houtcome _), if_pos (catchesInTime_cleanedUp _ _)]
      exact .inr ⟨rfl, _, _, rfl, rfl⟩
  intro s
  refine SteadyAt.of_get ((steady_guardedTested h body cs).attempt_bind
    (fun signal s' _ => hrest (fun _ => rfl) s') (fun f s' hf _ => hrest (fun ended => ?_) s')
    fun s' => endsAt_afterAbandonment h _)
  cases f <;> first | rfl | cases hf

theorem steady_stepTested (q : Request) :
    Steady n (run.stepTested keepsAbandonment (mark n) q)
      (run'.stepTested catchesInTime alarm q) := by
  cases hq : q.isTry with
  | false =>
    rw [stepTested_of_not_try hq, stepTested_of_not_try hq]
    exact h.step (steadyRelation_admits n hq)
  | true =>
    cases q with
    | exec s =>
      cases s with
      | tryCatch body cs cleanup => exact steady_tryTested h body cs cleanup
      | _ => cases hq
    | _ => cases hq

end

/-- A run that ends at the first `Finally` block that replaces an abandonment does the same, up to
there, as one that raises an alarm at a `Catch` block that starts too late. -/
theorem related_supervised (n : Int) (alarm : Interp Signal) (fuel : Nat) :
    Related (steadyRelation n) (supervised keepsAbandonment (mark n) fuel)
      (supervised catchesInTime alarm fuel) := by
  induction fuel with
  | zero => exact .ofAnswers 0 fun _ => (steadyRelation n).outOfFuel
  | succ fuel ih => exact .ofAnswers _ fun q => steady_stepTested ih q

/-! ### Console programs -/

/-- If no `Finally` block replaces the abandonment by a failure of its own, then no `Catch` block of
a `Try` that started before the host was found gone starts after that, and the entry procedure, if
it ends, ends with the abandonment. -/
theorem abandonment_ends_program (fuel : Nat) (entry : String) (host : ConsoleHost) (s : State)
    (hkeeps : AlwaysTries keepsAbandonment fuel (·.callProcedure entry []) (s.attached host))
    (hgone : (((withFuel fuel).callProcedure entry []).after (s.attached host)).hostGone = true) :
    AlwaysTries catchesInTime fuel (·.callProcedure entry []) (s.attached host) ∧
    (((withFuel fuel).callProcedure entry []).Ends (s.attached host) →
      ∃ s', (withFuel fuel).callProcedure entry [] (s.attached host) =
        .error (.failure .abandoned) s') := by
  let run := (withFuel fuel).callProcedure entry []
  -- a mark that the run cannot bear by chance
  let n := (run.after (s.attached host)).foreground + 1
  have hsame : ∀ alarm : Interp Signal,
      run (s.attached host) = (supervised catchesInTime alarm fuel).callProcedure entry []
        (s.attached host) ∧ run.GivesUp (s.attached host) := by
    intro alarm
    have hplain : (supervised keepsAbandonment (mark n) fuel).callProcedure entry []
        (s.attached host) = run (s.attached host) := hkeeps (mark n)
    have hsteady : Steady n _ _ := (related_supervised n alarm fuel).on.callProcedure entry []
    obtain ⟨t, ht, hn⟩ | ⟨heq, hgives⟩ := hsteady (s.attached host)
    · have hrun : run (s.attached host) = .error .outOfFuel t := hplain.symm.trans ht
      have hmark : t.foreground = t.foreground + 1 := by
        rw [← after_of_error hrun] at hn ⊢
        exact hn
      omega
    · refine ⟨hplain.symm.trans heq, ?_⟩
      rw [GivesUp, after, hplain] at hgives
      exact hgives
  refine ⟨fun alarm => (hsame alarm).1.symm, fun hends => ?_⟩
  obtain hbefore | ⟨e, t, hend, hfinal⟩ := (hsame outOfFuel).2 hgone
  · cases hbefore
  · cases e with
    | outOfFuel => exact absurd hend (hends t)
    | failure f =>
      obtain rfl : f = .abandoned := by cases f <;> first | rfl | cases hfinal
      exact ⟨t, hend⟩

/-- A program with the entry procedure `Main`. -/
def withMain (body : List Stmt) : State where
  procedures := .ofList
    [("main", { decl := { (default : Procedure) with name := "Main", body }, moduleName := "" })]

/-- A statement that waits for a line. -/
def readLine : Stmt := .call (.method (.variable "Console") "ReadLine" [])

/-- A program that waits for a line in a `Try` that would catch everything, and clears the console
at the end. -/
def readsInTry : State :=
  withMain [.tryCatch [readLine] [⟨"", "", none, [.throwValue (some (.text "caught"))]⟩]
    (some [.call (.method (.variable "Console") "Clear" [])])]

theorem abandonment_ends_readsInTry :
    ((withFuel 9).callProcedure "Main" []).Ends (readsInTry.attached (.ofLines [])) ∧
    AlwaysTries keepsAbandonment 9 (·.callProcedure "Main" [])
      (readsInTry.attached (.ofLines [])) ∧
    AlwaysTries catchesInTime 9 (·.callProcedure "Main" []) (readsInTry.attached (.ofLines [])) ∧
    ∃ s', (withFuel 9).callProcedure "Main" [] (readsInTry.attached (.ofLines [])) =
      .error (.failure .abandoned) s' := by
  have hends : ((withFuel 9).callProcedure "Main" []).Ends (readsInTry.attached (.ofLines [])) :=
    ends_of_comesToEnd (by decide +kernel)
  have hkeeps : AlwaysTries keepsAbandonment 9 (·.callProcedure "Main" [])
      (readsInTry.attached (.ofLines [])) :=
    alwaysTries_of_ends (fun h => h.on.callProcedure "Main" [])
      (ends_of_comesToEnd (by decide +kernel))
  obtain ⟨htime, habandoned⟩ := abandonment_ends_program 9 "Main" (.ofLines []) readsInTry hkeeps
    (by decide +kernel)
  exact ⟨hends, hkeeps, htime, habandoned hends⟩

/-- Every `Catch` block starts before the host is found gone. -/
def catchesWithHost : TryTest
  | .catching _ now => !now.hostGone
  | .cleanedUp _ _ => true

/-- A program that waits for a line, and catches an error of its own in the `Finally` block. -/
def catchesInFinally : State :=
  withMain [.tryCatch [readLine] []
    (some [.tryCatch [.throwValue (some (.text "x"))]
      [⟨"", "", none, [.memberAssign (.variable "log") "caught" (.boolean true)]⟩] none])]

/-- A `Try` in a `Finally` block catches what fails there, although the host has gone. -/
theorem catches_in_finally_block :
    ¬ ∀ (fuel : Nat) (entry : String) (host : ConsoleHost) (s : State),
      (((withFuel fuel).callProcedure entry []).after (s.attached host)).hostGone = true →
      ((withFuel fuel).callProcedure entry []).Ends (s.attached host) →
      AlwaysTries catchesWithHost fuel (·.callProcedure entry []) (s.attached host) ∧
        ∃ s', (withFuel fuel).callProcedure entry [] (s.attached host) =
          .error (.failure .abandoned) s' := by
  intro h
  have halways := (h 9 "Main" (.ofLines []) catchesInFinally (by decide +kernel)
    (ends_of_comesToEnd (by decide +kernel))).1 outOfFuel
  have hends : ((supervised catchesWithHost outOfFuel 9).callProcedure "Main" []).comesToEnd
        (catchesInFinally.attached (.ofLines [])) =
      ((withFuel 9).callProcedure "Main" []).comesToEnd
        (catchesInFinally.attached (.ofLines [])) := comesToEnd_congr halways
  revert hends
  decide +kernel

end Runner

end FormBasic
