import FormBasic.Proofs.Machine.Session

/-!
# Watched runs

What happens in the course of a run is a matter of the requests that are made of the runner: to
evaluate an expression, to execute a statement, to run a callable, to assign to a name. A *watched*
runner puts every request, with the state in which it is made and what comes of it, to a test, and
where the test fails it raises an alarm in place of the answer. A run on which no alarm makes a
difference is one in which every request passes the test, and this is how statements about
everything that happens in a run are made here: `Always` for all requests, and its negation for some
request.

The answer to a request is settled before the request is put to the test, so a test may look at the
outcome of a call as well as at the state in which a statement starts.

## Main results

* `Runner.Related.step` — a step respects a relation that admits the request
* `Runner.related_watched` — two watched runners are related if their tests and alarms keep steps
  related
* `Runner.related_withFuel` — a runner is related to itself by a relation that admits everything
* `Runner.always_of_ends` — what always holds is decided by a single run
-/

namespace FormBasic

open Interp

/-! ### Runs that end with a mark -/

namespace Interp

variable {α β : Type} {n : Int} {x : Interp α} {s : State}

/-- End a run with a mark, which nothing in the program takes away. -/
def mark (n : Int) : Interp α := fun s => .error .outOfFuel { s with foreground := n }

/-- A run from a state that ends with a mark. -/
def Marked (n : Int) (x : Interp α) (s : State) : Prop :=
  ∃ s', x s = .error .outOfFuel s' ∧ s'.foreground = n

/-- A mark that the state in which a run ends does not bear is not its end. -/
theorem not_marked_of_after_ne (h : (x.after s).foreground ≠ n) : ¬ x.Marked n s := by
  rintro ⟨s', hrun, hmark⟩
  rw [after_of_error hrun] at h
  exact h hmark

namespace Marked

theorem bind (h : x.Marked n s) (k : α → Interp β) : (x >>= k).Marked n s := by
  obtain ⟨s', hrun, hmark⟩ := h
  exact ⟨s', bind_of_error k hrun, hmark⟩

theorem attempt (h : x.Marked n s) : (Interp.attempt x).Marked n s := by
  obtain ⟨s', hrun, hmark⟩ := h
  exact ⟨s', attempt_of_outOfFuel hrun, hmark⟩

theorem found? (h : x.Marked n s) : (Interp.found? x).Marked n s := by
  obtain ⟨s', hrun, hmark⟩ := h
  exact ⟨s', by simp only [Interp.found?, hrun], hmark⟩

theorem onFailure (f : Failure → Failure) (h : x.Marked n s) :
    (Interp.onFailure f x).Marked n s := by
  obtain ⟨s', hrun, hmark⟩ := h
  exact ⟨s', by simp only [Interp.onFailure, hrun], hmark⟩

theorem inContext {d : Detour} (h : x.Marked n { s with context := d.enter s.context }) :
    (Interp.inContext d x).Marked n s := by
  obtain ⟨s', hrun, hmark⟩ := h
  exact ⟨{ s' with context := d.leave s.context s'.context },
    by simp only [Interp.inContext, hrun], hmark⟩

theorem inScope (h : x.Marked n { s with scopes := s.scopes.push }) :
    (Interp.inScope x).Marked n s := by
  obtain ⟨s', hrun, hmark⟩ := h
  exact ⟨{ s' with scopes := s'.scopes.pop }, by simp only [Interp.inScope, hrun], hmark⟩

end Marked

end Interp

/-! ### Requests -/

/-- What a runner is asked for. -/
inductive Request where
  | eval (e : Expr)
  | exec (s : Stmt)
  | invoke (c : Callable) (self : Option ObjectRef) (classContext : String) (args : List Value)
  | assign (name : String) (v : Value)

namespace Request

/-- What a request is answered with. -/
abbrev Answer : Request → Type
  | .eval _ => Value
  | .exec _ => Signal
  | .invoke _ _ _ _ => Value × List Value
  | .assign _ _ => Unit

/-- How a request ends. -/
abbrev Outcome (q : Request) : Type := EStateM.Result Halt State q.Answer

/-- Whether the step of a request takes a name that could not be found for an answer itself: an
assignment does, and a call with variables among its arguments may. -/
def isForgiving : Request → Bool
  | .eval e => e.callArguments.any Expr.isVariable
  | .exec s => s.isForgiving
  | _ => false

/-- Whether a request is for a `Try` statement. -/
def isTry : Request → Bool
  | .exec s => s.isTry
  | _ => false

/-- Whether a request is for an assignment to a name. -/
def isAssign : Request → Bool
  | .assign _ _ => true
  | _ => false

end Request

/-- What a relation has to allow for the step of a request to respect it. -/
structure RunRelation.Admits (L : RunRelation) (q : Request) : Prop where
  rebinds : q.isAssign = true → L.Rebinds
  forgives : q.isForgiving = true → L.Forgives
  catches : q.isTry = true → L.Catches
  rethrows : q.isTry = true → L.Rethrows

namespace Runner

/-- What a runner answers to a request. -/
def answer (run : Runner) : (q : Request) → Interp q.Answer
  | .eval e => run.eval e
  | .exec s => run.exec s
  | .invoke c self classContext args => run.invoke c self classContext args
  | .assign name v => run.assignBound name v

/-- One step for a request, by means of a runner. -/
def step (run : Runner) : (q : Request) → Interp q.Answer
  | .eval e => run.evalStep e
  | .exec s => run.execStep s
  | .invoke c self classContext args => run.invokeStep c self classContext args
  | .assign name v => run.assignStep name v

theorem answer_withFuel_succ (fuel : Nat) (q : Request) :
    (withFuel (fuel + 1)).answer q = (withFuel fuel).step q := by
  cases q <;> rfl

/-- The runner with given answers. -/
def ofAnswers (fuel : Nat) (answer : (q : Request) → Interp q.Answer) : Runner where
  fuel
  eval e := answer (.eval e)
  exec s := answer (.exec s)
  invoke c self classContext args := answer (.invoke c self classContext args)
  assignBound name v := answer (.assign name v)

@[simp] theorem answer_ofAnswers (fuel : Nat) (f : (q : Request) → Interp q.Answer) :
    (ofAnswers fuel f).answer = f := by
  funext q
  cases q <;> rfl

/-- Runners are related if their answers are. -/
theorem Related.ofAnswers {L : RunRelation} {f f' : (q : Request) → Interp q.Answer}
    (fuel : Nat) (h : ∀ q, L.Rel (f q) (f' q)) :
    Related L (ofAnswers fuel f) (ofAnswers fuel f') where
  fuel := rfl
  eval e := h (.eval e)
  exec s := h (.exec s)
  invoke c self classContext args := h (.invoke c self classContext args)
  assignBound name v := h (.assign name v)

theorem Related.answer {L : RunRelation} {run run' : Runner} (h : Related L run run')
    (q : Request) : L.Rel (run.answer q) (run'.answer q) := by
  cases q with
  | eval e => exact h.eval e
  | exec s => exact h.exec s
  | invoke c self classContext args => exact h.invoke c self classContext args
  | assign name v => exact h.assignBound name v

/-- One step respects a relation that admits its request. -/
theorem Related.step {L : RunRelation} {run run' : Runner} (h : Related L run run') {q : Request}
    (hq : L.Admits q) : L.Rel (run.step q) (run'.step q) := by
  cases q with
  | eval e =>
    exact h.evalStep fun name hname => hq.forgives (List.any_eq_true.2 ⟨_, hname, rfl⟩)
  | exec s => exact h.execStep hq.forgives hq.catches hq.rethrows
  | invoke c self classContext args => exact h.invokeStep c self classContext args
  | assign name v => exact h.on.assignStep (hq.rebinds rfl) name v

/-! ### Runners with tests -/

/-- A test of requests: of the request, the state in which it is made, and how it ends. -/
abbrev Test := (q : Request) → State → q.Outcome → Bool

/-- What is done in place of the answer to a request. -/
abbrev Alarm := (q : Request) → Interp q.Answer

/-- A run for a request, or the alarm if the test fails. -/
def tested (test : Test) (alarm : Alarm) (q : Request) (x : Interp q.Answer) : Interp q.Answer :=
  fun s => if test q s (x s) then x s else alarm q s

theorem after_tested (test : Test) (alarm : Alarm) (q : Request) (x : Interp q.Answer)
    (s : State) :
    (tested test alarm q x).after s =
      if test q s (x s) then x.after s else (alarm q).after s := by
  unfold after tested
  cases test q s (x s) <;> rfl

/-- The runner with so much fuel that puts every request to a test. -/
def watched (test : Test) (alarm : Alarm) : (fuel : Nat) → Runner
  | 0 => ofAnswers 0 fun _ => outOfFuel
  | fuel + 1 => ofAnswers (fuel + 1) fun q => tested test alarm q ((watched test alarm fuel).step q)

/-- A runner whose test never fails is not watched. -/
theorem watched_true (alarm : Alarm) (fuel : Nat) :
    watched (fun _ _ _ => true) alarm fuel = withFuel fuel := by
  induction fuel with
  | zero => rfl
  | succ fuel ih =>
    rw [watched, ih]
    rfl

/-- Two watched runners are related if their tests and alarms keep the steps of related runners
related. -/
theorem related_watched {L : RunRelation} {test test' : Test} {alarm alarm' : Alarm}
    (h : ∀ {run run' : Runner}, Related L run run' → ∀ q,
      L.Rel (tested test alarm q (run.step q)) (tested test' alarm' q (run'.step q)))
    (fuel : Nat) : Related L (watched test alarm fuel) (watched test' alarm' fuel) := by
  induction fuel with
  | zero => exact .ofAnswers 0 fun _ => L.outOfFuel
  | succ fuel ih => exact .ofAnswers _ fun q => h ih q

/-- A runner is related to itself by every relation that admits all requests. -/
theorem related_withFuel {L : RunRelation} (h : ∀ q, L.Admits q) (fuel : Nat) :
    Related L (withFuel fuel) (withFuel fuel) := by
  rw [← watched_true (fun _ => outOfFuel) fuel]
  refine related_watched (fun hrel q => ?_) fuel
  exact hrel.step (h q)

/-! ### What always holds in a run -/

variable {α : Type}

/-- In the run from a state with so much fuel, every request passes a test: no alarm makes a
difference. -/
def Always (test : Test) (fuel : Nat) (x : Runner → Interp α) (s : State) : Prop :=
  ∀ alarm : Alarm, x (watched test alarm fuel) s = x (withFuel fuel) s

/-- If every request of a run for a request passes a test, so does this request. -/
theorem Always.test_answer {test : Test} {fuel : Nat} {q : Request} {s : State}
    (h : Always test (fuel + 1) (·.answer q) s) :
    test q s ((withFuel (fuel + 1)).answer q s) = true := by
  -- two alarms that end differently cannot both agree with the run
  have hrun : ∀ alarm : Alarm, tested test alarm q ((watched test alarm fuel).step q) s =
      (withFuel (fuel + 1)).answer q s := by
    intro alarm
    have hx : (watched test alarm (fuel + 1)).answer q s = (withFuel (fuel + 1)).answer q s :=
      h alarm
    rwa [watched, answer_ofAnswers] at hx
  have hfail := hrun fun _ => fail (.custom "")
  have hfuel := hrun fun _ => outOfFuel
  unfold tested at hfail hfuel
  split at hfail
  · next ht => rwa [← hfail]
  · split at hfuel
    · next ht => rwa [← hfuel]
    · rw [← hfuel] at hfail
      cases hfail

/-- In the run from a state with so much fuel, some request passes a test. -/
def Meets (test : Test) (fuel : Nat) (x : Runner → Interp α) (s : State) : Prop :=
  ¬ Always (fun q s r => !test q s r) fuel x s

end Runner

/-! ### Deciding what always holds -/

section
variable {α β : Type} {x y : Interp α}

/-- Whether a run comes to an end. -/
def Interp.comesToEnd (x : Interp α) (s : State) : Bool :=
  match x s with
  | .error .outOfFuel _ => false
  | _ => true

theorem Interp.ends_of_comesToEnd {s : State} (h : x.comesToEnd s = true) : x.Ends s := by
  intro s' hrun
  rw [comesToEnd, hrun] at h
  cases h

theorem Interp.comesToEnd_congr {s : State} (h : x s = y s) :
    x.comesToEnd s = y.comesToEnd s := by
  rw [comesToEnd, comesToEnd, h]

/-- Two runs that are the same where the first one comes to an end. -/
def Interp.AgreeIfEnds (x y : Interp α) : Prop := ∀ s, x.Ends s → x s = y s

namespace Interp.AgreeIfEnds

theorem of_eq (h : x = y) : AgreeIfEnds x y := fun s _ => congrFun h s

theorem bind {k l : α → Interp β} (hx : AgreeIfEnds x y) (hk : ∀ a, AgreeIfEnds (k a) (l a)) :
    AgreeIfEnds (x >>= k) (y >>= l) := by
  intro s hends
  cases hr : x s with
  | ok a s' =>
    have hr' : y s = .ok a s' := (hx s (ends_of_ok hr)).symm.trans hr
    rw [Ends, bind_of_ok k hr] at hends
    rw [bind_of_ok k hr, bind_of_ok l hr']
    exact hk a s' hends
  | error e s' =>
    have hx' : x.Ends s := by
      intro t ht
      exact hends t (bind_of_error k ht)
    rw [bind_of_error k hr, bind_of_error l ((hx s hx').symm.trans hr)]

theorem found? (h : AgreeIfEnds x y) : AgreeIfEnds (Interp.found? x) (Interp.found? y) := by
  intro s hends
  have hx : x.Ends s := fun t ht => hends t (by simp only [Interp.found?, ht])
  simp only [Interp.found?, h s hx]

theorem attempt (h : AgreeIfEnds x y) : AgreeIfEnds (Interp.attempt x) (Interp.attempt y) := by
  intro s hends
  have hx : x.Ends s := fun t ht => hends t (attempt_of_outOfFuel ht)
  simp only [Interp.attempt, h s hx]

theorem inContext (d : Detour) (h : AgreeIfEnds x y) :
    AgreeIfEnds (Interp.inContext d x) (Interp.inContext d y) := by
  intro s hends
  have hx : x.Ends { s with context := d.enter s.context } := fun t ht =>
    hends { t with context := d.leave s.context t.context } (by simp only [Interp.inContext, ht])
  simp only [Interp.inContext, h _ hx]

theorem inScope (h : AgreeIfEnds x y) : AgreeIfEnds (Interp.inScope x) (Interp.inScope y) := by
  intro s hends
  have hx : x.Ends { s with scopes := s.scopes.push } := fun t ht =>
    hends { t with scopes := t.scopes.pop } (by simp only [Interp.inScope, ht])
  simp only [Interp.inScope, h _ hx]

theorem onLeave (name : String) (h : AgreeIfEnds x y) :
    AgreeIfEnds (Interp.onFailure (·.leave name) x) (Interp.onFailure (·.leave name) y) := by
  intro s hends
  have hx : x.Ends s := fun t ht => hends t (by simp only [Interp.onFailure, ht])
  simp only [Interp.onFailure, h s hx]

theorem inCall (c : Callable) (self : Option ObjectRef) (classContext : String)
    (h : AgreeIfEnds x y) :
    AgreeIfEnds (Interp.inCall c self classContext x) (Interp.inCall c self classContext y) := by
  intro s hends
  rw [Ends, inCall_apply] at hends
  rw [inCall_apply, inCall_apply]
  by_cases hfull : maxFrames ≤ s.context.frames.length
  · rw [if_pos hfull, if_pos hfull]
  · rw [if_neg hfull] at hends
    rw [if_neg hfull, if_neg hfull]
    exact (h.onLeave c.name).inScope.inContext (c.detour self classContext) s hends

end Interp.AgreeIfEnds

end

/-- Doing the same if it comes to an end is a relation that the machine respects. -/
def endingRelation : RunRelation where
  Rel := AgreeIfEnds
  quiet _ := .of_eq rfl
  bind := AgreeIfEnds.bind
  read _ h := .bind (.of_eq rfl) fun s => h s trivial
  bindCurrent _ _ := .of_eq rfl
  bindGlobal _ _ := .of_eq rfl
  foundOr _ h := h.found?.bind fun _ => .of_eq rfl
  entering _ h := h.inContext _
  inCall := AgreeIfEnds.inCall
  outOfFuel := .of_eq rfl

theorem endingRelation_admits (q : Request) : endingRelation.Admits q where
  rebinds _ := fun _ _ => AgreeIfEnds.of_eq rfl
  forgives _ := AgreeIfEnds.found?
  catches _ := AgreeIfEnds.attempt
  rethrows _ := fun _ => AgreeIfEnds.of_eq rfl

/-- Doing the same if it comes to an end is a relation that sessions respect as well. -/
def endingSession : SessionRelation where
  toRunRelation := endingRelation
  administer _ := .of_eq rfl

namespace Runner

/-- Where a watched run gives up if its test fails, it does not matter what another one does, as
long as its test passes wherever the first one does. -/
theorem related_watched_ending {test test' : Test}
    (htest : ∀ q s r, test q s r = true → test' q s r = true) (alarm : Alarm) (fuel : Nat) :
    Related endingRelation (watched test (fun _ => outOfFuel) fuel)
      (watched test' alarm fuel) := by
  refine related_watched (fun {run run'} hrel q s hends => ?_) fuel
  by_cases hpass : test q s (run.step q s) = true
  · have hfirst : tested test (fun _ => outOfFuel) q (run.step q) s = run.step q s := if_pos hpass
    rw [Ends, hfirst] at hends
    have hstep : run.step q s = run'.step q s := hrel.step (endingRelation_admits q) s hends
    rw [hfirst, hstep]
    exact (if_pos (htest q s _ (hstep ▸ hpass))).symm
  · have hfirst : tested test (fun _ => outOfFuel) q (run.step q) s = .error .outOfFuel s :=
      if_neg hpass
    exact absurd hfirst (hends s)

/-- One run decides what always holds: that which gives up where the test fails. -/
theorem always_of_ends {test : Test} {x : Runner → Interp α}
    (hx : ∀ {run run'}, Related endingRelation run run' → AgreeIfEnds (x run) (x run'))
    {fuel : Nat} {s : State} (hends : (x (watched test (fun _ => outOfFuel) fuel)).Ends s) :
    Always test fuel x s := by
  intro alarm
  have hplain : x (watched test (fun _ => outOfFuel) fuel) s =
      x (watched (fun _ _ _ => true) alarm fuel) s :=
    hx (related_watched_ending (fun _ _ _ _ => rfl) alarm fuel) s hends
  rw [watched_true] at hplain
  rw [← hplain]
  exact (hx (related_watched_ending (fun _ _ _ h => h) alarm fuel) s hends).symm

/-! ### What a step asks for -/

/-- The runner that puts the requests that are made of it to a test, and leaves those alone that
they lead to. -/
def overseen (test : Test) (alarm : Alarm) (run : Runner) : Runner :=
  ofAnswers run.fuel fun q => tested test alarm q (run.answer q)

/-- The step for a request makes a request itself that passes a test. -/
def Asks (test : Test) (fuel : Nat) (q : Request) (s : State) : Prop :=
  ∃ alarm : Alarm, (overseen (fun q s r => !test q s r) alarm (withFuel fuel)).step q s ≠
    (withFuel fuel).step q s

end Runner

end FormBasic
