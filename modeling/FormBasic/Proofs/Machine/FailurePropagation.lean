import FormBasic.Proofs.Machine.Watch

/-!
# Failures on their way out

A failure that starts inside a call travels outwards through everything that waits for the call. It
can end in three places: in a `Try`; in an assignment, which takes a name that could not be found
for a target that does not exist yet; and in the write-back of an argument passed by reference,
which does the same. The second and the third take a failure that only says that a name could not be
found, whether it says so of their own target or comes from code that a setter or the owner of a
member has run.

So in a run without `Try` every other failure of a call is a failure of the whole run, and where
nothing is assigned with a fallback so is every failure. Conversely, the failures that are lost at
an assignment are exactly those that say that a name could not be found.

## Main results

* `failureRelation` — one run fails with a failure of a kind, or the two runs are the same
* `Runner.fails_of_meets` — a call that fails with a failure of the kind makes the run fail with one
* `Runner.fails_of_asks` — so does a failure of the kind that a step meets itself
* `Runner.assign_of_error`, `Runner.assignMember_of_error`, `Runner.writeBackTo_of_error` — which
  failures are lost
-/

namespace FormBasic

open Interp

/-! ### Kinds of failures -/

/-- A kind of failures that is kept on the way out of a call and by `Interp.foundOr`. -/
structure FailureKind where
  has : Failure → Bool
  leave : ∀ {f : Failure} (name : String), has f = true → has (f.leave name) = true
  renamed : ∀ {f : Failure} (c : Cause), has f = true → f.isMissing = true →
    has (.runtime c []) = true

namespace FailureKind

/-- All failures. -/
def any : FailureKind where
  has _ := true
  leave _ _ := rfl
  renamed _ _ _ := rfl

theorem isMissing_leave (f : Failure) (name : String) :
    (f.leave name).isMissing = f.isMissing := by
  cases f <;> rfl

/-- The failures that say something else than that a name could not be found. -/
def notMissing : FailureKind where
  has f := !f.isMissing
  leave name h := by rwa [isMissing_leave]
  renamed c h h' := by
    rw [h'] at h
    cases h

/-- The failures with an error text. -/
def withText (message : String) : FailureKind where
  has
    | .runtime (.custom text) _ => text == message
    | _ => false
  leave name h := by
    split at h
    · exact h
    · cases h
  renamed c h hmissing := by
    split at h
    · cases hmissing
    · cases h

theorem exists_of_withText {message : String} {f : Failure} (h : (withText message).has f = true) :
    ∃ stack, f = .runtime (.custom message) stack := by
  unfold withText at h
  dsimp only at h
  split at h
  · next text stack =>
    obtain rfl : text = message := by simpa using h
    exact ⟨stack, rfl⟩
  · cases h

end FailureKind

/-! ### The relation -/

section
variable {α β : Type}

/-- A run from a state fails with a failure of a kind. -/
def Interp.FailsAt (K : FailureKind) (x : Interp α) (s : State) : Prop :=
  ∃ f s', x s = .error (.failure f) s' ∧ K.has f = true

/-- One run fails with a failure of a kind, or it does the same as another one. -/
def Interp.FailsOr (K : FailureKind) (x y : Interp α) : Prop :=
  ∀ s, x.FailsAt K s ∨ x s = y s

namespace Interp.FailsOr

variable {K : FailureKind} {x y : Interp α}

theorem of_eq (h : x = y) : FailsOr K x y := fun s => .inr (congrFun h s)

theorem bind {k l : α → Interp β} (hx : FailsOr K x y) (hk : ∀ a, FailsOr K (k a) (l a)) :
    FailsOr K (x >>= k) (y >>= l) := by
  intro s
  rcases hx s with ⟨f, s', hf, hK⟩ | heq
  · exact .inl ⟨f, s', bind_of_error k hf, hK⟩
  · cases hr : x s with
    | ok a s' =>
      rw [FailsAt, bind_of_ok k hr, bind_of_ok l (heq.symm.trans hr)]
      exact hk a s'
    | error e s' =>
      rw [bind_of_error k hr, bind_of_error l (heq.symm.trans hr)]
      exact .inr rfl

/-- A failure of a kind that says nothing of missing names is not taken for an answer. -/
theorem found?_of_not_missing (hK : ∀ f, K.has f = true → f.isMissing = false)
    (h : FailsOr K x y) : FailsOr K (Interp.found? x) (Interp.found? y) := by
  intro s
  rcases h s with ⟨f, s', hf, hhas⟩ | heq
  · exact .inl ⟨f, s', found?_of_failure hf (hK f hhas), hhas⟩
  · exact .inr (by simp only [Interp.found?, heq])

/-- A missing name is taken for an answer, but no other failure is. -/
theorem found? (h : FailsOr .notMissing x y) :
    FailsOr .notMissing (Interp.found? x) (Interp.found? y) :=
  found?_of_not_missing (fun f hf => by simpa [FailureKind.notMissing] using hf) h

theorem foundOr (c : Cause) (h : FailsOr K x y) :
    FailsOr K (Interp.foundOr x c) (Interp.foundOr y c) := by
  intro s
  rcases h s with ⟨f, s', hf, hK⟩ | heq
  · left
    cases hmissing : f.isMissing with
    | false => exact ⟨f, s', bind_of_error _ (found?_of_failure hf hmissing), hK⟩
    | true =>
      refine ⟨.runtime c [], s', ?_, K.renamed c hK hmissing⟩
      exact bind_of_ok _ (found?_of_missing hf hmissing)
  · right
    have hfound : Interp.found? x s = Interp.found? y s := by simp only [Interp.found?, heq]
    simp only [Interp.foundOr, Bind.bind, EStateM.bind, hfound]

theorem inContext (d : Detour) (h : FailsOr K x y) :
    FailsOr K (Interp.inContext d x) (Interp.inContext d y) := by
  intro s
  rcases h { s with context := d.enter s.context } with ⟨f, s', hf, hK⟩ | heq
  · refine .inl ⟨f, { s' with context := d.leave s.context s'.context }, ?_, hK⟩
    simp only [Interp.inContext, hf]
  · exact .inr (by simp only [Interp.inContext, heq])

theorem inScope (h : FailsOr K x y) : FailsOr K (Interp.inScope x) (Interp.inScope y) := by
  intro s
  rcases h { s with scopes := s.scopes.push } with ⟨f, s', hf, hK⟩ | heq
  · refine .inl ⟨f, { s' with scopes := s'.scopes.pop }, ?_, hK⟩
    simp only [Interp.inScope, hf]
  · exact .inr (by simp only [Interp.inScope, heq])

theorem onLeave (name : String) (h : FailsOr K x y) :
    FailsOr K (Interp.onFailure (·.leave name) x) (Interp.onFailure (·.leave name) y) := by
  intro s
  rcases h s with ⟨f, s', hf, hK⟩ | heq
  · refine .inl ⟨f.leave name, s', ?_, K.leave name hK⟩
    simp only [Interp.onFailure, hf]
  · exact .inr (by simp only [Interp.onFailure, heq])

theorem inCall (c : Callable) (self : Option ObjectRef) (classContext : String)
    (h : FailsOr K x y) :
    FailsOr K (Interp.inCall c self classContext x) (Interp.inCall c self classContext y) := by
  intro s
  rw [FailsAt, inCall_apply, inCall_apply]
  split
  · exact .inr rfl
  · exact (h.onLeave c.name).inScope.inContext (c.detour self classContext) s

end Interp.FailsOr

end

/-- Failing with a failure of a kind, or else doing the same, is a relation that the machine
respects. -/
def failureRelation (K : FailureKind) : RunRelation where
  Rel := FailsOr K
  quiet _ := .of_eq rfl
  bind := FailsOr.bind
  read _ h := .bind (.of_eq rfl) fun s => h s trivial
  bindCurrent _ _ := .of_eq rfl
  bindGlobal _ _ := .of_eq rfl
  foundOr := FailsOr.foundOr
  entering _ h := h.inContext _
  inCall := FailsOr.inCall
  outOfFuel := .of_eq rfl

/-! ### Runs with a call that fails -/

namespace Runner

/-- Whether a request is for a call, and the call fails with a failure that a test accepts. -/
def callFails (test : Failure → Bool) : Test
  | .invoke _ _ _ _, _, .error (.failure f) _ => test f
  | _, _, _ => false

/-- A call that fails does so with a failure that the test accepts. -/
theorem exists_failure_of_callFails {test : Failure → Bool} {q : Request} {s : State}
    {r : q.Outcome} (h : callFails test q s r = true) :
    ∃ f s', r = .error (.failure f) s' ∧ test f = true := by
  unfold callFails at h
  split at h
  · next f s' => exact ⟨f, s', rfl, h⟩
  · cases h

/-- Whether a request takes no failures. -/
def meetsNoTry : Test := fun q _ _ => !q.isTry

/-- Whether a request takes neither failures nor missing names for an answer. -/
def takesNothing : Test := fun q _ _ => !q.isTry && !q.isForgiving

/-- If every request of a run passes a guard that lets only requests through which the relation
admits, and some call in it fails with a failure of the kind, then the run fails with one. Being
given up is of the kind. -/
theorem fails_of_meets {α : Type} (K : FailureKind) (guard : Request → Bool)
    (hguard : ∀ q, guard q = true → (failureRelation K).Admits q) {x : Runner → Interp α}
    (hx : ∀ {run run'}, Related (failureRelation K) run run' → FailsOr K (x run) (x run'))
    {fuel : Nat} {s : State} (hall : Always (fun q _ _ => guard q) fuel x s)
    (hsome : Meets (callFails K.has) fuel x s)
    (habandoned : K.has .abandoned = true := by rfl) : (x (withFuel fuel)).FailsAt K s := by
  refine Classical.byContradiction fun hnot => hsome fun alarm => ?_
  -- the guarded runner gives up where the guard fails; the other one goes its own way where a call
  -- fails, and there the guarded one fails as well
  have hrel : Related (failureRelation K)
      (watched (fun q _ _ => guard q) (fun _ => throw (.failure .abandoned)) fuel)
      (watched (fun q s r => !callFails K.has q s r) alarm fuel) := by
    refine related_watched (fun {run run'} hrun q s => ?_) fuel
    show FailsAt K (fun s => if guard q = true then run.step q s else _) s ∨
      (if guard q = true then run.step q s else _) = tested _ alarm q (run'.step q) s
    cases hq : guard q with
    | false => exact .inl ⟨.abandoned, s, rfl, habandoned⟩
    | true =>
      simp only [FailsAt, if_true]
      rcases hrun.step (hguard q hq) s with hfails | heq
      · exact .inl hfails
      · unfold tested
        split
        · exact .inr heq
        · next htest =>
          have hcall : callFails K.has q s (run'.step q s) = true := by simpa using htest
          obtain ⟨f, s', hf, hK⟩ := exists_failure_of_callFails hcall
          exact .inl ⟨f, s', heq.trans hf, hK⟩
  rcases hx hrel s with hfails | heq
  · rw [FailsAt, hall] at hfails
    exact absurd hfails hnot
  · rw [← heq, hall]

/-- If the step for a request makes a request itself that fails with a failure of the kind, then it
fails with one. -/
theorem fails_of_asks (K : FailureKind) {q : Request} (hq : (failureRelation K).Admits q)
    {test : Test} {fuel : Nat}
    (htest : ∀ q s, test q s ((withFuel fuel).answer q s) = true →
      ((withFuel fuel).answer q).FailsAt K s)
    {s : State} (hasks : Asks test fuel q s) : ((withFuel fuel).step q).FailsAt K s := by
  obtain ⟨alarm, hdiffers⟩ := hasks
  have hrel : Related (failureRelation K) (withFuel fuel)
      (overseen (fun q s r => !test q s r) alarm (withFuel fuel)) := by
    refine .ofAnswers fuel (f := (withFuel fuel).answer) fun q s => ?_
    cases hfails : test q s ((withFuel fuel).answer q s) with
    | true => exact .inl (htest q s hfails)
    | false =>
      have hpass : (!test q s ((withFuel fuel).answer q s)) = true := by rw [hfails]; rfl
      exact .inr (if_pos hpass).symm
  rcases hrel.step hq s with hfails | heq
  · exact hfails
  · exact absurd heq.symm hdiffers

/-! ### Where missing names are taken for an answer -/

variable {run : Runner} {s s' : State} {f : Failure}

/-- The fallback of an assignment runs after a failure that says that a name could not be found, and
after no other one. -/
theorem assignOr_of_error {name : String} {v : Value} (y : Interp Unit)
    (h : run.assignBound name v s = .error (.failure f) s') :
    run.assignOr name v y s = if f.isMissing then y s' else .error (.failure f) s' := by
  cases hf : f.isMissing with
  | true => exact bind_of_ok _ (found?_of_missing h hf)
  | false => exact bind_of_error _ (found?_of_failure h hf)

theorem assign_of_error {name : String} {v : Value}
    (h : run.assignBound name v s = .error (.failure f) s') :
    (∃ s'', run.assign name v s = .ok () s'') ↔ f.isMissing = true := by
  rw [assign, assignOr_of_error _ h]
  cases f.isMissing with
  | false => simp
  | true =>
    simp only [if_true, iff_true]
    rw [get_bind_apply]
    cases s'.context.self <;> exact ⟨_, rfl⟩

theorem writeBackTo_of_error {p : Parameter} {name : String} {v : Value}
    (hp : (p.byRef && !p.paramArray && v.isProper) = true)
    (h : run.assignBound name v s = .error (.failure f) s') :
    (∃ s'', run.writeBackTo p v (.variable name) s = .ok () s'') ↔ f.isMissing = true := by
  have hrun : run.writeBackTo p v (.variable name) = run.assignOr name v (return ()) := if_pos hp
  rw [hrun, assignOr_of_error _ h]
  cases f.isMissing with
  | false => simp
  | true => exact ⟨fun _ => rfl, fun _ => ⟨s', rfl⟩⟩

theorem assignMember_of_error {e : Expr} {member : String} {v : Value}
    (he : intrinsicOwner? s e = none) (h : run.owner e s = .error (.failure f) s') :
    (∃ s'', run.assignMember e member v s = .ok () s'') ↔ f.isMissing = true := by
  have hrun : run.assignMember e member v s =
      if f.isMissing then assignFlattened e.ownerText member v s'
      else .error (.failure f) s' := by
    rw [assignMember, get_bind_apply, he]
    cases hf : f.isMissing with
    | true => exact bind_of_ok _ (found?_of_missing h hf)
    | false => exact bind_of_error _ (found?_of_failure h hf)
  rw [hrun]
  cases f.isMissing with
  | false => simp
  | true => exact ⟨fun _ => rfl, fun _ => ⟨_, rfl⟩⟩

/-- A statement that ends a run of its own succeeds when the run does. -/
theorem done_of_eval {x : Interp Value} {k : Value → Interp Unit} {v : Value}
    (hx : x s = .ok v s') :
    (∃ signal s'', done (x >>= k) s = .ok signal s'') ↔ ∃ s'', k v s' = .ok () s'' := by
  have hrun : done (x >>= k) s = done (k v) s' := by
    simp only [done, Bind.bind, EStateM.bind, hx]
  rw [hrun]
  cases hr : k v s' with
  | ok _ s'' => exact ⟨fun _ => ⟨s'', rfl⟩, fun _ => ⟨.normal, s'', bind_of_ok _ hr⟩⟩
  | error e s'' =>
    have hd : done (k v) s' = .error e s'' := bind_of_error _ hr
    simp [hd]

/-! ### Statements -/

/-- In a run without `Try`, a call that fails makes the statement fail, unless the failure says that
a name could not be found; and that one does as well where nothing takes missing names for an
answer. An assignment, an assignment to a member and a write-back take exactly these failures of
their target, whatever code of the program they come from. -/
theorem failed_call_fails_statement (fuel : Nat) (s : State) :
    (∀ stmt, Always meetsNoTry fuel (·.exec stmt) s →
      Meets (callFails fun f => !f.isMissing) fuel (·.exec stmt) s →
      ∃ f s', (withFuel fuel).exec stmt s = .error (.failure f) s' ∧ f.isMissing = false) ∧
    (∀ stmt, Always takesNothing fuel (·.exec stmt) s →
      Meets (callFails fun _ => true) fuel (·.exec stmt) s →
      ∃ f s', (withFuel fuel).exec stmt s = .error (.failure f) s') ∧
    (∀ name e v s₁ f s₂, (withFuel fuel).eval e s = .ok v s₁ →
      (withFuel fuel).assignBound name v s₁ = .error (.failure f) s₂ →
      ((∃ signal s', (withFuel (fuel + 1)).exec (.assign name e) s = .ok signal s') ↔
        f.isMissing = true)) ∧
    (∀ o member e v s₁ f s₂, (withFuel fuel).eval e s = .ok v s₁ →
      intrinsicOwner? s₁ o = none → (withFuel fuel).owner o s₁ = .error (.failure f) s₂ →
      ((∃ signal s', (withFuel (fuel + 1)).exec (.memberAssign o member e) s = .ok signal s') ↔
        f.isMissing = true)) ∧
    (∀ p name v f s₂, (p.byRef && !p.paramArray && v.isProper) = true →
      (withFuel fuel).assignBound name v s = .error (.failure f) s₂ →
      ((∃ s', (withFuel fuel).writeBackTo p v (.variable name) s = .ok () s') ↔
        f.isMissing = true)) := by
  refine ⟨fun stmt hall hsome => ?_, fun stmt hall hsome => ?_, ?_, ?_, ?_⟩
  · obtain ⟨f, s', hf, hK⟩ := fails_of_meets .notMissing (fun q => !q.isTry)
      (fun q hq => ⟨fun _ _ _ => .of_eq rfl, fun _ => FailsOr.found?,
        fun htry => by simp [htry] at hq, fun _ _ _ => .of_eq rfl⟩)
      (fun h => h.exec stmt) hall hsome
    exact ⟨f, s', hf, by simpa [FailureKind.notMissing] using hK⟩
  · obtain ⟨f, s', hf, -⟩ := fails_of_meets .any (fun q => !q.isTry && !q.isForgiving)
      (fun q hq => ⟨fun _ _ _ => .of_eq rfl, fun hforgiving => by simp [hforgiving] at hq,
        fun htry => by simp [htry] at hq, fun _ _ _ => .of_eq rfl⟩)
      (fun h => h.exec stmt) hall hsome
    exact ⟨f, s', hf⟩
  · intro name e v s₁ f s₂ he hf
    exact (done_of_eval he).trans (assign_of_error hf)
  · intro o member e v s₁ f s₂ he ho hf
    exact (done_of_eval he).trans (assignMember_of_error ho hf)
  · intro p name v f s₂ hp hf
    exact writeBackTo_of_error hp hf

/-- In a method of an object with a property whose setter assigns to a name that stands for nothing;
with a procedure that does the same, and one that throws outside all `Catch` blocks. -/
def troubled : State where
  context := { self := some ⟨0, "c"⟩ }
  procedures := .ofList
    [("f", ⟨⟨"Sub", "f", [], "", [.throwValue none], [], false⟩, ""⟩),
      ("g", ⟨⟨"Sub", "g", [], "", [.setAssign "q" .nothing], [], false⟩, ""⟩)]
  classes := .ofList
    [("c", { name := "c", inherits := "", fields := [], methods := [], events := [],
             moduleName := "", isPartial := false
             properties := [⟨"p", "", [], none, none, some [.setAssign "q" .nothing], false⟩] })]

theorem failed_call_fails_statement_troubled :
    (∃ f s', (withFuel 4).exec (.call (.call "f" [])) troubled = .error (.failure f) s' ∧
      f.isMissing = false) ∧
    (∃ f s', (withFuel 4).exec (.call (.call "f" [])) troubled = .error (.failure f) s') ∧
    (∃ signal s', (withFuel 5).exec (.assign "p" (.integer 1)) troubled = .ok signal s') ∧
    (∃ signal s', (withFuel 5).exec (.memberAssign (.call "g" []) "m" (.integer 1)) troubled =
      .ok signal s') ∧
    (∃ s', (withFuel 4).writeBackTo { name := "a", byRef := true } (.integer 1) (.variable "p")
      troubled = .ok () s') := by
  obtain ⟨hfails, hstrict, hassign, hmember, hback⟩ := failed_call_fails_statement 4 troubled
  have hrun : (withFuel 4).exec (.call (.call "f" [])) troubled = .error (.failure (.runtime
      (.custom "Throw without an exception outside a Catch block") ["f"])) troubled := rfl
  refine ⟨hfails _ (fun _ => .trans ?_ hrun.symm) ?_,
    hstrict _ (fun _ => .trans ?_ hrun.symm) ?_, ?_, ?_, ?_⟩
  · rfl
  · intro hall
    cases hrun.symm.trans (hall fun _ => outOfFuel).symm
  · rfl
  · intro hall
    cases hrun.symm.trans (hall fun _ => outOfFuel).symm
  · exact (hassign _ _ (.integer 1) _ (.runtime (.undefinedVariable "q") ["p"]) _ rfl rfl).2 rfl
  · exact (hmember _ _ _ (.integer 1) _ (.runtime (.undefinedVariable "q") ["g"]) _
      rfl rfl rfl).2 rfl
  · exact (hback _ _ _ (.runtime (.undefinedVariable "q") ["p"]) _ rfl rfl).2 rfl

end Runner

end FormBasic
