import FormBasic.Proofs.Machine.FailurePropagation

/-!
# How a `Try` ends

A `Try` has up to three parts that run one after the other: its body, at most one of its `Catch`
blocks, and its `Finally` block. Each of them may end normally, with a signal or with a failure, and
so may the filters by which the `Catch` block is chosen. `Runner.Guards` says by one rule for each
path how the `Try` comes to its `Finally` block: which `Catch` block has run, what is pending, and
in which state. The `Finally` block starts from there on every path, and `TryEnds` says what its end
makes of what is pending.

A failure that is pending is the end of the `Try` unless the `Finally` block fails itself. In
particular no signal replaces it, and a signal that would leave a block or a procedure around the
`Try` does not turn the failure into a success there: what executes a statement that fails, fails.

## Main definitions

* `Runner.Selects` — which `Catch` line is for an exception
* `Runner.Guards` — the body and the `Catch` lines
* `TryEnds` — the end of a `Try`
* `Runner.PartsEnd` — the parts that a `Try` starts come to an end

## Main results

* `Runner.concludes_tryCatch` — a `Try` ends as its parts say
* `Runner.exists_guards` — its parts say how, if they come to an end
* `Runner.fails_of_executes_failing` — a statement that fails makes the statement around it fail
-/

namespace FormBasic

open Interp

/-! ### Runs that come to an end -/

namespace Interp

variable {α : Type} {x : Interp α} {s s' : State}

/-- A run comes to an end in a state, with a value or with a failure. -/
def Concludes (x : Interp α) (s : State) (o : Except Failure α) (s' : State) : Prop :=
  attempt x s = .ok o s'

theorem concludes_ok {a : α} : x.Concludes s (.ok a) s' ↔ x s = .ok a s' := by
  unfold Concludes attempt
  cases x s with
  | ok b t => simp
  | error e t => cases e <;> simp

theorem concludes_error {f : Failure} :
    x.Concludes s (.error f) s' ↔ x s = .error (.failure f) s' := by
  unfold Concludes attempt
  cases x s with
  | ok b t => simp
  | error e t => cases e <;> simp

theorem exists_concludes (h : x.Ends s) : ∃ o s', x.Concludes s o s' := by
  cases hr : x s with
  | ok a s' => exact ⟨.ok a, s', concludes_ok.2 hr⟩
  | error e s' =>
    cases e with
    | failure f => exact ⟨.error f, s', concludes_error.2 hr⟩
    | outOfFuel => exact absurd hr (h s')

end Interp

/-! ### Choosing a `Catch` line -/

/-- Whether the type on a `Catch` line lets an exception through. -/
def State.admits (s : State) (c : CatchClause) (r : ObjectRef) : Bool :=
  c.typeName == "" || Text.equalFold c.typeName "Exception" ||
    s.classTable.isSubclass r.className c.typeName

/-- The state in which the filter of a `Catch` line is evaluated: its variable stands for the
exception. -/
def State.caught (s : State) (c : CatchClause) (r : ObjectRef) : State :=
  if c.name != "" then { s with scopes := s.scopes.define c.name (.object r) } else s

/-- What the `Catch` lines of a `Try` come to. -/
inductive CatchChoice where
  | clause (c : CatchClause)
  | none
  | failed (f : Failure)

namespace Runner

/-- The `Catch` lines are tried in order. The first one is chosen that lets the exception through by
its type and by its filter; a filter that fails ends the search. -/
inductive Selects (run : Runner) (r : ObjectRef) :
    List CatchClause → State → CatchChoice → State → Prop
  | exhausted {s : State} : Selects run r [] s .none s
  | otherType {c : CatchClause} {cs : List CatchClause} {s s' : State} {choice : CatchChoice}
    (htype : s.admits c r = false) (hrest : Selects run r cs s choice s') :
    Selects run r (c :: cs) s choice s'
  | refused {c : CatchClause} {cs : List CatchClause} {s s₁ s' : State} {choice : CatchChoice}
    (htype : s.admits c r = true)
    (hfilter : (run.passesFilter c).Concludes (s.caught c r) (.ok false) s₁)
    (hrest : Selects run r cs s₁ choice s') : Selects run r (c :: cs) s choice s'
  | failed {c : CatchClause} {cs : List CatchClause} {s s' : State} {f : Failure}
    (htype : s.admits c r = true)
    (hfilter : (run.passesFilter c).Concludes (s.caught c r) (.error f) s') :
    Selects run r (c :: cs) s (.failed f) s'
  | chosen {c : CatchClause} {cs : List CatchClause} {s s' : State}
    (htype : s.admits c r = true)
    (hfilter : (run.passesFilter c).Concludes (s.caught c r) (.ok true) s') :
    Selects run r (c :: cs) s (.clause c) s'

/-- The block of a `Catch` line, with the exception that it handles. -/
def handle (run : Runner) (r : ObjectRef) (c : CatchClause) : Interp Signal :=
  inContext (.handling r) (run.block c.body)

/-- What follows on a choice. -/
def follow (run : Runner) (f : Failure) (r : ObjectRef) : CatchChoice → Interp Signal
  | .clause c => run.handle r c
  | .none => resume (.error f)
  | .failed f' => resume (.error f')

variable {run : Runner} {r : ObjectRef} {s s' : State}

theorem catches_of_admits {c : CatchClause} (h : s.admits c r = true) :
    run.catches c r s = run.passesFilter c (s.caught c r) := by
  unfold catches State.caught
  unfold State.admits at h
  rw [get_bind_apply]
  simp only [h, if_true]
  split <;> rfl

theorem catches_of_not_admits {c : CatchClause} (h : s.admits c r = false) :
    run.catches c r s = .ok false s := by
  unfold catches
  unfold State.admits at h
  rw [get_bind_apply]
  simp only [h, Bool.false_eq_true, if_false]
  rfl

/-- The machine follows the choice. -/
theorem runCatch_of_selects {cs : List CatchClause} {choice : CatchChoice} (f : Failure)
    (h : Selects run r cs s choice s') : run.runCatch f r cs s = run.follow f r choice s' := by
  induction h with
  | exhausted => rfl
  | otherType htype _ ih => exact (bind_of_ok _ (catches_of_not_admits htype)).trans ih
  | refused htype hfilter _ ih =>
    exact (bind_of_ok _ ((catches_of_admits htype).trans (concludes_ok.1 hfilter))).trans ih
  | failed htype hfilter =>
    exact bind_of_error _ ((catches_of_admits htype).trans (concludes_error.1 hfilter))
  | chosen htype hfilter =>
    exact bind_of_ok _ ((catches_of_admits htype).trans (concludes_ok.1 hfilter))

theorem mem_of_selects {cs : List CatchClause} {c : CatchClause}
    (h : Selects run r cs s (.clause c) s') : c ∈ cs := by
  generalize hchoice : CatchChoice.clause c = choice at h
  induction h with
  | exhausted => cases hchoice
  | otherType _ _ ih => exact List.mem_cons_of_mem _ (ih hchoice)
  | refused _ _ _ ih => exact List.mem_cons_of_mem _ (ih hchoice)
  | failed => cases hchoice
  | chosen =>
    cases hchoice
    exact List.mem_cons_self

/-! ### The body and the `Catch` lines -/

/-- The body of a `Try` fails with a failure that may be caught, as an exception. Only a session
that is closed cannot be caught. -/
structure Throws (run : Runner) (body : List Stmt) (s : State) (f : Failure) (r : ObjectRef)
    (s' : State) : Prop where
  fails : ∃ s₁, (run.block body).Concludes s (.error f) s₁ ∧ exceptionFor f s₁ = .ok r s'
  catchable : f ≠ .abandoned

/-- How a `Try` comes to its `Finally` block: the `Catch` line whose block has run, what is pending,
and the state. -/
inductive Guards (run : Runner) (body : List Stmt) (cs : List CatchClause) (s : State) :
    Option CatchClause → Except Failure Signal → State → Prop
  /-- The body ends normally or with a signal. -/
  | completed {signal : Signal} {s' : State}
    (hbody : (run.block body).Concludes s (.ok signal) s') :
    Guards run body cs s none (.ok signal) s'
  /-- The session is closed. -/
  | deserted {s' : State} (hbody : (run.block body).Concludes s (.error .abandoned) s') :
    Guards run body cs s none (.error .abandoned) s'
  /-- The body fails, and no `Catch` line is for the failure. -/
  | uncaught {f : Failure} {r : ObjectRef} {s₁ s' : State} (hthrows : run.Throws body s f r s₁)
    (hselects : Selects run r cs s₁ .none s') : Guards run body cs s none (.error f) s'
  /-- The body fails, and so does the filter of a `Catch` line. -/
  | filterFails {f f' : Failure} {r : ObjectRef} {s₁ s' : State}
    (hthrows : run.Throws body s f r s₁) (hselects : Selects run r cs s₁ (.failed f') s') :
    Guards run body cs s none (.error f') s'
  /-- The body fails, and a `Catch` block runs. It ends in any way. -/
  | caught {f : Failure} {r : ObjectRef} {c : CatchClause} {s₁ s₂ s' : State}
    {o : Except Failure Signal} (hthrows : run.Throws body s f r s₁)
    (hselects : Selects run r cs s₁ (.clause c) s₂)
    (hhandler : (run.handle r c).Concludes s₂ o s') : Guards run body cs s (some c) o s'

variable {body : List Stmt} {cs : List CatchClause}

theorem guarded_of_throws {f : Failure} {s₁ : State} (h : run.Throws body s f r s₁) :
    run.guarded body cs s = run.runCatch f r cs s₁ := by
  obtain ⟨⟨t, hbody, hexception⟩, hopen⟩ := h
  refine (bind_of_ok _ hbody).trans ?_
  cases f with
  | abandoned => exact absurd rfl hopen
  | _ => exact bind_of_ok _ hexception

theorem concludes_guarded {handler : Option CatchClause} {o : Except Failure Signal}
    (h : Guards run body cs s handler o s') : (run.guarded body cs).Concludes s o s' := by
  cases h with
  | completed hbody => exact concludes_ok.2 (bind_of_ok _ hbody)
  | deserted hbody => exact concludes_error.2 (bind_of_ok _ hbody)
  | uncaught hthrows hselects =>
    exact concludes_error.2 ((guarded_of_throws hthrows).trans (runCatch_of_selects _ hselects))
  | filterFails hthrows hselects =>
    exact concludes_error.2 ((guarded_of_throws hthrows).trans (runCatch_of_selects _ hselects))
  | caught hthrows hselects hhandler =>
    have hrun := (guarded_of_throws hthrows).trans (runCatch_of_selects _ hselects)
    cases o with
    | ok signal => exact concludes_ok.2 (hrun.trans (concludes_ok.1 hhandler))
    | error f => exact concludes_error.2 (hrun.trans (concludes_error.1 hhandler))

/-! ### The end of a `Try` -/

end Runner

/-- Whether a signal lets a `Finally` block fall through. `Exit Try` does. -/
def Signal.isThrough (signal : Signal) : Prop := signal = .normal ∨ signal = .exit .tryBlock

/-- The end of a `Try`, from what is pending and the end of its `Finally` block. -/
inductive TryEnds : Except Failure Signal → Except Failure Signal → Except Failure Signal → Prop
  /-- The `Finally` block fails. -/
  | cleanupFails {pending : Except Failure Signal} {f : Failure} :
    TryEnds pending (.error f) (.error f)
  /-- A failure is pending, and stays so whatever signal the `Finally` block ends with. -/
  | fails {f : Failure} {signal : Signal} : TryEnds (.error f) (.ok signal) (.error f)
  /-- The `Finally` block ends with a signal of its own. -/
  | cleanupLeaves {signal final : Signal} (hfinal : ¬ final.isThrough) :
    TryEnds (.ok signal) (.ok final) (.ok final)
  /-- The body or the `Catch` block ends normally, or with `Exit Try`. -/
  | ends {signal final : Signal} (hfinal : final.isThrough) (hsignal : signal.isThrough) :
    TryEnds (.ok signal) (.ok final) (.ok .normal)
  /-- The body or the `Catch` block ends with another signal. -/
  | leaves {signal final : Signal} (hfinal : final.isThrough) (hsignal : ¬ signal.isThrough) :
    TryEnds (.ok signal) (.ok final) (.ok signal)

theorem Signal.leave_of_isThrough {signal : Signal} (h : signal.isThrough) :
    signal.leave .tryBlock = .normal := by
  obtain rfl | rfl := h <;> rfl

theorem Signal.leave_of_not_isThrough {signal : Signal} (h : ¬ signal.isThrough) :
    signal.leave .tryBlock = signal ∧ signal ≠ .normal := by
  refine ⟨?_, fun hnormal => h (.inl hnormal)⟩
  cases signal with
  | exit kind =>
    have hkind : kind ≠ .tryBlock := fun hkind => h (.inr (congrArg Signal.exit hkind))
    simp [Signal.leave, hkind]
  | _ => rfl

theorem exists_tryEnds (pending final : Except Failure Signal) :
    ∃ o, TryEnds pending final o := by
  rcases final with f | final
  · exact ⟨_, .cleanupFails⟩
  · rcases pending with f | signal
    · exact ⟨_, .fails⟩
    · by_cases hfinal : final.isThrough
      · by_cases hsignal : signal.isThrough
        · exact ⟨_, .ends hfinal hsignal⟩
        · exact ⟨_, .leaves hfinal hsignal⟩
      · exact ⟨_, .cleanupLeaves hfinal⟩

namespace Runner

variable {run : Runner} {r : ObjectRef} {s s' : State} {body : List Stmt} {cs : List CatchClause}

/-- The end of a `Try` once its `Finally` block has ended with a signal. -/
theorem concludes_afterCleanup {pending o : Except Failure Signal} {final : Signal}
    (h : TryEnds pending (.ok final) o) (s : State) :
    (afterCleanup pending final).Concludes s o s := by
  cases h with
  | fails => rfl
  | cleanupLeaves hfinal =>
    obtain ⟨hleave, hne⟩ := Signal.leave_of_not_isThrough hfinal
    refine concludes_ok.2 ((bind_of_ok _ (rfl : resume _ s = _)).trans ?_)
    rw [hleave]
    split
    · exact absurd rfl hne
    · rfl
  | ends hfinal hsignal =>
    refine concludes_ok.2 ((bind_of_ok _ (rfl : resume _ s = _)).trans ?_)
    rw [Signal.leave_of_isThrough hfinal, Signal.leave_of_isThrough hsignal]
    rfl
  | leaves hfinal hsignal =>
    refine concludes_ok.2 ((bind_of_ok _ (rfl : resume _ s = _)).trans ?_)
    rw [Signal.leave_of_isThrough hfinal, (Signal.leave_of_not_isThrough hsignal).1]
    rfl

/-- A `Try` ends as its parts say. -/
theorem concludes_tryCatch {cleanup : Option (List Stmt)} {handler : Option CatchClause}
    {pending final o : Except Failure Signal} {s₁ : State}
    (hguards : Guards run body cs s handler pending s₁)
    (hcleanup : (run.block (cleanup.getD [])).Concludes s₁ final s') (h : TryEnds pending final o) :
    (run.tryCatch body cs cleanup).Concludes s o s' := by
  have hrun : run.tryCatch body cs cleanup s =
      (run.block (cleanup.getD []) >>= afterCleanup pending) s₁ :=
    bind_of_ok _ (concludes_guarded hguards)
  rcases final with f | final
  · cases h
    exact concludes_error.2 (hrun.trans (bind_of_error _ (concludes_error.1 hcleanup)))
  · have hafter := concludes_afterCleanup h s'
    have hrun := hrun.trans (bind_of_ok _ (concludes_ok.1 hcleanup))
    cases o with
    | ok signal => exact concludes_ok.2 (hrun.trans (concludes_ok.1 hafter))
    | error f => exact concludes_error.2 (hrun.trans (concludes_error.1 hafter))

/-! ### Parts that come to an end -/

/-- The filters that are tried on an exception come to an end. -/
def FiltersEnd (run : Runner) (r : ObjectRef) : List CatchClause → State → Prop
  | [], _ => True
  | c :: cs, s =>
    if s.admits c r then
      (run.passesFilter c).Ends (s.caught c r) ∧
        ∀ s', (run.passesFilter c).Concludes (s.caught c r) (.ok false) s' → FiltersEnd run r cs s'
    else FiltersEnd run r cs s

/-- The parts of a `Try` come to an end, each from the state in which it is started. -/
structure PartsEnd (run : Runner) (body : List Stmt) (cs : List CatchClause)
    (cleanup : Option (List Stmt)) (s : State) : Prop where
  bodyEnds : (run.block body).Ends s
  filtersEnd : ∀ f r s₁, run.Throws body s f r s₁ → run.FiltersEnd r cs s₁
  handlerEnds : ∀ f r s₁ c s₂, run.Throws body s f r s₁ → Selects run r cs s₁ (.clause c) s₂ →
    (run.handle r c).Ends s₂
  cleanupEnds : ∀ handler pending s₁, Guards run body cs s handler pending s₁ →
    (run.block (cleanup.getD [])).Ends s₁

theorem exists_selects (h : run.FiltersEnd r cs s) : ∃ choice s', Selects run r cs s choice s' := by
  induction cs generalizing s with
  | nil => exact ⟨_, _, .exhausted⟩
  | cons c cs ih =>
    unfold FiltersEnd at h
    cases htype : s.admits c r with
    | false =>
      rw [htype, if_neg Bool.false_ne_true] at h
      obtain ⟨choice, s', hrest⟩ := ih h
      exact ⟨choice, s', .otherType htype hrest⟩
    | true =>
      rw [if_pos htype] at h
      obtain ⟨o, s₁, hfilter⟩ := exists_concludes h.1
      match o, hfilter with
      | .error f, hfilter => exact ⟨_, _, .failed htype hfilter⟩
      | .ok true, hfilter => exact ⟨_, _, .chosen htype hfilter⟩
      | .ok false, hfilter =>
        obtain ⟨choice, s', hrest⟩ := ih (h.2 s₁ hfilter)
        exact ⟨choice, s', .refused htype hfilter hrest⟩

theorem exists_exceptionFor (f : Failure) (s : State) : ∃ r s', exceptionFor f s = .ok r s' := by
  cases f <;> exact ⟨_, _, rfl⟩

/-- If its parts come to an end, a `Try` comes to its `Finally` block on one of the paths. -/
theorem exists_guards {cleanup : Option (List Stmt)} (h : run.PartsEnd body cs cleanup s) :
    ∃ handler pending s', Guards run body cs s handler pending s' := by
  obtain ⟨o, s₁, hbody⟩ := exists_concludes h.bodyEnds
  rcases o with f | signal
  · by_cases habandoned : f = .abandoned
    · exact ⟨_, _, _, .deserted (habandoned ▸ hbody)⟩
    · obtain ⟨r, s₂, hexception⟩ := exists_exceptionFor f s₁
      have hthrows : run.Throws body s f r s₂ := ⟨⟨s₁, hbody, hexception⟩, habandoned⟩
      obtain ⟨choice, s₃, hselects⟩ := exists_selects (h.filtersEnd f r s₂ hthrows)
      cases choice with
      | none => exact ⟨_, _, _, .uncaught hthrows hselects⟩
      | failed f' => exact ⟨_, _, _, .filterFails hthrows hselects⟩
      | clause c =>
        obtain ⟨o, s', hhandler⟩ := exists_concludes (h.handlerEnds f r s₂ c s₃ hthrows hselects)
        exact ⟨_, _, _, .caught hthrows hselects hhandler⟩
  · exact ⟨_, _, _, .completed hbody⟩

end Runner

/-! ### Around a `Try` -/

/-- All requests but those for statements. -/
def Domain.noStatements : Domain := { Domain.all with stmt := fun _ => False }

/-- Doing the same is a relation that the machine respects. -/
def sameRelation : RunRelation where
  Rel x y := x = y
  quiet _ := rfl
  bind hx hk := by rw [hx, funext hk]
  read _ h := by rw [funext fun s => h s trivial]
  bindCurrent _ _ := rfl
  bindGlobal _ _ := rfl
  foundOr _ h := by rw [h]
  entering _ h := by rw [h]
  inCall _ _ _ h := by rw [h]
  outOfFuel := rfl

namespace Runner

/-- Whether a request is for a statement, and the statement fails. -/
def executesFailing : Test
  | .exec _, _, .error (.failure _) _ => true
  | _, _, _ => false

theorem failsAt_of_executesFailing {q : Request} {s : State} {x : Interp q.Answer}
    (h : executesFailing q s (x s) = true) : x.FailsAt .any s := by
  unfold executesFailing at h
  split at h
  · next hrun => exact ⟨_, _, hrun, rfl⟩
  · cases h

section
variable {run run' : Runner}

/-- Two runners that may differ in how they execute statements. -/
structure SameButStatements (run run' : Runner) : Prop where
  fuel : run.fuel = run'.fuel
  eval : run.eval = run'.eval
  invoke : run.invoke = run'.invoke
  assignBound : run.assignBound = run'.assignBound

/-- They are the same for everything that executes no statement. -/
theorem SameButStatements.on (h : SameButStatements run run') :
    RelatedOn .noStatements sameRelation.toStepRelation run run' where
  eval _ := congrFun h.eval _
  exec := False.elim
  invoke self classContext args _ := by rw [h.invoke]; rfl
  assignBound name v := by rw [h.assignBound]; rfl
  declared _ _ := trivial
  fields _ _ _ _ _ _ := sameRelation.enters (Detour.keepsFrames_setting _ _)
    (sameRelation.setFields _ fun _ _ _ _ => congrFun h.eval _)

variable (h : SameButStatements run run')
  (hexec : ∀ s, FailsOr .any (run.exec s) (run'.exec s))
include h hexec

/-- If the statements fail or are the same, so is everything else that is not forgiving. -/
theorem SameButStatements.related : Related (failureRelation .any) run run' where
  fuel := h.fuel
  eval e := .of_eq (congrFun h.eval e)
  exec := hexec
  invoke c self classContext args := .of_eq (by rw [h.invoke])
  assignBound name v := .of_eq (by rw [h.assignBound])

/-- A statement that is no `Try` fails as well, or is the same. The failures that it takes for an
answer are those of assignments, which are the same for both runners. -/
theorem SameButStatements.execStep {s : Stmt} (htry : s.isTry = false) :
    FailsOr .any (run.execStep s) (run'.execStep s) := by
  have hfound : sameRelation.Forgives := fun hxy => congrArg Interp.found? hxy
  refine (h.related hexec).on.execStep (fun _ _ => trivial) (fun _ _ _ _ => trivial) {
    binds := fun name _ => (failureRelation .any).bindsCurrent name
    assign := fun name _ v => .of_eq (h.on.assign hfound (sameRelation.bindsCurrent name) v)
    assignOrDefine := fun name _ v =>
      .of_eq (h.on.assignOrDefine hfound (sameRelation.bindsCurrent name) v)
    assignMember := fun place _ v => .of_eq (h.on.assignMember hfound trivial (fun _ _ => trivial)
      place.2 v fun owner => sameRelation.defineMember owner _ _)
    renames := fun _ => (failureRelation .any).foundOr
    catches := fun hs => absurd (hs.symm.trans htry) Bool.true_eq_false.mp
    rethrows := fun hs => absurd (hs.symm.trans htry) Bool.true_eq_false.mp
    fuel := fun _ => h.fuel
    outOfFuel := fun _ => (failureRelation .any).outOfFuel }

end

/-- What executes a statement that fails, fails itself, unless it is a `Try`. -/
theorem fails_of_executes_failing {fuel : Nat} {q : Request} {s : State} (htry : q.isTry = false)
    (hasks : Asks executesFailing fuel q s) :
    ((withFuel (fuel + 1)).answer q).FailsAt .any s := by
  obtain ⟨alarm, hdiffers⟩ := hasks
  let run' := overseen (fun q s r => !executesFailing q s r) alarm (withFuel fuel)
  have hsame : SameButStatements (withFuel fuel) run' := ⟨rfl, rfl, rfl, rfl⟩
  have hexec : ∀ stmt, FailsOr .any ((withFuel fuel).exec stmt) (run'.exec stmt) := by
    intro stmt s
    cases hfails : executesFailing (.exec stmt) s ((withFuel fuel).exec stmt s) with
    | true => exact .inl (failsAt_of_executesFailing hfails)
    | false =>
      have hpass : (!executesFailing (.exec stmt) s ((withFuel fuel).exec stmt s)) = true := by
        rw [hfails]
        rfl
      exact .inr (if_pos hpass).symm
  have hstep : FailsOr .any ((withFuel fuel).step q) (run'.step q) := by
    cases q with
    | eval e =>
      exact .of_eq (hsame.on.evalStep (fun _ _ => trivial) (fun _ _ => trivial)
        (fun _ => sameRelation.foundOr) fun _ _ => fun hxy => congrArg Interp.found? hxy)
    | exec stmt => exact hsame.execStep hexec htry
    | invoke c self classContext args => exact (hsame.related hexec).invokeStep c self _ args
    | assign name v => exact .of_eq (hsame.on.assignStep (fun _ _ => rfl) name v)
  rcases hstep s with hfails | heq
  · cases q <;> exact hfails
  · exact absurd heq.symm hdiffers

/-! ### `Try` statements -/

/-- If its parts come to an end, a `Try` runs its body, at most one of its `Catch` blocks and then
its `Finally` block, and it ends as these parts say. A failure with which it ends makes everything
fail that executes the `Try`, up to the next `Try`. -/
theorem try_runs_finally (fuel : Nat) (body : List Stmt) (cs : List CatchClause)
    (cleanup : Option (List Stmt)) (s : State) :
    ((withFuel fuel).PartsEnd body cs cleanup s →
      ∃ handler pending s₁ final s' o, Guards (withFuel fuel) body cs s handler pending s₁ ∧
        ((withFuel fuel).block (cleanup.getD [])).Concludes s₁ final s' ∧ TryEnds pending final o ∧
        ((withFuel (fuel + 1)).exec (.tryCatch body cs cleanup)).Concludes s o s') ∧
    (∀ handler pending s₁ final s' o, Guards (withFuel fuel) body cs s handler pending s₁ →
      ((withFuel fuel).block (cleanup.getD [])).Concludes s₁ final s' → TryEnds pending final o →
      ((withFuel (fuel + 1)).exec (.tryCatch body cs cleanup)).Concludes s o s') ∧
    (∀ q t, q.isTry = false → Asks executesFailing fuel q t →
      ((withFuel (fuel + 1)).answer q).FailsAt .any t) := by
  refine ⟨fun hparts => ?_, fun handler pending s₁ final s' o hguards hcleanup hends => ?_,
    fun q t htry hasks => fails_of_executes_failing htry hasks⟩
  · obtain ⟨handler, pending, s₁, hguards⟩ := exists_guards hparts
    obtain ⟨final, s', hcleanup⟩ := exists_concludes (hparts.cleanupEnds _ _ _ hguards)
    obtain ⟨o, hends⟩ := exists_tryEnds pending final
    exact ⟨handler, pending, s₁, final, s', o, hguards, hcleanup, hends,
      concludes_tryCatch hguards hcleanup hends⟩
  · exact concludes_tryCatch hguards hcleanup hends

/-- `Catch` lines of which the first one refuses everything by its filter, and the second one throws
the exception again. -/
def rethrowing : List CatchClause :=
  [⟨"", "", some (.boolean false), []⟩, ⟨"e", "", none, [.throwValue none]⟩]

/-- A `Try` that throws the exception again, and whose `Finally` block returns. -/
def returningTry : Stmt := .tryCatch [.throwValue none] rethrowing (some [.returnValue none])

theorem filtersEnd_rethrowing (fuel : Nat) (r : ObjectRef) (s : State) :
    FiltersEnd (withFuel (fuel + 1)) r rethrowing s := by
  have hsecond : ∀ s,
      FiltersEnd (withFuel (fuel + 1)) r [⟨"e", "", none, [.throwValue none]⟩] s := by
    intro s
    unfold FiltersEnd
    split
    · exact ⟨ends_of_ok rfl, fun _ _ => trivial⟩
    · trivial
  unfold rethrowing FiltersEnd
  split
  · exact ⟨ends_of_ok rfl, fun s' _ => hsecond s'⟩
  · exact hsecond s

/-- It ends with the exception, and so does what is around it. -/
theorem try_runs_finally_returning :
    (∃ handler pending s₁ final s' o,
      Guards (withFuel 4) [.throwValue none] rethrowing {} handler pending s₁ ∧
      ((withFuel 4).block [.returnValue none]).Concludes s₁ final s' ∧
      TryEnds pending final o ∧ ((withFuel 5).exec returningTry).Concludes {} o s') ∧
    (∃ s', ((withFuel 5).exec returningTry).Concludes {} (.error (.thrown ⟨0, "Exception"⟩)) s') ∧
    ((withFuel 6).exec (.ifThen (.boolean true) [returningTry] [] none)).FailsAt .any {} := by
  obtain ⟨hexists, hends, -⟩ :=
    try_runs_finally 4 [.throwValue none] rethrowing (some [.returnValue none]) {}
  obtain ⟨-, -, haround⟩ := try_runs_finally 5 [] [] none {}
  refine ⟨hexists ⟨ends_of_failure rfl, fun f r s₁ _ => filtersEnd_rethrowing 3 r s₁,
    fun f r s₁ c s₂ _ hselects => ?_, fun _ _ s₁ _ => ends_of_ok rfl⟩,
    ⟨_, hends _ _ _ (.ok (.returned .absent)) _ _ (.caught ⟨⟨_, rfl, rfl⟩, nofun⟩
      (.refused rfl rfl (.chosen rfl rfl)) rfl) rfl .fails⟩, ?_⟩
  · have hc := mem_of_selects hselects
    simp only [rethrowing, List.mem_cons, List.not_mem_nil, or_false] at hc
    obtain rfl | rfl := hc
    · exact ends_of_ok rfl
    · exact ends_of_failure rfl
  · refine haround (.exec (.ifThen (.boolean true) [returningTry] [] none)) {} rfl
      ⟨fun _ => outOfFuel, fun h => ?_⟩
    cases h

end Runner

end FormBasic
