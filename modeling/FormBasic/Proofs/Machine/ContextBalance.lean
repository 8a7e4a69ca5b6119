import FormBasic.Proofs.Machine.Watch
import FormBasic.Proofs.Scope

/-!
# Every run gives the context back

A call, a `With` block, a `Catch` block, the fields of a new instance and the loading of a module
each change the context for a while, and a call opens a scope. What is put on a stack is popped, and
what is replaced is put back; nothing restores the context as a whole. So what a run leaves is the
context that it found and as many scopes, however it ends, with a value, a signal, a failure or
without fuel, because each of its parts does: `State.SameFrame.inContext` and
`State.SameFrame.inScope` are the steps of this induction.

From this follows how scopes and calls go together in a session. The state is *balanced* when there
is one scope for each active procedure besides the global one, and no more than `maxFrames`
procedures are active. A fresh state is balanced, a call that is let through opens one scope and
enters one procedure, and nothing else does either, so every statement starts in a balanced state.

## Main results

* `frameRelation` — the relation by which both are shown: two runs that do the same where a
  condition on the numbers of procedures and scopes holds, and give context and scopes back
* `sameFrame_after` — a run gives the context and the scopes back, however it ends
* `related_startsBalanced` — in a balanced state a test of balance makes no difference
-/

namespace FormBasic

open Interp

/-- A state that has the context of another one, and as many scopes. -/
structure State.SameFrame (s s' : State) : Prop where
  context : s'.context = s.context
  depth : s'.scopes.depth = s.scopes.depth

namespace State.SameFrame

variable {s t u : State}

theorem refl (s : State) : s.SameFrame s := ⟨rfl, rfl⟩

theorem trans (h : s.SameFrame t) (h' : t.SameFrame u) : s.SameFrame u :=
  ⟨h'.context.trans h.context, h'.depth.trans h.depth⟩

variable {α : Type} {x : Interp α}

/-- A detour gives the frame back if the run in between does: what a pop takes from a stack is then
what was put on it. -/
theorem inContext {d : Detour}
    (h : State.SameFrame { s with context := d.enter s.context }
      (x.after { s with context := d.enter s.context })) :
    s.SameFrame ((Interp.inContext d x).after s) := by
  rw [after_inContext, h.context, d.leave_enter]
  exact ⟨rfl, h.depth⟩

theorem inScope
    (h : State.SameFrame { s with scopes := s.scopes.push }
      (x.after { s with scopes := s.scopes.push })) :
    s.SameFrame ((Interp.inScope x).after s) := by
  rw [after_inScope]
  exact ⟨h.context, Scopes.depth_pop_of_depth_eq h.depth⟩

end State.SameFrame

/-! ### The relation -/

/-- A condition on the number of active procedures and the number of scopes that calls keep. -/
structure FrameCondition where
  Holds : Nat → Nat → Prop
  call : ∀ {frames depth : Nat}, frames < maxFrames → Holds frames depth →
    Holds (frames + 1) (depth + 1)

/-- Whether the condition holds in a state. -/
def FrameCondition.At (C : FrameCondition) (s : State) : Prop :=
  C.Holds s.context.frames.length s.scopes.depth

/-- Two runs agree where a condition holds, and the first gives the frame back. -/
def Interp.AgreeOn {α : Type} (C : FrameCondition) (x y : Interp α) : Prop :=
  ∀ s, C.At s → x s = y s ∧ s.SameFrame (x.after s)

namespace Interp.AgreeOn

variable {C : FrameCondition} {α β : Type} {x y : Interp α}

theorem of_sameFrame (h : ∀ s : State, s.SameFrame (x.after s)) : AgreeOn C x x :=
  fun s _ => ⟨rfl, h s⟩

theorem of_quietAt (h : ∀ s, x.QuietAt s) : AgreeOn C x x :=
  of_sameFrame fun s => ⟨(h s).1.context, congrArg Scopes.depth (h s).1.scopes⟩

theorem bind {k l : α → Interp β} (hx : AgreeOn C x y) (hk : ∀ a, AgreeOn C (k a) (l a)) :
    AgreeOn C (x >>= k) (y >>= l) := by
  intro s hs
  obtain ⟨heq, hsame⟩ := hx s hs
  cases hr : x s with
  | ok a s' =>
    rw [after_of_ok hr] at hsame
    have hs' : C.At s' := by rwa [FrameCondition.At, hsame.context, hsame.depth]
    obtain ⟨heq', hsame'⟩ := hk a s' hs'
    rw [after, bind_of_ok k hr, bind_of_ok l (heq.symm.trans hr)]
    exact ⟨heq', hsame.trans hsame'⟩
  | error e s' =>
    rw [after_of_error hr] at hsame
    rw [after, bind_of_error k hr, bind_of_error l (heq.symm.trans hr)]
    exact ⟨rfl, hsame⟩

theorem found? (h : AgreeOn C x y) : AgreeOn C (Interp.found? x) (Interp.found? y) := by
  intro s hs
  obtain ⟨heq, hsame⟩ := h s hs
  rw [after_found?]
  exact ⟨by simp only [Interp.found?, heq], hsame⟩

theorem attempt (h : AgreeOn C x y) : AgreeOn C (Interp.attempt x) (Interp.attempt y) := by
  intro s hs
  obtain ⟨heq, hsame⟩ := h s hs
  rw [after_attempt]
  exact ⟨by simp only [Interp.attempt, heq], hsame⟩

theorem onFailure (f : Failure → Failure) (h : AgreeOn C x y) :
    AgreeOn C (Interp.onFailure f x) (Interp.onFailure f y) := by
  intro s hs
  obtain ⟨heq, hsame⟩ := h s hs
  rw [after_onFailure]
  exact ⟨by simp only [Interp.onFailure, heq], hsame⟩

theorem inContext {d : Detour} (hd : d.KeepsFrames) (h : AgreeOn C x y) :
    AgreeOn C (Interp.inContext d x) (Interp.inContext d y) := by
  intro s hs
  have hs' : C.At { s with context := d.enter s.context } := by
    rwa [FrameCondition.At, hd.enter]
  obtain ⟨heq, hsame⟩ := h _ hs'
  exact ⟨by simp only [Interp.inContext, heq], hsame.inContext⟩

theorem inCall (c : Callable) (self : Option ObjectRef) (classContext : String)
    (h : AgreeOn C x y) :
    AgreeOn C (Interp.inCall c self classContext x) (Interp.inCall c self classContext y) := by
  intro s hs
  rw [after_inCall, inCall_apply, inCall_apply]
  split
  · exact ⟨rfl, .refl s⟩
  · next hframes =>
    -- the state in which the body of the callable starts
    have hbody := h.onFailure (·.leave c.name)
      { s with context := c.enter self classContext s.context, scopes := s.scopes.push }
      (C.call (Nat.lt_of_not_le hframes) hs)
    refine ⟨by simp only [Interp.inContext, Interp.inScope, Callable.detour, hbody.1], ?_⟩
    exact State.SameFrame.inContext (d := c.detour self classContext) hbody.2.inScope

theorem rebind (key : String) (v : Value) :
    AgreeOn C (Interp.rebind key v) (Interp.rebind key v) := by
  refine of_sameFrame fun s => ?_
  obtain h | ⟨scopes, hset, h⟩ := after_rebind key v s
  · rw [h]
    exact .refl s
  · rw [h]
    exact ⟨rfl, Scopes.depth_set hset⟩

end Interp.AgreeOn

/-- Agreement where a condition holds is a relation that the machine respects. -/
def frameRelation (C : FrameCondition) : SessionRelation where
  Rel := AgreeOn C
  quiet h := .of_quietAt h.quietAt
  bind := AgreeOn.bind
  read _ h := .bind (.of_quietAt quietAt_get) fun s => h s trivial
  bindCurrent _ _ := .of_sameFrame fun _ => ⟨rfl, Scopes.depth_updateCurrent _ _⟩
  bindGlobal _ _ := .of_sameFrame fun _ => ⟨rfl, rfl⟩
  foundOr _ h := h.found?.bind fun
    | some _ => .of_sameFrame .refl
    | none => .of_sameFrame .refl
  entering := AgreeOn.inContext
  inCall := AgreeOn.inCall
  outOfFuel := .of_sameFrame .refl
  administer h := .of_sameFrame fun s => ⟨(h s).1, congrArg Scopes.depth (h s).2⟩

theorem frameRelation_admits (C : FrameCondition) (q : Request) :
    (frameRelation C).Admits q where
  rebinds _ := AgreeOn.rebind
  forgives _ := AgreeOn.found?
  catches _ := AgreeOn.attempt
  rethrows _ {_} x := AgreeOn.of_quietAt (quietAt_resume x)

/-! ### Runs give the frame back -/

/-- The condition that always holds. -/
def FrameCondition.any : FrameCondition where
  Holds _ _ := True
  call _ _ := trivial

/-- A run that respects all relations gives the frame back. -/
theorem sameFrame_after {α : Type} {x : Interp α} (h : AgreeOn .any x x) (s : State) :
    s.SameFrame (x.after s) :=
  (h s trivial).2

/-- What every runner does gives the frame back. -/
theorem related_any (fuel : Nat) :
    Runner.Related (frameRelation .any).toRunRelation (.withFuel fuel) (.withFuel fuel) :=
  Runner.related_withFuel (frameRelation_admits .any) fuel

/-! ### Balance -/

/-- One scope for each active procedure besides the global one, and not too many procedures. -/
def FrameCondition.balanced : FrameCondition where
  Holds frames depth := depth = 1 + frames ∧ frames ≤ maxFrames
  call hframes h := ⟨by omega, hframes⟩

/-- A balanced state: one scope for each active procedure besides the global one, and not too many
procedures. -/
def State.Balanced (s : State) : Prop :=
  s.scopes.depth = 1 + s.context.frames.length ∧ s.context.frames.length ≤ maxFrames

instance (s : State) : Decidable s.Balanced := inferInstanceAs (Decidable (_ ∧ _))

/-- Whether a request for a statement is made in a balanced state. -/
def startsBalanced : Runner.Test
  | .exec _, s, _ => decide s.Balanced
  | _, _, _ => true

/-- Where a state is balanced, it makes no difference whether balance is tested. -/
theorem related_startsBalanced (alarm : Runner.Alarm) (fuel : Nat) :
    Runner.Related (frameRelation .balanced).toRunRelation (.watched startsBalanced alarm fuel)
      (.withFuel fuel) := by
  rw [← Runner.watched_true (fun _ => outOfFuel) fuel]
  refine Runner.related_watched (fun {run run'} hrel q s hs => ?_) fuel
  have htest : startsBalanced q s (run.step q s) = true := by
    cases q with
    | exec stmt => exact decide_eq_true hs
    | _ => rfl
  have hx : Runner.tested startsBalanced alarm q (run.step q) s = run.step q s := if_pos htest
  rw [Runner.after_tested, if_pos htest, hx]
  exact hrel.step (frameRelation_admits .balanced q) s hs

/-- Between two actions of a session nothing is running. -/
theorem Session.sameFrame_initial {s : State} (h : Session s) :
    s.context = {} ∧ s.scopes.depth = 1 := by
  induction h with
  | fresh config service files clock seed => exact ⟨rfl, rfl⟩
  | perform fuel action _ ih =>
    have hsame := sameFrame_after ((related_any fuel).perform AgreeOn.attempt action)
    exact ⟨(hsame _).context.trans ih.1, (hsame _).depth.trans ih.2⟩

theorem Session.balanced {s : State} (h : Session s) : s.Balanced := by
  obtain ⟨hcontext, hdepth⟩ := h.sameFrame_initial
  rw [State.Balanced, hcontext, hdepth]
  exact ⟨rfl, Nat.zero_le _⟩

/-- However a statement, an expression, a call, a call by name or an event ends, the context is the
one before and there are as many scopes. In a session, every statement starts in a balanced
state. -/
theorem run_gives_context_back :
    (∀ (fuel : Nat) (s : State),
      (∀ q : Request, s.SameFrame (((Runner.withFuel fuel).answer q).after s)) ∧
      (∀ name args, s.SameFrame (((Runner.withFuel fuel).callProcedure name args).after s)) ∧
      (∀ form control event args,
        s.SameFrame (((Runner.withFuel fuel).dispatch form control event args).after s))) ∧
    (∀ s : State, Session s → ∀ (fuel : Nat) (action : HostAction),
      Runner.Always startsBalanced fuel action.perform s) := by
  refine ⟨fun fuel s => ⟨fun q => ?_, fun name args => ?_, fun form control event args => ?_⟩, ?_⟩
  · exact sameFrame_after ((related_any fuel).answer q) s
  · exact sameFrame_after ((related_any fuel).callProcedure name args) s
  · exact sameFrame_after ((related_any fuel).dispatch form control event args) s
  · intro s hs fuel action alarm
    have hrel := (related_startsBalanced alarm fuel).perform AgreeOn.attempt action
    exact (hrel s hs.balanced).1

theorem run_gives_context_back_fresh :
    Session (State.initial {}) ∧
      Runner.Always startsBalanced 8
        (HostAction.call "main" []).perform (State.initial {}) := by
  have h : Session (State.initial {}) := .fresh {} none ∅ ⟨45658, 43200, 0⟩ 1
  exact ⟨h, run_gives_context_back.2 _ h 8 _⟩

end FormBasic
