import FormBasic.Proofs.Machine.Watch

/-!
# The queue of effects

A run only ever adds effects at the end of the queue; only the host takes them out, between two
runs. So what is in the queue at the end of a run begins with what was there before, and what has
been queued by the time some request of the run has been answered is still there at the end, in the
same order. In particular a failure takes no effect back.

## Main results

* `queueRelation` — two runs of which the second only adds effects, and which are the same if it
  adds none beyond a given list
* `queue_grows` — a run only adds effects at the end
* `Runner.always_queuesInto` — what a part of a run has queued is in the queue at the end
-/

namespace FormBasic

open Interp

section
variable {α β : Type} {final : List Effect} {x y : Interp α}

/-- The second of two runs only adds effects to the queue, and the first one is the same if what is
in the queue then begins a given list. -/
def Interp.QueuesAlike (final : List Effect) (x y : Interp α) : Prop :=
  ∀ s, s.effects.toList <+: (y.after s).effects.toList ∧
    ((y.after s).effects.toList <+: final → x s = y s)

namespace Interp.QueuesAlike

theorem of_grows (h : ∀ s, s.effects.toList <+: (x.after s).effects.toList) :
    QueuesAlike final x x := fun s => ⟨h s, fun _ => rfl⟩

theorem of_effects (h : ∀ s, (x.after s).effects = s.effects) : QueuesAlike final x x :=
  of_grows fun s => h s ▸ List.prefix_rfl

theorem bind {k l : α → Interp β} (hx : QueuesAlike final x y)
    (hk : ∀ a, QueuesAlike final (k a) (l a)) : QueuesAlike final (x >>= k) (y >>= l) := by
  intro s
  obtain ⟨hgrows, hsame⟩ := hx s
  cases hr : y s with
  | ok a s' =>
    obtain ⟨hgrows', hsame'⟩ := hk a s'
    rw [after_of_ok hr] at hgrows hsame
    rw [after, bind_of_ok l hr]
    refine ⟨hgrows.trans hgrows', fun hfinal => ?_⟩
    rw [bind_of_ok k ((hsame (hgrows'.trans hfinal)).trans hr)]
    exact hsame' hfinal
  | error e s' =>
    rw [after_of_error hr] at hgrows hsame
    rw [after, bind_of_error l hr]
    refine ⟨hgrows, fun hfinal => ?_⟩
    rw [bind_of_error k ((hsame hfinal).trans hr)]

theorem found? (h : QueuesAlike final x y) :
    QueuesAlike final (Interp.found? x) (Interp.found? y) := by
  intro s
  rw [after_found?]
  exact ⟨(h s).1, fun hfinal => by simp only [Interp.found?, (h s).2 hfinal]⟩

theorem attempt (h : QueuesAlike final x y) :
    QueuesAlike final (Interp.attempt x) (Interp.attempt y) := by
  intro s
  rw [after_attempt]
  exact ⟨(h s).1, fun hfinal => by simp only [Interp.attempt, (h s).2 hfinal]⟩

theorem inContext (d : Detour) (h : QueuesAlike final x y) :
    QueuesAlike final (Interp.inContext d x) (Interp.inContext d y) := by
  intro s
  obtain ⟨hgrows, hsame⟩ := h { s with context := d.enter s.context }
  rw [after_inContext]
  exact ⟨hgrows, fun hfinal => by simp only [Interp.inContext, hsame hfinal]⟩

theorem inCall (c : Callable) (self : Option ObjectRef) (classContext : String)
    (h : QueuesAlike final x y) :
    QueuesAlike final (Interp.inCall c self classContext x)
      (Interp.inCall c self classContext y) := by
  intro s
  rw [after_inCall, inCall_apply, inCall_apply]
  split
  · exact ⟨List.prefix_rfl, fun _ => rfl⟩
  · obtain ⟨hgrows, hsame⟩ := h
      { s with context := c.enter self classContext s.context, scopes := s.scopes.push }
    rw [after_inContext, after_inScope, after_onFailure]
    refine ⟨hgrows, fun hfinal => ?_⟩
    simp only [Interp.inContext, Interp.inScope, Interp.onFailure, Callable.detour, hsame hfinal]

theorem rebind (key : String) (v : Value) :
    QueuesAlike final (Interp.rebind key v) (Interp.rebind key v) := by
  refine of_effects fun s => ?_
  obtain h | ⟨scopes, -, h⟩ := after_rebind key v s <;> rw [h]

end Interp.QueuesAlike

end

/-- Adding effects only, and the same ones, is a relation that the machine respects. -/
def queueRelation (final : List Effect) : RunRelation where
  Rel := QueuesAlike final
  quiet h := .of_grows fun s => (h.quietAt s).1.effects
  bind := QueuesAlike.bind
  read _ h := .bind (.of_effects fun _ => rfl) fun s => h s trivial
  bindCurrent _ _ := .of_effects fun _ => rfl
  bindGlobal _ _ := .of_effects fun _ => rfl
  foundOr _ h := h.found?.bind fun
    | some _ => .of_effects fun _ => rfl
    | none => .of_effects fun _ => rfl
  entering _ h := h.inContext _
  inCall := QueuesAlike.inCall
  outOfFuel := .of_effects fun _ => rfl

theorem queueRelation_admits (final : List Effect) (q : Request) :
    (queueRelation final).Admits q where
  rebinds _ := QueuesAlike.rebind
  forgives _ := QueuesAlike.found?
  catches _ := QueuesAlike.attempt
  rethrows _ {_} x := QueuesAlike.of_grows fun s => (quietAt_resume x s).1.effects

theorem related_queue (final : List Effect) (fuel : Nat) :
    Runner.Related (queueRelation final) (.withFuel fuel) (.withFuel fuel) :=
  Runner.related_withFuel (queueRelation_admits final) fuel

/-- A run only adds effects at the end of the queue. -/
theorem queue_grows {α : Type} {x : Runner → Interp α}
    (hx : ∀ {run run'}, Runner.Related (queueRelation []) run run' →
      QueuesAlike [] (x run) (x run')) (fuel : Nat) (s : State) :
    s.effects.toList <+: ((x (.withFuel fuel)).after s).effects.toList :=
  (hx (related_queue [] fuel) s).1

namespace Runner

open Classical in
/-- Whether what is in the queue when a request has been answered begins a list. -/
noncomputable def queuesInto (final : List Effect) : Test
  | _, _, .ok _ s' => decide (s'.effects.toList <+: final)
  | _, _, .error _ s' => decide (s'.effects.toList <+: final)

open Classical in
theorem queuesInto_apply {final : List Effect} {q : Request} {s : State} {x : Interp q.Answer} :
    queuesInto final q s (x s) = true ↔ (x.after s).effects.toList <+: final := by
  unfold queuesInto after
  cases x s <;> exact decide_eq_true_iff

/-- A runner that is watched for effects beyond a list does the same as long as there are none. -/
theorem related_queuesInto (final : List Effect) (alarm : Alarm) (fuel : Nat) :
    Related (queueRelation final) (watched (queuesInto final) alarm fuel) (withFuel fuel) := by
  rw [← watched_true (fun _ => outOfFuel) fuel]
  refine related_watched (fun {run run'} hrel q s => ?_) fuel
  obtain ⟨hgrows, hsame⟩ := hrel.step (queueRelation_admits final q) s
  rw [after_tested, if_pos rfl]
  refine ⟨hgrows, fun hfinal => ?_⟩
  have heq := hsame hfinal
  have hpass : queuesInto final q s (run.step q s) = true := by
    rw [heq]
    exact queuesInto_apply.2 hfinal
  exact (if_pos hpass).trans heq

/-- What has been queued by the time a request of a run has been answered is in the queue at the
end. -/
theorem always_queuesInto {α : Type} {x : Runner → Interp α}
    (hx : ∀ {final run run'}, Related (queueRelation final) run run' →
      QueuesAlike final (x run) (x run')) (fuel : Nat) (s : State) :
    Always (queuesInto ((x (withFuel fuel)).after s).effects.toList) fuel x s := fun alarm =>
  (hx (related_queuesInto _ alarm fuel) s).2 List.prefix_rfl

end Runner

end FormBasic
