import FormBasic.Machine.Console
import FormBasic.Proofs.Machine.Ends

/-!
# Runs inside and outside a session

A program that writes to the console need not know whether it runs in a console session. In a
session its texts are sent to the host, and outside they are queued as effects. Either way it goes
on with nothing in hand, so that the two runs should part in nothing else. What lets them part is
what the program asks: a line from the console, or a dialog with the user.

The two runs are put side by side here. They start from states that differ only in the session and
in the queue of effects, and as long as nothing is asked they end alike, in such states again. What
the states may differ in is fixed once, in `Tandem`, relative to the effects that were in the queue
when the session began.

This is a statement about one run in two states, and nearly everything that a run reads of the state
it reads without looking at the session or the queue. `Blind` says so of what is done with a state.

## Main definitions

* `Tandem` — the states of a program outside and in a session
* `Interp.Converses` — something is asked in one of two runs
* `Interp.Mirrored` — two runs from states in tandem end in tandem, unless something is asked

## Main results

* `Interp.Mirrored.bind` — runs in sequence
* `Interp.Tandems.of_get` — runs that read the state and are blind
-/

namespace FormBasic

/-! ### Messages and effects -/

/-- The effect that is queued outside a session where a message is sent in a session. -/
def ConsoleMessage.effect? : ConsoleMessage → Option Effect
  | .output text _ _ => some (.consoleOutput text)
  | .clear => some .consoleClear
  | _ => none

/-- Whether an effect is for the console. -/
def Effect.isConsole : Effect → Bool
  | .consoleOutput _ => true
  | .consoleClear => true
  | _ => false

/-- Whether an effect is a dialog with the user. -/
def Effect.isDialog : Effect → Bool
  | .messageBox _ => true
  | .inputBox _ => true
  | _ => false

/-- The program has asked the host of its session for a line. -/
def State.HasAsked (s : State) : Prop :=
  ∃ session, s.console = some session ∧ .inputRequest ∈ session.sent

/-- A host that never leaves. -/
def ConsoleHost.Stays (host : ConsoleHost) : Prop := ∀ sent, host.leaves sent = false

/-! ### States in tandem -/

/-- The states of a program outside a session and in a session with a host. What has been put into
the queue outside since there was only so much in it has been sent in the session if it is for the
console, and is in the queue there as well if it is not. -/
structure Tandem (host : ConsoleHost) (queue : List Effect) (t s : State) : Prop where
  outside : t.console = none
  alike : s = { t with console := s.console, effects := s.effects }
  told : ∃ added sent, t.effects.toList = queue ++ added ∧
    s.effects.toList = queue ++ added.filter (!·.isConsole) ∧
    s.console = some { host, sent } ∧
    sent.reverse.filterMap (·.effect?) = added.filter (·.isConsole)

namespace Tandem

variable {host : ConsoleHost} {queue : List Effect} {t s : State}

/-- At the beginning of a session. -/
theorem begin (ht : t.console = none) :
    Tandem host t.effects.toList t { t with console := some { host } } :=
  ⟨ht, rfl, [], [], by simp⟩

/-- A change that has nothing to do with the console. -/
theorem change (h : Tandem host queue t s) {t' s' : State}
    (hsame : s' = { t' with console := s.console, effects := s.effects })
    (hconsole : t'.console = t.console) (heffects : t'.effects = t.effects) :
    Tandem host queue t' s' := by
  obtain ⟨added, sent, htold⟩ := h.told
  subst hsame
  exact ⟨hconsole.trans h.outside, rfl, added, sent, heffects ▸ htold⟩

/-- An effect that is not for the console is queued on both sides. -/
theorem push (h : Tandem host queue t s) {e : Effect} (he : e.isConsole = false) :
    Tandem host queue { t with effects := t.effects.push e }
      { s with effects := s.effects.push e } := by
  obtain ⟨added, sent, ht, hs, hsession, htold⟩ := h.told
  refine ⟨h.outside, ?_, added ++ [e], sent, ?_, ?_, hsession, ?_⟩
  · rw [h.alike]
  · simp [ht]
  · simp [hs, he]
  · simp [htold, he]

/-- An effect for the console is queued on one side and sent on the other. -/
theorem tell (h : Tandem host queue t s) {session : ConsoleSession} {m : ConsoleMessage}
    {e : Effect} (hs : s.console = some session) (hm : m.effect? = some e)
    (he : e.isConsole = true) :
    Tandem host queue { t with effects := t.effects.push e }
      { s with console := some { session with sent := m :: session.sent } } := by
  obtain ⟨added, sent, ht, hqueue, hsession, htold⟩ := h.told
  cases hs.symm.trans hsession
  refine ⟨h.outside, ?_, added ++ [e], m :: sent, ?_, ?_, rfl, ?_⟩
  · rw [h.alike]
  · simp [ht]
  · simp [hqueue, he]
  · simp [htold, hm, he]

/-- What has been queued last has been queued since. -/
theorem mem_drop_push (h : Tandem host queue t s) (e : Effect) :
    e ∈ (t.effects.push e).toList.drop queue.length := by
  obtain ⟨added, -, ht, -, -, -⟩ := h.told
  simp [ht]

theorem exists_session (h : Tandem host queue t s) : ∃ sent, s.console = some { host, sent } := by
  obtain ⟨-, sent, -, -, hsession, -⟩ := h.told
  exact ⟨sent, hsession⟩

end Tandem

namespace Interp

variable {α β : Type}

/-! ### Runs in tandem -/

/-- Something is asked in the one run or the other. -/
def Converses (queue : List Effect) (x : Interp α) (t s : State) : Prop :=
  (∃ e ∈ (x.after t).effects.toList.drop queue.length, e.isDialog = true) ∨ (x.after s).HasAsked

/-- Two runs from states in tandem end alike and in tandem, unless something is asked. -/
def Tandems (x : Interp α) : Prop :=
  ∀ ⦃host queue t s⦄, host.Stays → Tandem host queue t s →
    x.Converses queue t s ∨ x.outcome s = x.outcome t ∧ Tandem host queue (x.after t) (x.after s)

/-- What has been queued stays in the queue, and what has been asked remains asked. -/
structure Grows (x : Interp α) : Prop where
  effects : ∀ s, s.effects.toList <+: (x.after s).effects.toList
  asked : ∀ s : State, s.HasAsked → (x.after s).HasAsked

/-- A change of the state that carries the session and the queue along, and leaves them as they
are. -/
def Carries (f : State → State) : Prop :=
  ∀ s console effects, f { s with console, effects } = { f s with console, effects }

theorem Carries.console {f : State → State} (h : Carries f) (s : State) :
    (f s).console = s.console :=
  (congrArg State.console (h s s.console s.effects) :)

theorem Carries.effects {f : State → State} (h : Carries f) (s : State) :
    (f s).effects = s.effects :=
  (congrArg State.effects (h s s.console s.effects) :)

/-- What is done with a state does not depend on the session and the queue. -/
def Blind (k : State → Interp α) : Prop :=
  ∀ s console effects, k { s with console, effects } = k s

theorem Grows.after_bind {k : α → Interp β} (hk : ∀ a, (k a).Grows) (x : Interp α) (s : State) :
    (x.after s).effects.toList <+: ((x >>= k).after s).effects.toList ∧
      ((x.after s).HasAsked → ((x >>= k).after s).HasAsked) := by
  cases hr : x s with
  | ok a s' =>
    rw [after_of_ok hr, after_bind_of_ok k hr]
    exact ⟨(hk a).effects s', (hk a).asked s'⟩
  | error e s' =>
    rw [after_of_error hr, after_of_error (bind_of_error k hr)]
    exact ⟨List.prefix_rfl, id⟩

theorem Grows.bind {x : Interp α} {k : α → Interp β} (hx : x.Grows) (hk : ∀ a, (k a).Grows) :
    (x >>= k).Grows where
  effects s := (hx.effects s).trans (after_bind hk x s).1
  asked s h := (after_bind hk x s).2 (hx.asked s h)

theorem Grows.of_carries {x : Interp α} {f : State → State} (hf : Carries f)
    (h : ∀ s, x.after s = f s) : x.Grows where
  effects s := by simp [h, hf.effects]
  asked s hs := by rwa [State.HasAsked, h, hf.console]

theorem Grows.within {x : Interp α} {y : Interp β} {enter : State → State}
    {leave : State → State → State} (hafter : ∀ s, y.after s = leave s (x.after (enter s)))
    (henter : Carries enter) (hleave : ∀ s, Carries (leave s)) (hx : x.Grows) : y.Grows where
  effects s := by
    rw [hafter, (hleave s).effects, ← henter.effects s]
    exact hx.effects (enter s)
  asked s hs := by
    rw [State.HasAsked, hafter, (hleave s).console]
    exact hx.asked (enter s) (by rwa [State.HasAsked, henter.console])

/-- What is asked in a run has been asked when the next one ends. -/
theorem Converses.bind {queue : List Effect} {x : Interp α} {k : α → Interp β} {t s : State}
    (hk : ∀ a, (k a).Grows) (h : x.Converses queue t s) : (x >>= k).Converses queue t s := by
  rcases h with ⟨e, he, hdialog⟩ | hasked
  · obtain ⟨rest, hrest⟩ := (Grows.after_bind hk x t).1
    rw [Converses, ← hrest, List.drop_append]
    exact .inl ⟨e, List.mem_append_left _ he, hdialog⟩
  · exact .inr ((Grows.after_bind hk x s).2 hasked)

namespace Tandems

variable {x : Interp α}

theorem bind {k : α → Interp β} (hx : x.Tandems) (hgrows : ∀ a, (k a).Grows)
    (hk : ∀ a, (k a).Tandems) : (x >>= k).Tandems := by
  intro host queue t s hstays h
  rcases hx hstays h with hasked | ⟨houtcome, hafter⟩
  · exact .inl (hasked.bind hgrows)
  · cases hr : x t with
    | ok a t' =>
      have hr' := outcome_eq_ok.1 (houtcome.trans (outcome_of_ok hr))
      rw [after_of_ok hr] at hafter
      have hrest := hk a hstays hafter
      unfold Converses outcome after at hrest ⊢
      rwa [bind_of_ok k hr, bind_of_ok k hr']
    | error e t' =>
      have hr' := outcome_eq_error.1 (houtcome.trans (outcome_of_error hr))
      rw [after_of_error hr] at hafter
      refine .inr ⟨?_, ?_⟩
      · rw [outcome_of_error (bind_of_error k hr), outcome_of_error (bind_of_error k hr')]
      · rwa [after_of_error (bind_of_error k hr), after_of_error (bind_of_error k hr')]

theorem pure (a : α) : (Pure.pure a : Interp α).Tandems := fun _ _ _ _ _ h => .inr ⟨rfl, h⟩

theorem throw (e : Halt) : (MonadExcept.throw e : Interp α).Tandems := fun _ _ _ _ _ h =>
  .inr ⟨rfl, h⟩

/-- The runs that read the state and are blind do the same. -/
theorem of_get {k : State → Interp α} (hk : ∀ s, (k s).Tandems) (hblind : Blind k) :
    (get >>= k).Tandems := by
  intro host queue t s hstays h
  have hsame : k s = k t := by
    rw [h.alike]
    exact hblind t _ _
  have hrest := hk t hstays h
  unfold Converses outcome after at hrest ⊢
  rwa [get_bind_apply, get_bind_apply, hsame]

/-- A change of the state that carries the session and the queue along leaves them as they are. -/
theorem modifyGet {f : State → α × State}
    (hblind : ∀ s console effects, f { s with console, effects } =
      ((f s).1, { (f s).2 with console, effects })) :
    (MonadStateOf.modifyGet f : Interp α).Tandems := by
  intro host queue t s hstays h
  have hrun := hblind t s.console s.effects
  rw [← h.alike] at hrun
  have hkept := congrArg Prod.snd (hblind t t.console t.effects)
  have hconsole : (f t).2.console = t.console := (congrArg State.console hkept :)
  have heffects : (f t).2.effects = t.effects := (congrArg State.effects hkept :)
  have hvalue : (f s).1 = (f t).1 := by rw [hrun]
  refine .inr ⟨?_, h.change (congrArg Prod.snd hrun) hconsole heffects⟩
  show (Except.ok (f s).1 : Except Halt α) = .ok (f t).1
  rw [hvalue]

theorem emit {e : Effect} (he : e.isConsole = false) : (Interp.emit e).Tandems :=
  fun _ _ _ _ _ h => .inr ⟨rfl, h.push he⟩

/-- A run within a run that changes the state before and afterwards, in what has nothing to do with
the console, and makes something of how it ends. -/
theorem within {y : Interp β} (enter : State → State) (leave : State → State → State)
    (f : Except Halt α → Except Halt β) (houtcome : ∀ s, y.outcome s = f (x.outcome (enter s)))
    (hafter : ∀ s, y.after s = leave s (x.after (enter s))) (henter : Carries enter)
    (hleave : ∀ s, Carries (leave s))
    (hblind : ∀ s console effects, leave { s with console, effects } = leave s)
    (hx : x.Tandems) : y.Tandems := by
  intro host queue t s hstays h
  have hbefore : Tandem host queue (enter t) (enter s) := by
    refine h.change ?_ (henter.console t) (henter.effects t)
    rw [← henter, ← h.alike]
  unfold Converses State.HasAsked
  rw [houtcome, houtcome, hafter, hafter, (hleave _).effects, (hleave _).console]
  refine (hx hstays hbefore).imp_right (.imp (congrArg f) fun hend => ?_)
  refine hend.change ?_ ((hleave t).console _) ((hleave t).effects _)
  rw [← hleave t, ← hblind t s.console s.effects, ← h.alike, ← hend.alike]

end Tandems

/-! ### Mirrored runs -/

/-- A run that goes alike in a session and outside, unless something is asked, and takes nothing
back of what it has queued and asked. -/
structure Mirrored (x : Interp α) : Prop where
  grows : x.Grows
  tandems : x.Tandems

namespace Mirrored

variable {x : Interp α}

theorem bind {k : α → Interp β} (hx : x.Mirrored) (hk : ∀ a, (k a).Mirrored) :
    (x >>= k).Mirrored where
  grows := hx.grows.bind fun a => (hk a).grows
  tandems := hx.tandems.bind (fun a => (hk a).grows) fun a => (hk a).tandems

theorem of_get {k : State → Interp α} (hblind : Blind k) (hk : ∀ s, (k s).Mirrored) :
    (get >>= k).Mirrored where
  grows := ⟨fun s => (hk s).grows.effects s, fun s => (hk s).grows.asked s⟩
  tandems := .of_get (fun s => (hk s).tandems) hblind

theorem throw (e : Halt) : (MonadExcept.throw e : Interp α).Mirrored where
  grows := ⟨fun _ => List.prefix_rfl, fun _ => id⟩
  tandems := .throw e

theorem modify {f : State → State} (h : Carries f) :
    (MonadStateOf.modifyGet fun s => (PUnit.unit, f s) : Interp PUnit).Mirrored where
  grows := .of_carries h fun _ => rfl
  tandems := .modifyGet fun s console effects => by rw [h]

theorem within {y : Interp β} (enter : State → State) (leave : State → State → State)
    (f : Except Halt α → Except Halt β) (houtcome : ∀ s, y.outcome s = f (x.outcome (enter s)))
    (hafter : ∀ s, y.after s = leave s (x.after (enter s))) (henter : Carries enter)
    (hleave : ∀ s, Carries (leave s))
    (hblind : ∀ s console effects, leave { s with console, effects } = leave s)
    (hx : x.Mirrored) : y.Mirrored where
  grows := hx.grows.within hafter henter hleave
  tandems := hx.tandems.within enter leave f houtcome hafter henter hleave hblind

/-- A run that makes something of how another one ends. -/
theorem of_outcome {y : Interp β} (f : Except Halt α → Except Halt β)
    (houtcome : ∀ s, y.outcome s = f (x.outcome s)) (hafter : ∀ s, y.after s = x.after s)
    (hx : x.Mirrored) : y.Mirrored :=
  hx.within id (fun _ => id) f houtcome hafter (fun _ _ _ => rfl) (fun _ _ _ _ => rfl)
    fun _ _ _ => rfl

theorem found? (hx : x.Mirrored) : (Interp.found? x).Mirrored := by
  -- what becomes of an outcome is what becomes of a run that ends with it at once
  refine hx.of_outcome (fun r => (Interp.found? (ofExcept r)).outcome {}) (fun s => ?_)
    (after_found? x)
  cases hr : x s with
  | ok a s' =>
    simp only [outcome, Interp.found?, hr]
    rfl
  | error e s' =>
    cases e with
    | outOfFuel =>
      simp only [outcome, Interp.found?, hr]
      rfl
    | failure f =>
      have hend : (ofExcept (.error (.failure f)) : Interp α) {} = .error (.failure f) {} := rfl
      rw [outcome_of_error hr]
      cases hf : f.isMissing with
      | true =>
        rw [outcome_of_ok (found?_of_missing hr hf), outcome_of_ok (found?_of_missing hend hf)]
      | false =>
        rw [outcome_of_error (found?_of_failure hr hf),
          outcome_of_error (found?_of_failure hend hf)]

theorem attempt (hx : x.Mirrored) : (Interp.attempt x).Mirrored := by
  refine hx.of_outcome (fun r => (Interp.attempt (ofExcept r)).outcome {}) (fun s => ?_)
    (after_attempt x)
  unfold outcome Interp.attempt
  cases x s with
  | ok a s' => rfl
  | error e s' => cases e <;> rfl

theorem onFailure (f : Failure → Failure) (hx : x.Mirrored) : (Interp.onFailure f x).Mirrored := by
  refine hx.of_outcome (fun r => (Interp.onFailure f (ofExcept r)).outcome {}) (fun s => ?_)
    (after_onFailure f x)
  unfold outcome Interp.onFailure
  cases x s with
  | ok a s' => rfl
  | error e s' => cases e <;> rfl

theorem inContext (d : Detour) (hx : x.Mirrored) : (Interp.inContext d x).Mirrored := by
  refine hx.within (fun s => { s with context := d.enter s.context })
    (fun s t => { t with context := d.leave s.context t.context }) id (fun s => ?_)
    (after_inContext d x) (fun _ _ _ => rfl) (fun _ _ _ _ => rfl) fun _ _ _ => rfl
  unfold outcome Interp.inContext
  cases x { s with context := d.enter s.context } <;> rfl

theorem inScope (hx : x.Mirrored) : (Interp.inScope x).Mirrored := by
  refine hx.within (fun s => { s with scopes := s.scopes.push })
    (fun _ t => { t with scopes := t.scopes.pop }) id (fun s => ?_) (after_inScope x)
    (fun _ _ _ => rfl) (fun _ _ _ _ => rfl) fun _ _ _ => rfl
  unfold outcome Interp.inScope
  cases x { s with scopes := s.scopes.push } <;> rfl

end Mirrored

end Interp

end FormBasic
