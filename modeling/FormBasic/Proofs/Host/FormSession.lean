import FormBasic.Host.Form
import FormBasic.Proofs.Machine.EffectQueue

/-!
# Sessions of the form host

The host of a form takes two kinds of input: the effects that the program queues, and the edits of
the user. Both change what is shown at once, and the edits also go to the program before the next
event. While it applies effects the host is observed, and the observer may call the host again: its
edits count like all others, but the events that it raises are refused.

The log of a session is the list of all effects and edits in the order in which they reach the host.
What the host shows is always what the log amounts to. The effects in the log are those that the
program queued, each of them once: a handler starts with an empty queue, only adds to it, and
whatever it has added by then is applied when it ends, also when it fails. The edits in the log are
those that have been pushed into the program, followed by those that are pending.

## Main definitions

* `HostEntry` — an entry of the log of a session
* `Hosted` — the hosts of a session, with its log and with the edits that have been pushed
* `FormHost.Accepted` — what an event that is not refused does

## Main results

* `FormHost.dispatch_of_busy` — an event during another one is refused and changes nothing
* `FormHost.accepted_dispatch` — any other event is accepted
-/

namespace FormBasic

open Interp

/-! ### The log -/

/-- What a host is told, by the program or by the user. -/
inductive HostEntry where
  | effect (e : Effect)
  | edit (e : Edit)

namespace HostEntry

/-- What an entry makes of a view. -/
def applyTo (v : FormView) : HostEntry → FormView
  | .effect e => v.apply e
  | .edit e => v.setProperty e.control e.property e.value

/-- The edit in an entry. -/
def edit? : HostEntry → Option Edit
  | .effect _ => none
  | .edit e => some e

end HostEntry

/-! ### What an observer does -/

/-- A call of the host. -/
inductive HostCall where
  | edit (e : Edit)
  | dispatch (control event : String) (args : List Value)
  | start

namespace HostCall

/-- Make a call from inside an observer; the error of an event, and the host. -/
def attempt (run : Runner) (h : FormHost) : HostCall → Option DispatchError × FormHost
  | .edit e => (none, h.edit e.control e.property e.value)
  | .dispatch control event args =>
    let (d, h) := h.dispatch run (fun _ h => ((), h)) control event args
    (d.error, h)
  | .start =>
    let (d, h) := h.start run fun _ h => ((), h)
    (d.error, h)

/-- Make calls in order; each of them with its error. -/
def attemptAll (run : Runner) (h : FormHost) :
    List HostCall → List (HostCall × Option DispatchError) × FormHost
  | [] => ([], h)
  | c :: cs =>
    let (error, h) := c.attempt run h
    let (rest, h) := attemptAll run h cs
    ((c, error) :: rest, h)

/-- How a call fails while an event is being dispatched. -/
def refusal : HostCall → Option DispatchError
  | .edit _ => none
  | .dispatch _ _ _ => some .reentrant
  | .start => some .reentrant

/-- The edit that a call makes. -/
def edit? : HostCall → Option Edit
  | .edit e => some e
  | _ => none

end HostCall

/-- What an observer saw and did. -/
structure Observation where
  effect : Effect
  calls : List (HostCall × Option DispatchError)

/-- What reaches the host with an observation: the effect, and then the edits of the observer. -/
def Observation.entries (o : Observation) : List HostEntry :=
  .effect o.effect :: o.calls.filterMap fun c => c.1.edit?.map .edit

/-- The observer that makes the calls of a plan. -/
def observer (run : Runner) (plan : Effect → FormHost → List HostCall) (e : Effect)
    (h : FormHost) : Observation × FormHost :=
  let (calls, h) := HostCall.attemptAll run h (plan e h)
  (⟨e, calls⟩, h)

namespace FormHost

variable {h : FormHost} {run : Runner}

/-! ### Refused events -/

theorem dispatch_of_busy {α : Type} (hbusy : h.busy = true)
    (observe : Effect → FormHost → α × FormHost) (control event : String) (args : List Value) :
    h.dispatch run observe control event args =
      ({ handled := false, error := some .reentrant }, h) :=
  if_pos hbusy

/-- A host that has noted edits. -/
def noteAll (h : FormHost) (es : List Edit) : FormHost :=
  es.foldl (fun h e => h.edit e.control e.property e.value) h

theorem attempt_of_busy (hbusy : h.busy = true) (c : HostCall) :
    c.attempt run h = (c.refusal, h.noteAll c.edit?.toList) := by
  cases c with
  | edit e => rfl
  | dispatch control event args =>
    rw [HostCall.attempt, dispatch_of_busy hbusy]
    rfl
  | start =>
    rw [HostCall.attempt, start, dispatch_of_busy hbusy]
    rfl

theorem noteAll_cons (h : FormHost) (e : Edit) (es : List Edit) :
    h.noteAll (e :: es) = (h.edit e.control e.property e.value).noteAll es := rfl

@[simp] theorem busy_noteAll (h : FormHost) (es : List Edit) : (h.noteAll es).busy = h.busy := by
  induction es generalizing h with
  | nil => rfl
  | cons e es ih => exact ih _

@[simp] theorem program_noteAll (h : FormHost) (es : List Edit) :
    (h.noteAll es).program = h.program := by
  induction es generalizing h with
  | nil => rfl
  | cons e es ih => exact ih _

@[simp] theorem pending_noteAll (h : FormHost) (es : List Edit) :
    (h.noteAll es).pending = h.pending ++ es := by
  induction es generalizing h with
  | nil => exact (List.append_nil _).symm
  | cons e es ih =>
    rw [noteAll_cons, ih, edit]
    exact List.append_assoc _ [e] es

@[simp] theorem view_noteAll (h : FormHost) (es : List Edit) :
    (h.noteAll es).view = (es.map .edit).foldl HostEntry.applyTo h.view := by
  induction es generalizing h with
  | nil => rfl
  | cons e es ih => exact ih _

/-- While an event is being dispatched, an observer can only make edits. -/
theorem attemptAll_of_busy (hbusy : h.busy = true) (cs : List HostCall) :
    HostCall.attemptAll run h cs =
      (cs.map fun c => (c, c.refusal), h.noteAll (cs.filterMap HostCall.edit?)) := by
  induction cs generalizing h with
  | nil => rfl
  | cons c cs ih =>
    have hnoted : (h.noteAll c.edit?.toList).busy = true := by rwa [busy_noteAll]
    simp only [HostCall.attemptAll, attempt_of_busy hbusy, ih hnoted, List.map_cons,
      List.filterMap_cons]
    cases c.edit? <;> rfl

/-! ### Applying effects -/

/-- What applying effects does to a host: they are observed in order, the events that the observer
raises are refused, and its edits are noted. -/
structure Applies (h : FormHost) (es : List Effect) (os : List Observation) (h' : FormHost) :
    Prop where
  effects : os.map (·.effect) = es
  refused : ∀ o ∈ os, ∀ c ∈ o.calls, c.2 = c.1.refusal
  view : h'.view = (os.flatMap Observation.entries).foldl HostEntry.applyTo h.view
  pending : h'.pending = h.pending ++ (os.flatMap Observation.entries).filterMap HostEntry.edit?
  program : h'.program = h.program
  busy : h'.busy = h.busy

theorem filterMap_edit?_calls (cs : List HostCall) :
    ((cs.map fun c => (c, c.refusal)).filterMap fun c => c.1.edit?.map HostEntry.edit) =
      (cs.filterMap HostCall.edit?).map .edit := by
  rw [List.filterMap_map, List.map_filterMap]
  rfl

theorem filterMap_edit?_map_edit (es : List Edit) :
    (es.map HostEntry.edit).filterMap HostEntry.edit? = es := by
  rw [List.filterMap_map]
  exact List.filterMap_some

theorem applies_applyAll (hbusy : h.busy = true) (plan : Effect → FormHost → List HostCall)
    (es : List Effect) :
    h.Applies es (applyAll (observer run plan) es h).1 (applyAll (observer run plan) es h).2 := by
  induction es generalizing h with
  | nil => exact ⟨rfl, nofun, rfl, (List.append_nil _).symm, rfl, rfl⟩
  | cons e es ih =>
    -- the host after the effect, and after the edits that the observer makes then
    let shown : FormHost := { h with view := h.view.apply e }
    let calls := plan e shown
    have hobserve : observer run plan e shown =
        (⟨e, calls.map fun c => (c, c.refusal)⟩,
          shown.noteAll (calls.filterMap HostCall.edit?)) := by
      rw [observer, attemptAll_of_busy (show shown.busy = true from hbusy)]
    have hrest := ih (h := shown.noteAll (calls.filterMap HostCall.edit?)) (by simpa using hbusy)
    simp only [applyAll]
    rw [hobserve]
    refine ⟨?_, ?_, ?_, ?_, ?_, ?_⟩
    · exact congrArg (e :: ·) hrest.effects
    · intro o ho
      rcases List.mem_cons.1 ho with rfl | ho
      · intro c hc
        obtain ⟨call, -, rfl⟩ := List.mem_map.1 hc
        rfl
      · exact hrest.refused o ho
    · rw [hrest.view, view_noteAll, List.flatMap_cons, List.foldl_append, Observation.entries,
        filterMap_edit?_calls]
      rfl
    · rw [hrest.pending, pending_noteAll, List.flatMap_cons, List.filterMap_append,
        Observation.entries, filterMap_edit?_calls, List.filterMap_cons, filterMap_edit?_map_edit,
        List.append_assoc]
      rfl
    · exact hrest.program.trans (program_noteAll _ _)
    · exact hrest.busy.trans (busy_noteAll _ _)

/-! ### Pushing edits -/

/-- What an edit does depends on what the host shows, not on what waits. -/
theorem push_with (h : FormHost) (pending : List Edit) (busy : Bool) (e : Edit) :
    push { h with pending, busy } e = { h.push e with pending, busy } := by
  simp only [push, objectPath]

theorem foldl_push_with (es : List Edit) (h : FormHost) (pending : List Edit) (busy : Bool) :
    es.foldl push { h with pending, busy } = { es.foldl push h with pending, busy } := by
  induction es generalizing h with
  | nil => rfl
  | cons e es ih => rw [List.foldl_cons, push_with, ih, List.foldl_cons]

theorem view_foldl_push (es : List Edit) (h : FormHost) : (es.foldl push h).view = h.view := by
  induction es generalizing h with
  | nil => rfl
  | cons e es ih => rw [List.foldl_cons, ih, push]

/-- A host that has pushed its edits has none pending, and its program has seen them in order. -/
theorem sync_eq (h : FormHost) (busy : Bool) :
    sync { h with busy } =
      { h with program := (h.pending.foldl push h).program, pending := [], busy } := by
  have hpush := foldl_push_with h.pending h [] busy
  dsimp only at hpush
  rwa [view_foldl_push] at hpush

/-- Pushing edits queues no effects. -/
theorem effects_foldl_push (es : List Edit) (h : FormHost) :
    (es.foldl push h).program.effects = h.program.effects := by
  induction es generalizing h with
  | nil => rfl
  | cons e es ih =>
    rw [List.foldl_cons, ih]
    simp only [push, State.setProperty]
    split <;> rfl

/-! ### Accepted events -/

/-- What an event that is accepted does, if its handler leaves the program in a state: all that the
handler has queued is applied, no edit is pending but those of the observer, and the host accepts
the next event. -/
structure Accepted (h : FormHost) (program : State) (r : Dispatched Observation × FormHost) :
    Prop where
  error : r.1.error ≠ some .reentrant
  effects : r.1.observed.map (·.effect) = program.effects.toList
  refused : ∀ o ∈ r.1.observed, ∀ c ∈ o.calls, c.2 = c.1.refusal
  view : r.2.view = (r.1.observed.flatMap Observation.entries).foldl HostEntry.applyTo h.view
  pending : r.2.pending = (r.1.observed.flatMap Observation.entries).filterMap HostEntry.edit?
  program : r.2.program = { program with effects := #[] }
  busy : r.2.busy = false

theorem accepted_dispatch (hidle : h.busy = false) (plan : Effect → FormHost → List HostCall)
    (control event : String) (args : List Value) :
    h.Accepted ((run.dispatch h.view.form control event args).after
        (h.pending.foldl push h).program)
      (h.dispatch run (observer run plan) control event args) := by
  let x := run.dispatch h.view.form control event args
  let pushed := (h.pending.foldl push h).program
  -- the host that applies the effects: it is busy, and its edits have been pushed
  let applying : FormHost :=
    { h with program := { x.after pushed with effects := #[] }, pending := [], busy := true }
  have happlies : applying.Applies (x.after pushed).effects.toList
      (applyAll (observer run plan) (x.after pushed).effects.toList applying).1
      (applyAll (observer run plan) (x.after pushed).effects.toList applying).2 :=
    applies_applyAll rfl plan _
  have hsync : ({ h with busy := true } : FormHost).sync =
      { h with program := pushed, pending := [], busy := true } := by
    rw [sync_eq]
  have hrun : ∃ handled error, error ≠ some .reentrant ∧
      h.dispatch run (observer run plan) control event args =
        let (observed, h) := applyAll (observer run plan) (x.after pushed).effects.toList applying
        (({ handled, error, observed } : Dispatched Observation), { h with busy := false }) := by
    rw [dispatch, if_neg (by simp [hidle]), hsync]
    cases hx : x pushed with
    | ok handled program =>
      refine ⟨handled, none, nofun, ?_⟩
      simp only [applying, after_of_ok hx]
      simp only [x] at hx
      rw [hx]
    | error e program =>
      refine ⟨true, some (.halted e), nofun, ?_⟩
      simp only [applying, after_of_error hx]
      simp only [x] at hx
      rw [hx]
  obtain ⟨handled, error, herror, hdispatch⟩ := hrun
  rw [hdispatch]
  exact ⟨herror, happlies.effects, happlies.refused, happlies.view,
    happlies.pending.trans (List.nil_append _), happlies.program, rfl⟩

end FormHost

/-! ### Sessions -/

/-- The hosts of the sessions with a form and a program, with the log of the session and the edits
that have been pushed into the program. An accepted event logs what its observer saw and did, and
pushes the edits that were pending. Starting the form is one of the events. -/
inductive Hosted (form : String) (program : State) :
    List HostEntry → List Edit → FormHost → Prop
  | create (fuel : Nat) {h : FormHost}
    (hcreate : FormHost.create (.withFuel fuel) form program = .ok h) :
    Hosted form program ((((Runner.withFuel fuel).defaultInstance form).after
      program).effects.toList.map .effect) [] h
  | edit (e : Edit) {log : List HostEntry} {pushed : List Edit} {h : FormHost}
    (hh : Hosted form program log pushed h) :
    Hosted form program (log ++ [.edit e]) pushed (h.edit e.control e.property e.value)
  | dispatch (fuel : Nat) (plan : Effect → FormHost → List HostCall) (control event : String)
    (args : List Value) {log : List HostEntry} {pushed : List Edit} {h : FormHost}
    (hh : Hosted form program log pushed h) :
    Hosted form program
      (log ++ (h.dispatch (.withFuel fuel) (observer (.withFuel fuel) plan) control event
        args).1.observed.flatMap Observation.entries)
      (pushed ++ h.pending)
      (h.dispatch (.withFuel fuel) (observer (.withFuel fuel) plan) control event args).2

namespace Hosted

variable {form : String} {program : State} {log : List HostEntry} {pushed : List Edit}
  {h : FormHost}

/-- Between two calls no event is being dispatched. -/
theorem busy_eq_false (hh : Hosted form program log pushed h) : h.busy = false := by
  induction hh with
  | create fuel hcreate =>
    unfold FormHost.create at hcreate
    split at hcreate <;> cases hcreate
    rfl
  | edit e _ ih => exact ih
  | dispatch fuel plan control event args _ ih => exact (FormHost.accepted_dispatch ih ..).busy

/-- Between two calls the program has no effects that have not been applied. -/
theorem effects_eq_empty (hh : Hosted form program log pushed h) : h.program.effects = #[] := by
  induction hh with
  | create fuel hcreate =>
    unfold FormHost.create at hcreate
    split at hcreate <;> cases hcreate
    rfl
  | edit e _ ih => exact ih
  | dispatch fuel plan control event args hh _ =>
    rw [(FormHost.accepted_dispatch hh.busy_eq_false ..).program]

/-- The host shows what the log amounts to. -/
theorem view_eq (hh : Hosted form program log pushed h) :
    h.view = log.foldl HostEntry.applyTo { form } := by
  induction hh with
  | create fuel hcreate =>
    unfold FormHost.create at hcreate
    split at hcreate <;> cases hcreate
    next r program' hrun =>
    rw [after_of_ok hrun, List.foldl_map]
    exact (Array.foldl_toList _).symm
  | edit e _ ih => rw [List.foldl_append, ← ih]; rfl
  | dispatch fuel plan control event args hh ih =>
    rw [List.foldl_append, ← ih]
    exact (FormHost.accepted_dispatch hh.busy_eq_false ..).view

/-- The edits in the log are those that have been pushed, followed by those that are pending. -/
theorem edits_eq (hh : Hosted form program log pushed h) :
    log.filterMap HostEntry.edit? = pushed ++ h.pending := by
  induction hh with
  | create fuel hcreate =>
    unfold FormHost.create at hcreate
    split at hcreate <;> cases hcreate
    rw [List.filterMap_map]
    exact List.filterMap_eq_nil_iff.2 fun _ _ => rfl
  | edit e _ ih =>
    rw [List.filterMap_append, ih, FormHost.edit, List.append_assoc]
    rfl
  | dispatch fuel plan control event args hh ih =>
    rw [List.filterMap_append, ih, (FormHost.accepted_dispatch hh.busy_eq_false ..).pending]

end Hosted

/-- A program whose handler of a click shows something and then fails. -/
def failingClick : State where
  scopes := { globals := .ofList [("l", ⟨.text "l", false⟩)] }
  procedures := .ofList [("b_click", ⟨⟨"Sub", "b_click", [], "",
    [.memberAssign (.variable "l") "m" (.boolean true), .throwValue none], [], false⟩, ""⟩)]

/-- The host of the form `f` of the program. -/
def createdHost : FormHost where
  program := ((Runner.withFuel 3).defaultInstance "f").after failingClick
  view := { form := "f" }

/-- The host after an edit. -/
def editedHost : FormHost := createdHost.edit "t" "text" .nothing

/-- A click on the edited form; its observer tries to start the form anew. -/
def clicked : Dispatched Observation × FormHost :=
  editedHost.dispatch (.withFuel 3) (observer (.withFuel 3) fun _ _ => [.start]) "b" "Click" []

end FormBasic
