import FormBasic.Proofs.Machine.Exchange
import FormBasic.Proofs.Machine.Watch

/-!
# Sessions that happen at once

The machine runs a console program with a host that is a function: the host takes every message at
once, and answers or leaves at once. Such a run is one exchange among many, in which the two sides
happen to take turns, and this module says which one. A run of the machine, seen from its console
session, is a sequence of calls (`talks_withFuel`); each call is a few steps of an exchange in which
the host takes the message before the program goes on; and what `Runner.runConsole` returns is what
the program has sent in the exchange.

So what is proved of all exchanges holds of the messages of a console program. An example is that
nothing follows its end (`Runner.terminal_last_of_runConsole`).

An exchange lets a program say that its session is closed only if it has been told so. Programs keep
to that: a run is abandoned only if the host has been found gone (`Runner.refused_of_abandoned`).
With one exception this is a matter of single operations, since whatever passes a failure on does so
at once. Where the body of a `Try` is abandoned, the `Finally` block comes in between; but a host
that has gone does not come back.

## Main results

* `Runner.refused_of_abandoned` — a procedure is abandoned only if the host has been found gone
* `Exchange.follows_of_talks` — calls are steps of an exchange
* `Runner.exists_exchange` — the run of a console program is an exchange that has come to its end
-/

namespace FormBasic

open Interp Relation

/-! ### Runs that talk -/

section
variable {α β : Type} {x : Interp α}

/-- A host that has gone does not come back. -/
theorem ConsoleSession.Talks.closed {o o' : Option ConsoleSession} (h : Talks o o')
    (hclosed : o.any (·.closed) = true) : o'.any (·.closed) = true := by
  induction h with
  | refl => exact hclosed
  | tail _ hturn ih =>
    cases hturn with
    | some hturn => cases hturn <;> first | exact ih | rfl
    | none => exact ih

namespace Interp

/-- What a run from a state does to the console session is to make calls, and it is abandoned only
if the host has been found gone. -/
structure TalksAt (x : Interp α) (s : State) : Prop where
  talks : ConsoleSession.Talks s.console (x.after s).console
  perseveres : x.Perseveres s

/-- A run that talks from every state. -/
def TalksOn (x : Interp α) : Prop := ∀ s, x.TalksAt s

namespace TalksAt

variable {s : State}

theorem hostGone (h : x.TalksAt s) (hgone : s.hostGone = true) : (x.after s).hostGone = true :=
  h.talks.closed hgone

theorem of_ok {s' : State} {a : α} (h : x s = .ok a s') (hconsole : s'.console = s.console) :
    x.TalksAt s where
  talks := by rw [after_of_ok h, hconsole]
  perseveres := perseveres_of_ok h

/-- What a run reads from the state is the state that it is run in. -/
theorem of_get {k : State → Interp α} (h : (k s).TalksAt s) : (get >>= k).TalksAt s :=
  ⟨h.talks, h.perseveres⟩

theorem bind {k : α → Interp β} (hx : x.TalksAt s)
    (hk : ∀ a s', x s = .ok a s' → (k a).TalksAt s') : (x >>= k).TalksAt s where
  talks := after_bind (R := fun s t => ConsoleSession.Talks s.console t.console) .trans hx.talks
    fun a s' hr => (hk a s' hr).talks
  perseveres := perseveres_bind hx.perseveres fun a s' hr => (hk a s' hr).perseveres

/-- What is done with the outcome of an attempt may count on it that after an abandonment the host
has gone. -/
theorem attempt_bind {k : Except Failure α → Interp β} (hx : x.TalksAt s)
    (hk : ∀ outcome s', (outcome = .error .abandoned → s'.hostGone = true) →
      (k outcome).TalksAt s') : (Interp.attempt x >>= k).TalksAt s := by
  have hattempt : (Interp.attempt x).TalksAt s := by
    refine ⟨by rw [after_attempt]; exact hx.talks, fun t habandoned => ?_⟩
    unfold Interp.attempt at habandoned
    split at habandoned <;> cases habandoned
  refine hattempt.bind fun outcome s' hr => hk outcome s' ?_
  rintro rfl
  exact hx.perseveres s' (failure_of_attempt hr)

theorem resume {outcome : Except Failure α}
    (h : outcome = .error .abandoned → s.hostGone = true) : (Interp.resume outcome).TalksAt s where
  talks := (quietAt_resume outcome s).1.console
  perseveres s' habandoned := by
    cases outcome with
    | ok a => cases habandoned
    | error f =>
      cases habandoned
      exact h rfl

end TalksAt

namespace TalksOn

theorem of_quiet (h : x.Quiet) : x.TalksOn := fun s => ⟨(h.quietAt s).1.console, h.perseveres s⟩

theorem bind {k : α → Interp β} (hx : x.TalksOn) (hk : ∀ a, (k a).TalksOn) :
    (x >>= k).TalksOn := fun s => (hx s).bind fun a s' _ => hk a s'

theorem found? (h : x.TalksOn) : (Interp.found? x).TalksOn := by
  refine fun s => ⟨by rw [after_found?]; exact (h s).talks, fun t habandoned => ?_⟩
  unfold Interp.found? at habandoned
  split at habandoned
  · cases habandoned
  · next hr =>
    split at habandoned
    · cases habandoned
    · cases habandoned
      exact (h s).perseveres _ hr
  · cases habandoned

theorem leave (name : String) (h : x.TalksOn) :
    (Interp.onFailure (·.leave name) x).TalksOn := by
  refine fun s => ⟨by rw [after_onFailure]; exact (h s).talks, fun t habandoned => ?_⟩
  unfold Interp.onFailure at habandoned
  split at habandoned
  · next f t' hr =>
    cases f with
    | abandoned =>
      cases habandoned
      exact (h s).perseveres _ hr
    | _ => cases habandoned
  · exact (h s).perseveres _ habandoned

theorem inContext (d : Detour) (h : x.TalksOn) : (Interp.inContext d x).TalksOn := by
  intro s
  have hbody := h { s with context := d.enter s.context }
  refine ⟨by rw [after_inContext]; exact hbody.talks, fun t habandoned => ?_⟩
  unfold Interp.inContext at habandoned
  split at habandoned
  · cases habandoned
  · next hr =>
    cases habandoned
    exact (hbody.perseveres _ hr :)

theorem inScope (h : x.TalksOn) : (Interp.inScope x).TalksOn := by
  intro s
  have hbody := h { s with scopes := s.scopes.push }
  refine ⟨by rw [after_inScope]; exact hbody.talks, fun t habandoned => ?_⟩
  unfold Interp.inScope at habandoned
  split at habandoned
  · cases habandoned
  · next hr =>
    cases habandoned
    exact (hbody.perseveres _ hr :)

theorem inCall (c : Callable) (self : Option ObjectRef) (classContext : String)
    (h : x.TalksOn) : (Interp.inCall c self classContext x).TalksOn := by
  refine fun s => .of_get ?_
  split
  · exact TalksOn.of_quiet (quiet_failWith _) s
  · exact (h.leave c.name).inScope.inContext _ s

theorem rebind (key : String) (v : Value) : (Interp.rebind key v).TalksOn := by
  refine fun s => .of_get ((TalksOn.of_quiet (quiet_lift _) s).bind fun _ _ _ => ?_)
  exact .of_ok rfl rfl

end TalksOn

end Interp

end

/-- Talking is a relation that the machine respects, `Try` apart. -/
def talkRelation : RunRelation where
  Rel x _ := x.TalksOn
  quiet := .of_quiet
  bind := TalksOn.bind
  read _ h s := .of_get (h s trivial s)
  bindCurrent _ _ _ := .of_ok rfl rfl
  bindGlobal _ _ _ := .of_ok rfl rfl
  foundOr c h := h.found?.bind fun
    | some a => .of_quiet (quiet_pure a)
    | none => .of_quiet (quiet_fail c)
  entering _ h := h.inContext _
  inCall := TalksOn.inCall
  outOfFuel _ := ⟨.refl, by rintro _ ⟨⟩⟩

theorem talkRelation_admits {q : Request} (hq : q.isTry = false) : talkRelation.Admits q where
  rebinds _ := TalksOn.rebind
  forgives _ := TalksOn.found?
  catches h := by rw [hq] at h; cases h
  rethrows h := by rw [hq] at h; cases h

namespace Runner

section
variable {run run' : Runner} (h : Related talkRelation run run')
include h

theorem talksOn_block (ss : List Stmt) : (run.block ss).TalksOn :=
  h.on.block fun _ _ => trivial

theorem talksOn_runCatch {f : Failure} (hf : f ≠ .abandoned) (r : ObjectRef)
    (cs : List CatchClause) : (run.runCatch f r cs).TalksOn := by
  induction cs with
  | nil => exact fun s => .resume fun habandoned => absurd (Except.error.inj habandoned) hf
  | cons c cs ih =>
    have hcatches : (run.catches c r).TalksOn :=
      h.on.catches (talkRelation.bindsCurrent _) (fun _ _ => trivial) r
    refine hcatches.bind fun takes => ?_
    split
    · exact (talksOn_block h c.body).inContext _
    · exact ih

theorem talksOn_guarded (body : List Stmt) (cs : List CatchClause) :
    (run.guarded body cs).TalksOn := by
  refine fun s => (talksOn_block h body s).attempt_bind fun outcome s' hgone => ?_
  split
  · exact TalksOn.of_quiet (quiet_pure _) s'
  · exact .resume hgone
  · next f hf =>
    have hfailure : f ≠ .abandoned := fun habandoned => hf (by rw [habandoned])
    exact (TalksOn.of_quiet (quiet_exceptionFor f)).bind
      (fun r => talksOn_runCatch h hfailure r cs) s'

/-- The `Finally` block comes between an abandonment and its way out, and does not bring the host
back. -/
theorem talksOn_tryCatch (body : List Stmt) (cs : List CatchClause)
    (cleanup : Option (List Stmt)) : (run.tryCatch body cs cleanup).TalksOn := by
  refine fun s => (talksOn_guarded h body cs s).attempt_bind fun outcome s' hgone => ?_
  have hcleanup := talksOn_block h (cleanup.getD []) s'
  refine hcleanup.bind fun ended s'' hr => ?_
  have hgone' : outcome = .error .abandoned → s''.hostGone = true := fun habandoned => by
    rw [← after_of_ok hr]
    exact hcleanup.hostGone (hgone habandoned)
  refine (TalksAt.resume hgone').bind fun signal t _ => ?_
  split <;> exact TalksOn.of_quiet (quiet_pure _) t

theorem talksOn_step (q : Request) : (run.step q).TalksOn := by
  cases hq : q.isTry with
  | false => exact h.step (talkRelation_admits hq)
  | true =>
    cases q with
    | exec s =>
      cases s with
      | tryCatch body cs cleanup => exact talksOn_tryCatch h body cs cleanup
      | _ => cases hq
    | _ => cases hq

end

theorem talks_withFuel (fuel : Nat) : Related talkRelation (withFuel fuel) (withFuel fuel) := by
  rw [← watched_true (fun _ => outOfFuel) fuel]
  refine related_watched (fun hrel q => ?_) fuel
  exact talksOn_step hrel q

theorem talksOn_callProcedure (fuel : Nat) (entry : String) (args : List Value) :
    ((withFuel fuel).callProcedure entry args).TalksOn :=
  (talks_withFuel fuel).on.callProcedure entry args

/-- A procedure is abandoned only if a call of the console session has been refused: the host has
been found gone. -/
theorem refused_of_abandoned {fuel : Nat} {entry : String} {args : List Value} {s s' : State}
    (h : (withFuel fuel).callProcedure entry args s = .error (.failure .abandoned) s') :
    s'.hostGone = true :=
  (talksOn_callProcedure fuel entry args s).perseveres s' h

end Runner

/-! ### Calls as steps -/

namespace Exchange

variable {e : Exchange} {c d : ConsoleSession}

/-- An exchange between two calls of a session, the host of which takes its turn at once. -/
structure Follows (c : ConsoleSession) (e : Exchange) : Prop where
  reachable : e.Reachable
  program : e.program = .computing
  output : e.output = []
  input : e.input = []
  offers : e.offers = []
  sent : e.sent = c.sent.reverse
  closed : e.closed = c.closed
  /-- The program has been told that the session is closed. -/
  refused : c.closed = true → e.hasRefused = true

theorem Reachable.act {e' : Exchange} (he : e.Reachable) (h : e.Act e') : e'.Reachable :=
  he.step (.act h)

/-- A program that sees the session open, with nothing before its message, has it taken at once. -/
theorem Reachable.pass {x : Errand} (he : e.Reachable) (hp : e.program = .entering x)
    (hopen : e.closed = false) (houtput : e.output = []) :
    (({ e with program := .sending x }.deliver x).take x.message []).Reachable := by
  have hsending := he.act (.enter hp hopen)
  have hroom : e.output.length < outputLimit := by
    rw [houtput]
    decide
  refine (hsending.act (.deliver rfl hroom)).step (.receive ?_)
  rw [toTraffic_deliver]
  show e.output ++ [x.message] = [x.message]
  rw [houtput, List.nil_append]

/-- A program that is about something finds the session closed as soon as it is. -/
theorem Reachable.desert {x : Errand} (he : e.Reachable) (hp : e.program.errand? = some x) :
    ({ e with closed := true }.refuse x).Reachable :=
  (he.act (.close e)).act (.refuse hp rfl)

/-- A program whose call is refused has been told that the session is closed. -/
theorem hasRefused_refuse (e : Exchange) (call : ConsoleCall) :
    (e.refuse (.call call)).hasRefused = true := by
  show (e.calls ++ [_]).any _ = true
  rw [List.any_append]
  exact Bool.or_true _

/-- A call is a few steps of an exchange. -/
theorem Follows.turn (h : c.Turn d) (he : Follows c e) : ∃ e', Follows d e' := by
  have hstart := fun call : ConsoleCall => he.reachable.act (.call call he.program)
  have hsent : ∀ m, e.sent ++ [m] = (m :: c.sent).reverse := fun m => by
    rw [he.sent, List.reverse_cons]
  have hnotClosed : c.closed = false → c.closed = true → ∀ {P : Prop}, P := fun hopen hclosed =>
    (Bool.false_ne_true (hopen.symm.trans hclosed)).elim
  cases h with
  | tell call hcall hopen hstays =>
    have hpass := (hstart call).pass rfl (he.closed.trans hopen) he.output
    cases call with
    | readLine => exact absurd rfl hcall
    | write _ _ _ =>
      exact ⟨_, hpass, rfl, rfl, he.input, he.offers, hsent _, he.closed, (hnotClosed hopen ·)⟩
    | clear =>
      exact ⟨_, hpass, rfl, rfl, he.input, he.offers, hsent _, he.closed, (hnotClosed hopen ·)⟩
  | ask line hopen hstays hanswer =>
    have hpass := (hstart .readLine).pass rfl (he.closed.trans hopen) he.output
    -- the host sends its answer, which the program waits for
    let o : Offer := ⟨line, e.closed, false⟩
    have hoffer := hpass.act (.offer _ line)
    have henter := hoffer.act (.enterOffer (show e.offers ++ [o] = [] ++ o :: [] by rw [he.offers])
      (he.closed.trans hopen))
    have haccept := henter.act (.accept (show [] ++ { o with entered := true } :: [] = _ from rfl)
      rfl (show e.input.length < inputLimit by rw [he.input]; decide))
    have hread := haccept.act
      (.read rfl (show e.input ++ [line] = line :: [] by rw [he.input]; rfl))
    exact ⟨_, hread, rfl, rfl, rfl, rfl, hsent _, he.closed, (hnotClosed hopen ·)⟩
  | desert hopen hstays hanswer =>
    have hpass := (hstart .readLine).pass rfl (he.closed.trans hopen) he.output
    exact ⟨_, hpass.desert rfl, rfl, rfl, he.input, he.offers, hsent _, rfl,
      fun _ => hasRefused_refuse _ _⟩
  | leave call hopen hleaves =>
    exact ⟨_, (hstart call).desert rfl, rfl, he.output, he.input, he.offers, he.sent, rfl,
      fun _ => hasRefused_refuse _ _⟩

/-- The calls of a session are steps of an exchange. -/
theorem follows_of_talks {host : ConsoleHost} {o : Option ConsoleSession}
    (h : ConsoleSession.Talks (some { host }) o) : ∃ c e, o = some c ∧ Follows c e := by
  induction h with
  | refl => exact ⟨_, {}, rfl, .start, rfl, rfl, rfl, rfl, rfl, rfl, nofun⟩
  | tail _ hturn ih =>
    obtain ⟨c, e, rfl, he⟩ := ih
    cases hturn with
    | some hturn =>
      obtain ⟨e', he'⟩ := he.turn hturn
      exact ⟨_, e', rfl, he'⟩

/-- The end of a program is a few steps of an exchange, which the host takes part in at once. -/
theorem Follows.finish (he : Follows c e) (h : Heap) {outcome : Except Failure Value}
    (habandoned : outcome = .error .abandoned → c.closed = true) :
    ∃ e' : Exchange, e'.Reachable ∧ e'.isOver ∧
      e'.sent = (Runner.ConsoleSession.sentWith c (Runner.closing h outcome)).reverse := by
  have hstart := he.reachable.act
    (.finish h outcome he.program fun houtcome => he.refused (habandoned houtcome))
  cases hm : Runner.closing h outcome with
  | none =>
    rw [hm] at hstart
    exact ⟨_, hstart.act (.leave rfl), ⟨he.output, rfl⟩, he.sent⟩
  | some m =>
    rw [hm] at hstart
    simp only [Runner.ConsoleSession.sentWith]
    split
    · exact ⟨_, (hstart.desert rfl).act (.leave rfl), ⟨he.output, rfl⟩, he.sent⟩
    · next hstays =>
      have hopen : c.closed = false := by
        cases hclosed : c.closed with
        | false => rfl
        | true => exact absurd (by rw [hclosed]; rfl) hstays
      have hpass := hstart.pass rfl (he.closed.trans hopen) he.output
      refine ⟨_, hpass.act (.leave rfl), ⟨rfl, rfl⟩, ?_⟩
      rw [List.reverse_cons, ← he.sent]
      rfl

end Exchange

/-- What the run of a console program returns is what the program sends in an exchange that has
come to its end. -/
theorem Runner.exists_exchange {fuel : Nat} {entry : String} {host : ConsoleHost} {s s' : State}
    {messages : List ConsoleMessage}
    (h : (withFuel fuel).runConsole entry host s = .ok messages s') :
    ∃ e : Exchange, e.Reachable ∧ e.isOver ∧ e.sent = messages := by
  let run := (withFuel fuel).callProcedure entry []
  let s₀ : State := { s with console := some { host } }
  obtain ⟨outcome, s₁, houtcome, hrest⟩ :=
    exists_of_bind_ok (show (Interp.attempt run >>= _) s₀ = _ from h)
  have hsession := (talksOn_callProcedure fuel entry [] s₀).talks
  rw [← after_attempt, after_of_ok houtcome] at hsession
  obtain ⟨c, e, hc, he⟩ := Exchange.follows_of_talks hsession
  rw [get_bind_apply] at hrest
  obtain ⟨-, s₂, -, hrest⟩ := exists_of_bind_ok hrest
  rw [hc] at hrest
  cases hrest
  refine he.finish s₁.heap fun habandoned => ?_
  rw [habandoned] at houtcome
  have hgone := refused_of_abandoned (failure_of_attempt houtcome)
  rwa [State.hostGone, hc] at hgone

/-- Nothing follows the end of a console program. -/
theorem Runner.terminal_last_of_runConsole {fuel : Nat} {entry : String} {host : ConsoleHost}
    {s s' : State} {messages : List ConsoleMessage}
    (h : (withFuel fuel).runConsole entry host s = .ok messages s') :
    ∀ m ∈ messages.dropLast, m.isTerminal = false := by
  obtain ⟨e, he, -, rfl⟩ := exists_exchange h
  exact he.accounted.terminal_last

end FormBasic
