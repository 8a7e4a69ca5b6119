import FormBasic.Host.Poller
import FormBasic.Proofs.Machine.Conversation

/-!
# Console sessions keep order

What the host of a console session sees, for every order in which the program, the host and the
poller take their steps. The poller only adds that each message that it takes is passed on; since
nothing follows a message that says that the program has ended, that it reports one end only makes
no difference to what the view is told.

## Main results

* `session_in_order` — what the two sides of a session and its view can rely on
* `Terminal.renderAll_runConsole` — what a terminal shows that is told of the messages of a program
-/

namespace FormBasic

/-! ### What a view is told -/

@[simp] theorem ViewCall.isTerminal_of (m : ConsoleMessage) :
    (ViewCall.of m).isTerminal = m.isTerminal := by
  cases m <;> rfl

namespace Terminal

variable {t : Terminal}

theorem done_flush : t.flush.done = t.done := by
  suffices ∀ (ss : List Segment) (t : Terminal), (ss.foldl write t).done = t.done from
    this t.held { t with held := [] }
  intro ss
  induction ss with
  | nil => exact fun _ => rfl
  | cons s ss ih => exact fun t => ih (t.write s)

theorem done_showText (s : Segment) : (t.showText s).done = t.done := by
  unfold showText
  split
  · rfl
  · dsimp only
    split <;> exact done_flush

/-- Only the end of the program ends a terminal. -/
theorem done_perform {c : ViewCall} (hc : c.isTerminal = false) : (t.perform c).done = t.done := by
  cases c with
  | write text foreground background => exact done_showText _
  | clear => rfl
  | requestInput => rfl
  | finished => cases hc
  | failed message => cases hc

/-- A terminal that has not been told of an end shows a message as it is told. -/
theorem render_eq_perform (hdone : t.done = false) (m : ConsoleMessage) :
    t.render m = t.perform (.of m) := by
  cases m with
  | output text foreground background => rfl
  | clear => rfl
  | inputRequest => rfl
  | finished => exact if_neg (Bool.eq_false_iff.1 hdone)
  | error message => exact if_neg (Bool.eq_false_iff.1 hdone)

/-- A terminal shows messages as it is told of them, if nothing follows the end of the program. -/
theorem renderAll_eq_foldl (hdone : t.done = false) {ms : List ConsoleMessage}
    (hms : ∀ m ∈ ms.dropLast, m.isTerminal = false) :
    t.renderAll ms = (ms.map .of).foldl perform t := by
  induction ms generalizing t with
  | nil => rfl
  | cons m ms ih =>
    show (t.render m).renderAll ms = (ms.map .of).foldl perform (t.perform (.of m))
    rw [render_eq_perform hdone]
    cases ms with
    | nil => rfl
    | cons m' ms =>
      refine ih ?_ fun m'' hm'' => hms m'' (List.mem_cons_of_mem _ hm'')
      rw [done_perform, hdone]
      rw [ViewCall.isTerminal_of]
      exact hms m (List.mem_cons_self ..)

/-- The messages of a console program show as a terminal does that is told of them. -/
theorem renderAll_runConsole (hdone : t.done = false) {fuel : Nat} {entry : String}
    {host : ConsoleHost} {s s' : State} {messages : List ConsoleMessage}
    (h : (Runner.withFuel fuel).runConsole entry host s = .ok messages s') :
    t.renderAll messages = (messages.map .of).foldl perform t :=
  renderAll_eq_foldl hdone (Runner.terminal_last_of_runConsole h)

end Terminal

/-! ### The end of the program -/

namespace Exchange

variable {e e' : Exchange}

/-- As long as messages wait, the host has not been told that the program has ended. -/
theorem Reachable.received_not_terminal (he : e.Reachable) (houtput : e.output ≠ []) :
    ∀ m ∈ e.received, m.isTerminal = false := by
  intro m hm
  refine he.accounted.terminal_last m ?_
  rw [← he.inTransit.messages, List.dropLast_append_of_ne_nil houtput]
  exact List.mem_append_left _ hm

/-- The program's channel stays closed, and nothing is left in it. -/
theorem isOver_of_act (h : e.Act e') (hover : e.isOver) :
    e'.isOver := by
  obtain ⟨houtput, hended⟩ := hover
  cases h with
  | call c hp => rw [hended] at hp; cases hp
  | finish heap outcome hp habandoned => rw [hended] at hp; cases hp
  | enter hp hopen => rw [hended] at hp; cases hp
  | deliver hp hroom => rw [hended] at hp; cases hp
  | refuse hp hclosed => rw [hended] at hp; cases hp
  | read hp hline => rw [hended] at hp; cases hp
  | leave hp => rw [hended] at hp; cases hp
  | _ => exact ⟨houtput, hended⟩

end Exchange

namespace PolledSession

variable {s s' : PolledSession}

theorem Reachable.act {e e' : Exchange} {p : Poller} (h : Reachable ⟨e, p⟩) (hact : e.Act e') :
    Reachable ⟨e', p⟩ :=
  h.step (.act p hact)

/-- A session with a poller is a session. -/
theorem Reachable.exchange (hs : s.Reachable) : s.exchange.Reachable := by
  induction hs with
  | start => exact .start
  | step _ h ih =>
    cases h with
    | act p h => exact ih.step (.act h)
    | tick h hwaiting => exact ih
    | cancel h hwaiting => exact ih.step (.act (.close _))
    | message h hdraining hm => exact ih.step (.receive hm)
    | drained h hdraining hempty hopen => exact ih
    | finish h hdraining hover => exact ih

/-- The view has been told of every message that has been taken. -/
structure InStep (s : PolledSession) : Prop where
  view : s.poller.view = s.exchange.received.map .of
  reported : s.poller.view.countP (·.isTerminal) = if s.poller.ended then 1 else 0
  /-- Polling that was not cancelled has ended because the channel was closed. -/
  result : ∀ r, s.poller.result = some r → r ≠ .cancelled →
    s.exchange.isOver ∧ r = if s.poller.ended then .done else .abandoned

/-- As long as messages wait, no end has been reported. -/
theorem InStep.not_ended (hs : s.InStep) (hreachable : s.exchange.Reachable)
    (houtput : s.exchange.output ≠ []) : s.poller.ended = false := by
  have hnone : s.poller.view.countP (·.isTerminal) = 0 := by
    rw [hs.view, List.countP_map, List.countP_eq_zero]
    intro m hm
    rw [Function.comp_apply, ViewCall.isTerminal_of, hreachable.received_not_terminal houtput m hm]
    exact Bool.false_ne_true
  cases hended : s.poller.ended with
  | false => rfl
  | true =>
    rw [hs.reported, hended] at hnone
    cases hnone

theorem InStep.step (h : s.Step s') (hreachable : s.exchange.Reachable) (hs : s.InStep) :
    s'.InStep := by
  cases h with
  | @act e e' p h =>
    have hreceived : e'.received = e.received := by
      cases h with
      | deliver hp hroom => rw [Exchange.toTraffic_deliver]; rfl
      | refuse hp hclosed => rw [Exchange.toTraffic_refuse]
      | _ => rfl
    refine ⟨?_, hs.reported, fun r hr hcancelled => ?_⟩
    · rw [hreceived]
      exact hs.view
    · obtain ⟨hover, heq⟩ := hs.result r hr hcancelled
      exact ⟨Exchange.isOver_of_act h hover, heq⟩
  | tick h hwaiting => exact ⟨hs.view, hs.reported, hs.result⟩
  | cancel h hwaiting =>
    refine ⟨hs.view, hs.reported, fun r hr hcancelled => absurd ?_ hcancelled⟩
    exact (Option.some.inj hr).symm
  | @message e p m rest h hdraining hm =>
    have hended : p.ended = false := hs.not_ended hreachable (hm ▸ List.cons_ne_nil _ _)
    have hview : (p.render m).view = p.view ++ [.of m] := by
      unfold Poller.render
      rw [hended]
      split <;> rfl
    have hended' : (p.render m).ended = m.isTerminal := by
      unfold Poller.render
      rw [hended]
      cases hterminal : m.isTerminal
      · exact hended
      · rfl
    refine ⟨?_, ?_, fun r hr => ?_⟩
    · show (p.render m).view = (e.received ++ [m]).map .of
      rw [hview, List.map_append, ← hs.view]
      rfl
    · show (p.render m).view.countP (·.isTerminal) = _
      rw [hended', hview, List.countP_append, hs.reported, hended, List.countP_singleton,
        ViewCall.isTerminal_of]
      exact Nat.zero_add _
    · have hresult : (p.render m).result = p.result := by
        unfold Poller.render
        rw [hended]
        split <;> rfl
      rw [show (p.render m).result = some r from hr, h] at hresult
      cases hresult
  | drained h hdraining hempty hopen => exact ⟨hs.view, hs.reported, hs.result⟩
  | finish h hdraining hover =>
    refine ⟨hs.view, hs.reported, fun r hr _ => ⟨hover, ?_⟩⟩
    exact (Option.some.inj hr).symm

theorem Reachable.inStep (hs : s.Reachable) : s.InStep := by
  induction hs with
  | start => exact ⟨rfl, rfl, nofun⟩
  | step hs h ih => exact ih.step h hs.exchange

/-- A poller that was not cancelled ends without an error if it has reported one end of the program,
and it says that the session was abandoned if not. By then it has shown all that was sent. -/
theorem Reachable.poller_result (hs : s.Reachable) {r : PollResult}
    (hr : s.poller.result = some r) (hcancelled : r ≠ .cancelled) :
    s.poller.view = s.exchange.sent.map .of ∧
      r = if s.poller.view.countP (·.isTerminal) = 1 then .done else .abandoned := by
  obtain ⟨hview, hreported, hresult⟩ := hs.inStep
  obtain ⟨⟨houtput, -⟩, heq⟩ := hresult r hr hcancelled
  have hmessages := hs.exchange.inTransit.messages
  rw [houtput, List.append_nil] at hmessages
  refine ⟨hmessages ▸ hview, heq.trans ?_⟩
  rw [hreported]
  cases s.poller.ended <;> rfl

end PolledSession

/-! ### The session as a whole -/

/-- In a console session, in whatever order its parties take their steps,

* the host receives what the program has sent, in order, and what it has not received yet still
  waits for it;
* nothing follows a message that says that the program has ended;
* the program reads the lines that the session has accepted, in order, and what it has not read yet
  still waits for it;
* what has been sent belongs to the calls of the program, one after the other, and then to its end;
  a call that returned a line has sent one request;
* a line that the host began to send after it had closed the session is not accepted, and the host
  can be told so at once;
* if the host finds the channel closed in a session that it has not closed, then it has received
  everything, and only the last message says that the program has ended;
* a poller tells its view of every message that it receives, in order; if it ends without having
  been cancelled, then it has told of all messages, and it ends without an error if it has told of
  one end of the program, and with an abandoned session otherwise. -/
theorem session_in_order {e : Exchange} (he : e.Reachable) :
    e.received ++ e.output = e.sent ∧
    (∀ m ∈ e.sent.dropLast, m.isTerminal = false) ∧
    e.reads ++ e.input = e.accepted ∧
    (e.sent = e.calls.flatMap (·.issued) ++ e.issued ∧
      ∀ c ∈ e.calls, ∀ text, c.result = .line text →
        c.call = .readLine ∧ c.issued = [.inputRequest]) ∧
    (∀ a ∈ e.answers, a.offer.afterClose = true → a.accepted = false) ∧
    (∀ before o after, e.offers = before ++ o :: after → o.afterClose = true →
      e.Act (e.answer (before ++ after) o false)) ∧
    (e.isOver → e.closed = false →
      e.received = e.sent ∧ ∃ lead m, e.sent = lead ++ [m] ∧ m.isTerminal = true ∧
        ∀ m' ∈ lead, m'.isTerminal = false) ∧
    ∀ p, PolledSession.Reachable ⟨e, p⟩ →
      p.view = e.received.map .of ∧
      ∀ r, p.result = some r → r ≠ .cancelled →
        p.view = e.sent.map .of ∧
        r = if p.view.countP (·.isTerminal) = 1 then .done else .abandoned := by
  refine ⟨he.inTransit.messages, he.accounted.terminal_last, he.inTransit.lines,
    ⟨he.accounted.sent, fun c hc => (he.accounted.calls c hc).line⟩, he.punctual.answers,
    ?_, ?_, ?_⟩
  · intro before o after ho hafter
    have hmem : o ∈ e.offers := ho ▸ List.mem_append_right _ (List.mem_cons_self ..)
    exact .decline ho (he.punctual.offers o hmem hafter).1
  · intro hover hopen
    obtain ⟨hreceived, lead, m, hsent, hm⟩ := he.complete hover hopen
    refine ⟨hreceived, lead, m, hsent, hm, fun m' hm' => he.accounted.terminal_last m' ?_⟩
    rw [hsent, List.dropLast_concat]
    exact hm'
  · intro p hp
    exact ⟨hp.inStep.view, fun r hr hcancelled => hp.poller_result hr hcancelled⟩

/-- A program that reads a line and ends; its host polls, answers, closes the session when it is
over, and then tries to send another line. -/
def answeredSession : PolledSession where
  exchange :=
    { sent := [.inputRequest, .finished]
      received := [.inputRequest, .finished]
      answers := [⟨⟨"Ada", false, true⟩, true⟩, ⟨⟨"late", true, false⟩, false⟩]
      closed := true
      program := .ended
      issued := [.finished]
      calls := [⟨.readLine, [.inputRequest], .line "Ada"⟩] }
  poller :=
    { draining := true
      ended := true
      view := [.requestInput, .finished]
      result := some .done }

theorem reachable_answeredSession : answeredSession.Reachable := by
  have h := PolledSession.Reachable.start
  have h := h.act (.call .readLine rfl)
  have h := h.act (.enter rfl rfl)
  have h := h.act (.deliver rfl (by decide))
  have h := h.step (.tick rfl rfl)
  have h := h.step (.message rfl rfl rfl)
  have h := h.act (.offer _ "Ada")
  have h := h.act (.enterOffer (show _ = [] ++ _ :: [] from rfl) rfl)
  have h := h.act (.accept (show _ = [] ++ _ :: [] from rfl) rfl (by decide))
  have h := h.act (.read rfl rfl)
  have h := h.act (.finish {} (.ok .nothing) rfl nofun)
  have h := h.act (.enter rfl rfl)
  have h := h.act (.deliver rfl (by decide))
  have h := h.act (.leave rfl)
  have h := h.step (.message rfl rfl rfl)
  have h := h.step (.finish rfl rfl ⟨rfl, rfl⟩)
  have h := h.act (.close _)
  have h := h.act (.offer _ "late")
  exact h.act (.decline (show _ = [] ++ _ :: [] from rfl) rfl)

theorem session_in_order_answered :
    answeredSession.Reachable ∧ answeredSession.exchange.reads = ["Ada"] ∧
    answeredSession.exchange.reads ++ [] = answeredSession.exchange.accepted ∧
    (PollResult.done =
      if answeredSession.poller.view.countP (·.isTerminal) = 1 then .done else .abandoned) := by
  have hreachable := reachable_answeredSession
  obtain ⟨-, -, hlines, -, -, -, -, hpoller⟩ := session_in_order hreachable.exchange
  exact ⟨hreachable, rfl, hlines, ((hpoller _ hreachable).2 .done rfl nofun).2⟩

end FormBasic
