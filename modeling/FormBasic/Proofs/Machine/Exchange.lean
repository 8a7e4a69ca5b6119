import FormBasic.Machine.Exchange

/-!
# The exchange keeps order

Whatever the order in which a console program and its host take their steps, both channels are
queues: what has been taken out of a channel and what is still in it is what was put in. The rest is
bookkeeping on the program's side. Everything that the program has sent belongs to one of its calls,
or to its end; a call that has returned a line has sent one request; and only the end of the program
sends a terminal message.

## Main results

* `Exchange.Reachable.inTransit` — both channels are queues
* `Exchange.Reachable.accounted` — whose messages have been sent
* `Exchange.Reachable.late` — a line that the host begins to send after it has closed the session is
  not accepted
-/

namespace FormBasic

/-! ### Messages -/

theorem ConsoleCall.isTerminal_message (c : ConsoleCall) : c.message.isTerminal = false := by
  cases c <;> rfl

/-- The last message of a program says that it has ended. -/
theorem Runner.isTerminal_of_closing {h : Heap} {outcome : Except Failure Value}
    {m : ConsoleMessage} (hm : Runner.closing h outcome = some m) : m.isTerminal = true := by
  unfold Runner.closing at hm
  split at hm <;> cases hm <;> rfl

/-- Only a session that is closed ends without a last message. -/
theorem Runner.eq_abandoned_of_closing {h : Heap} {outcome : Except Failure Value}
    (hm : Runner.closing h outcome = none) : outcome = .error .abandoned := by
  unfold Runner.closing at hm
  split at hm
  · cases hm
  · rfl
  · cases hm

/-- What is known of a call that has ended. -/
structure CallRecord.Sound (closed : Bool) (c : CallRecord) : Prop where
  issued : ∀ m ∈ c.issued, m.isTerminal = false
  /-- A call that returns a line has sent one request. -/
  line : ∀ text, c.result = .line text → c.call = .readLine ∧ c.issued = [.inputRequest]
  refused : c.result = .refused → closed = true

/-- What is known of a message that the program sends: its last one says that it has ended. -/
def Errand.Sound : Errand → Prop
  | .call _ => True
  | .last m => m.isTerminal = true

/-- What a program has sent of what it is about. -/
def Activity.Issues (closed : Bool) (issued : List ConsoleMessage) : Activity → Prop
  | .computing => issued = []
  | .entering x | .sending x => issued = [] ∧ x.Sound
  | .awaiting => issued = [.inputRequest]
  | .leaving | .ended => issued = [] ∧ closed = true ∨ ∃ m, issued = [m] ∧ m.isTerminal = true

/-- A program has sent one message at most of what it is about. -/
theorem Activity.Issues.eq_nil_or_singleton {closed : Bool} {issued : List ConsoleMessage}
    {p : Activity} (h : p.Issues closed issued) : issued = [] ∨ ∃ m, issued = [m] := by
  cases p with
  | computing => exact .inl h
  | entering x => exact .inl h.1
  | sending x => exact .inl h.1
  | awaiting => exact .inr ⟨_, h⟩
  | leaving => exact h.imp And.left fun ⟨m, hm, _⟩ => ⟨m, hm⟩
  | ended => exact h.imp And.left fun ⟨m, hm, _⟩ => ⟨m, hm⟩

namespace Exchange

variable {e e' : Exchange}

/-! ### What the steps change -/

section
variable (e : Exchange) (x : Errand)

/-- An errand that is done has put its message into the channel. -/
@[simp] theorem toTraffic_deliver : (e.deliver x).toTraffic = (e.push x.message).toTraffic := by
  rcases x with (_ | _ | _) | _ <;> rfl

/-- An errand that is given up has left the channels alone. -/
@[simp] theorem toTraffic_refuse : (e.refuse x).toTraffic = e.toTraffic := by
  cases x <;> rfl

theorem reads_endCall (c : ConsoleCall) (r : CallResult) :
    (e.endCall c r).reads = e.reads ++ (CallRecord.line? ⟨c, e.issued, r⟩).toList := by
  unfold reads endCall
  rw [List.filterMap_append]
  cases h : CallRecord.line? ⟨c, e.issued, r⟩ <;> simp [h]

@[simp] theorem reads_deliver : (e.deliver x).reads = e.reads := by
  rcases x with (_ | _ | _) | _
  · exact (reads_endCall _ _ _).trans (List.append_nil _)
  · exact (reads_endCall _ _ _).trans (List.append_nil _)
  · rfl
  · rfl

@[simp] theorem reads_refuse : (e.refuse x).reads = e.reads := by
  cases x with
  | call c => exact (reads_endCall _ _ _).trans (List.append_nil _)
  | last m => rfl

theorem accepted_answer (rest : List Offer) (o : Offer) (b : Bool) :
    (e.answer rest o b).accepted = e.accepted ++ if b then [o.line] else [] := by
  cases b <;> simp [Traffic.accepted, answer]

end

/-! ### Both channels are queues -/

/-- What has been taken out of a channel and what is in it is what was put in. -/
structure InTransit (e : Exchange) : Prop where
  messages : e.received ++ e.output = e.sent
  lines : e.reads ++ e.input = e.accepted

theorem InTransit.act (h : e.Act e') (he : e.InTransit) : e'.InTransit := by
  obtain ⟨hmessages, hlines⟩ := he
  cases h with
  | @deliver x hp hroom =>
    constructor
    · rw [toTraffic_deliver]
      show e.received ++ (e.output ++ [x.message]) = e.sent ++ [x.message]
      rw [← List.append_assoc, hmessages]
    · rw [toTraffic_deliver, reads_deliver]
      exact hlines
  | refuse hp hclosed =>
    constructor
    · rwa [toTraffic_refuse]
    · rwa [toTraffic_refuse, reads_refuse]
  | @read line rest hp hline =>
    refine ⟨hmessages, ?_⟩
    rw [reads_endCall]
    show (e.reads ++ [line]) ++ rest = e.accepted
    rw [← hlines, hline, List.append_assoc]
    rfl
  | @accept before after o ho hentered hroom =>
    refine ⟨hmessages, ?_⟩
    rw [accepted_answer, ← hlines]
    exact (List.append_assoc e.reads e.input [o.line]).symm
  | decline ho hclosed =>
    refine ⟨hmessages, ?_⟩
    rw [accepted_answer]
    exact hlines.trans (List.append_nil _).symm
  | _ => exact ⟨hmessages, hlines⟩

theorem InTransit.step (h : e.Step e') (he : e.InTransit) : e'.InTransit := by
  cases h with
  | act h => exact he.act h
  | @receive m rest hm =>
    refine ⟨?_, he.lines⟩
    show (e.received ++ [m]) ++ rest = e.sent
    rw [← he.messages, hm, List.append_assoc]
    rfl

theorem Reachable.inTransit (he : e.Reachable) : e.InTransit := by
  induction he with
  | start => exact ⟨rfl, rfl⟩
  | step _ h ih => exact ih.step h

/-! ### Whose messages have been sent -/

/-- Everything that has been sent belongs to a call, or to the end of the program. -/
structure Accounted (e : Exchange) : Prop where
  sent : e.sent = e.calls.flatMap (·.issued) ++ e.issued
  calls : ∀ c ∈ e.calls, c.Sound e.closed
  program : e.program.Issues e.closed e.issued

theorem accounted_endCall {c : ConsoleCall} {r : CallResult}
    (hsent : e.sent = e.calls.flatMap (·.issued) ++ e.issued)
    (hcalls : ∀ c ∈ e.calls, c.Sound e.closed)
    (hnew : CallRecord.Sound e.closed ⟨c, e.issued, r⟩) : (e.endCall c r).Accounted where
  sent := by
    show e.sent = (e.calls ++ [CallRecord.mk c e.issued r]).flatMap (·.issued) ++ []
    rw [hsent, List.flatMap_append, List.append_nil, List.flatMap_cons, List.flatMap_nil,
      List.append_nil]
  calls c' hc' := by
    rcases List.mem_append.1 hc' with hc' | hc'
    · exact hcalls c' hc'
    · rw [List.mem_singleton.1 hc']
      exact hnew
  program := rfl

theorem Accounted.deliver {x : Errand} (hp : e.program = .sending x) (he : e.Accounted) :
    (e.deliver x).Accounted := by
  obtain ⟨hsent, hcalls, hprogram⟩ := he
  rw [hp] at hprogram
  obtain ⟨hissued, hx⟩ := hprogram
  have hpush : (e.push x.message).issued = [x.message] := by rw [push, hissued]; rfl
  have hsent' : (e.push x.message).sent =
      (e.push x.message).calls.flatMap (·.issued) ++ (e.push x.message).issued := by
    show e.sent ++ [x.message] = e.calls.flatMap (·.issued) ++ (e.issued ++ [x.message])
    rw [hsent, List.append_assoc]
  -- a call other than a request for a line has ended
  have hended : ∀ c, x = .call c → ((e.push c.message).endCall c .sent).Accounted := by
    rintro c rfl
    refine accounted_endCall hsent' hcalls ⟨fun m hm => ?_, nofun, nofun⟩
    rw [show (e.push c.message).issued = [c.message] from hpush, List.mem_singleton] at hm
    rw [hm]
    exact c.isTerminal_message
  match x, hx, hsent', hpush, hended with
  | .call (.write _ _ _), _, _, _, hended => exact hended _ rfl
  | .call .clear, _, _, _, hended => exact hended _ rfl
  | .call .readLine, _, hsent', hpush, _ => exact ⟨hsent', hcalls, hpush⟩
  | .last m, hx, hsent', hpush, _ => exact ⟨hsent', hcalls, .inr ⟨m, hpush, hx⟩⟩

theorem Accounted.refuse {x : Errand} (hp : e.program.errand? = some x) (hclosed : e.closed = true)
    (he : e.Accounted) : (e.refuse x).Accounted := by
  obtain ⟨hsent, hcalls, hprogram⟩ := he
  have hissued : e.issued = [] ∨ e.issued = [.inputRequest] ∧ x = .call .readLine := by
    cases hprog : e.program <;> rw [hprog] at hp hprogram <;> cases hp
    · exact .inl hprogram.1
    · exact .inl hprogram.1
    · exact .inr ⟨hprogram, rfl⟩
  cases x with
  | call c =>
    refine accounted_endCall hsent hcalls ⟨fun m hm => ?_, nofun, fun _ => hclosed⟩
    rcases hissued with h | ⟨h, -⟩
    · rw [h] at hm
      cases hm
    · rw [h] at hm
      rw [List.mem_singleton.1 hm]
      rfl
  | last m =>
    refine ⟨hsent, hcalls, .inl ⟨?_, hclosed⟩⟩
    rcases hissued with h | ⟨-, h⟩
    · exact h
    · cases h

/-- A session that is closed stays as it is accounted for. -/
theorem Accounted.close (he : e.Accounted) : Accounted { e with closed := true } := by
  obtain ⟨hsent, hcalls, hprogram⟩ := he
  refine ⟨hsent, fun c hc => ⟨(hcalls c hc).issued, (hcalls c hc).line, fun _ => rfl⟩, ?_⟩
  show e.program.Issues true e.issued
  cases hprog : e.program <;> rw [hprog] at hprogram
  case leaving => exact hprogram.imp_left fun h => ⟨h.1, rfl⟩
  case ended => exact hprogram.imp_left fun h => ⟨h.1, rfl⟩
  all_goals exact hprogram

theorem Accounted.act (h : e.Act e') (he : e.Accounted) : e'.Accounted := by
  have hprogram := he.program
  cases h with
  | call c hp =>
    rw [hp] at hprogram
    exact ⟨he.sent, he.calls, hprogram, trivial⟩
  | finish heap outcome hp habandoned =>
    rw [hp] at hprogram
    refine ⟨he.sent, he.calls, ?_⟩
    show (Activity.afterEntry (Runner.closing heap outcome)).Issues e.closed e.issued
    cases hm : Runner.closing heap outcome with
    | some m => exact ⟨hprogram, Runner.isTerminal_of_closing hm⟩
    | none =>
      obtain ⟨c, hc, hrefused⟩ :=
        List.any_eq_true.1 (habandoned (Runner.eq_abandoned_of_closing hm))
      exact .inl ⟨hprogram, (he.calls c hc).refused (eq_of_beq hrefused)⟩
  | enter hp hopen =>
    rw [hp] at hprogram
    exact ⟨he.sent, he.calls, hprogram⟩
  | deliver hp hroom => exact he.deliver hp
  | refuse hp hclosed => exact he.refuse hp hclosed
  | read hp hline =>
    rw [hp] at hprogram
    refine accounted_endCall (e := { e with input := _ }) he.sent he.calls ⟨fun m hm => ?_,
      fun _ _ => ⟨rfl, hprogram⟩, nofun⟩
    have hm : m ∈ e.issued := hm
    rw [show e.issued = [.inputRequest] from hprogram, List.mem_singleton] at hm
    rw [hm]
    rfl
  | leave hp =>
    rw [hp] at hprogram
    exact ⟨he.sent, he.calls, hprogram⟩
  | offer => exact ⟨he.sent, he.calls, hprogram⟩
  | enterOffer ho hopen => exact ⟨he.sent, he.calls, hprogram⟩
  | accept ho hentered hroom => exact ⟨he.sent, he.calls, hprogram⟩
  | decline ho hclosed => exact ⟨he.sent, he.calls, hprogram⟩
  | close => exact he.close

theorem Accounted.step (h : e.Step e') (he : e.Accounted) : e'.Accounted := by
  cases h with
  | act h => exact he.act h
  | receive hm => exact ⟨he.sent, he.calls, he.program⟩

theorem Reachable.accounted (he : e.Reachable) : e.Accounted := by
  induction he with
  | start => exact ⟨rfl, nofun, rfl⟩
  | step _ h ih => exact ih.step h

/-! ### Lines after the close -/

/-- What the host begins to send after it has closed the session is not accepted. -/
structure Punctual (e : Exchange) : Prop where
  offers : ∀ o ∈ e.offers, o.afterClose = true → e.closed = true ∧ o.entered = false
  answers : ∀ a ∈ e.answers, a.offer.afterClose = true → a.accepted = false

theorem Punctual.answer {before after : List Offer} {o : Offer} {b : Bool}
    (ho : e.offers = before ++ o :: after) (hb : o.afterClose = true → b = false)
    (he : e.Punctual) : (e.answer (before ++ after) o b).Punctual where
  offers o' ho' := he.offers o' (by
    rw [ho, List.mem_append, List.mem_cons]
    exact (List.mem_append.1 ho').imp_right .inr)
  answers a ha := by
    rcases List.mem_append.1 ha with ha | ha
    · exact he.answers a ha
    · rw [List.mem_singleton.1 ha]
      exact hb

theorem Punctual.act (h : e.Act e') (he : e.Punctual) : e'.Punctual := by
  have hmem : ∀ {before after : List Offer} {o : Offer}, e.offers = before ++ o :: after →
      o ∈ e.offers := fun h => h ▸ List.mem_append_right _ (List.mem_cons_self ..)
  cases h with
  | deliver hp hroom =>
    constructor
    · rw [toTraffic_deliver]
      exact he.offers
    · rw [toTraffic_deliver]
      exact he.answers
  | refuse hp hclosed =>
    constructor
    · rw [toTraffic_refuse]
      exact he.offers
    · rw [toTraffic_refuse]
      exact he.answers
  | offer line =>
    refine ⟨fun o ho hafter => ?_, he.answers⟩
    rcases List.mem_append.1 ho with ho | ho
    · exact he.offers o ho hafter
    · rw [List.mem_singleton.1 ho] at hafter ⊢
      exact ⟨hafter, rfl⟩
  | @enterOffer before after o ho hopen =>
    -- the session is open, so nothing has been begun after its close
    have hearly : ∀ o ∈ e.offers, o.afterClose = false := fun o ho =>
      Bool.eq_false_iff.2 fun hafter => by
        rw [(he.offers o ho hafter).1] at hopen
        cases hopen
    refine ⟨fun o' ho' hafter => absurd hafter (Bool.eq_false_iff.1 ?_), he.answers⟩
    rcases List.mem_append.1 ho' with h | h
    · exact hearly o' (ho ▸ List.mem_append_left _ h)
    · rcases List.mem_cons.1 h with rfl | h
      · exact hearly o (hmem ho)
      · exact hearly o' (ho ▸ List.mem_append_right _ (List.mem_cons_of_mem _ h))
  | accept ho hentered hroom =>
    refine he.answer ho fun hafter => ?_
    rw [(he.offers _ (hmem ho) hafter).2] at hentered
    cases hentered
  | decline ho hclosed => exact he.answer ho fun _ => rfl
  | close => exact ⟨fun o ho hafter => ⟨rfl, (he.offers o ho hafter).2⟩, he.answers⟩
  | _ => exact ⟨he.offers, he.answers⟩

theorem Punctual.step (h : e.Step e') (he : e.Punctual) : e'.Punctual := by
  cases h with
  | act h => exact he.act h
  | receive hm => exact ⟨he.offers, he.answers⟩

theorem Reachable.punctual (he : e.Reachable) : e.Punctual := by
  induction he with
  | start => exact ⟨nofun, nofun⟩
  | step _ h ih => exact ih.step h

/-! ### What the host sees -/

/-- The host receives what has been sent, in order, from the first message on. -/
theorem Reachable.received_prefix (he : e.Reachable) : e.received <+: e.sent :=
  ⟨e.output, he.inTransit.messages⟩

/-- The program reads the lines that the session has accepted, in order, from the first one on. -/
theorem Reachable.reads_prefix (he : e.Reachable) : e.reads <+: e.accepted :=
  ⟨e.input, he.inTransit.lines⟩

/-- Nothing follows a message that says that the program has ended. -/
theorem Accounted.terminal_last (he : e.Accounted) :
    ∀ m ∈ e.sent.dropLast, m.isTerminal = false := by
  intro m hm
  have hcalls : ∀ m ∈ e.calls.flatMap (·.issued), m.isTerminal = false := fun m hm => by
    obtain ⟨c, hc, hm⟩ := List.mem_flatMap.1 hm
    exact (he.calls c hc).issued m hm
  refine hcalls m ?_
  rw [he.sent] at hm
  rcases he.program.eq_nil_or_singleton with hissued | ⟨m', hissued⟩
  · rw [hissued, List.append_nil] at hm
    exact (List.dropLast_sublist _).subset hm
  · rwa [hissued, List.dropLast_concat] at hm

/-- If the session is still open when the host finds the program's channel closed, then the host has
received everything, and the last message says that the program has ended. -/
theorem Reachable.complete (he : e.Reachable) (hover : e.isOver) (hopen : e.closed = false) :
    e.received = e.sent ∧ ∃ lead m, e.sent = lead ++ [m] ∧ m.isTerminal = true := by
  obtain ⟨houtput, hended⟩ := hover
  have hmessages := he.inTransit.messages
  rw [houtput, List.append_nil] at hmessages
  have hprogram := he.accounted.program
  rw [hended] at hprogram
  rcases hprogram with ⟨-, hclosed⟩ | ⟨m, hissued, hm⟩
  · rw [hopen] at hclosed
    cases hclosed
  · exact ⟨hmessages, _, m, hissued ▸ he.accounted.sent, hm⟩

end Exchange

end FormBasic
