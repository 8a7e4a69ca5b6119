import FormBasic.Machine.Run

/-!
# The exchange of a console session

A console program and its host run side by side. The program sends messages through one channel, the
host sends lines through another; both channels hold so many entries and no more, and the host may
close the session at any moment. `Interp.send` and `Interp.consoleRead` have the whole exchange
happen at once, the host being a function of what it has been sent. Here it happens in small steps,
which the two sides take in any order.

Sending, in both directions, takes two looks at the session. The first one only sees whether it is
closed. The second one waits until there is room in the channel or the session is closed, and may go
either way if both hold.
-/

namespace FormBasic

/-- The number of messages that wait for the host at most. -/
def outputLimit : Nat := 256

/-- The number of lines that wait for the program at most. -/
def inputLimit : Nat := 16

/-! ### The program's side -/

/-- Whether a message says that the program has ended. -/
def ConsoleMessage.isTerminal : ConsoleMessage → Bool
  | .finished | .error _ => true
  | _ => false

/-- What a program asks of its session. -/
inductive ConsoleCall where
  | write (text : String) (foreground background : Int)
  | clear
  | readLine
deriving Repr, DecidableEq

/-- The message that a call sends. -/
def ConsoleCall.message : ConsoleCall → ConsoleMessage
  | .write text foreground background => .output text foreground background
  | .clear => .clear
  | .readLine => .inputRequest

/-- How a call ends. -/
inductive CallResult where
  | sent
  | line (text : String)
  /-- The host has gone. -/
  | refused
deriving Repr, DecidableEq

/-- A call that has ended, with the messages that it has put into the channel. -/
structure CallRecord where
  call : ConsoleCall
  issued : List ConsoleMessage
  result : CallResult
deriving Repr, DecidableEq

/-- The line that a call has returned. -/
def CallRecord.line? (c : CallRecord) : Option String :=
  match c.result with
  | .line text => some text
  | _ => none

/-- Why the program sends a message. -/
inductive Errand where
  | call (c : ConsoleCall)
  /-- Its entry procedure has ended. -/
  | last (m : ConsoleMessage)

/-- The message of an errand. -/
def Errand.message : Errand → ConsoleMessage
  | .call c => c.message
  | .last m => m

/-- What the program is doing. -/
inductive Activity where
  /-- It runs its entry procedure and asks nothing of the session. -/
  | computing
  /-- It is about to see whether the session is closed. -/
  | entering (errand : Errand)
  /-- It waits for room for its message. -/
  | sending (errand : Errand)
  /-- It has asked for a line and waits for it. -/
  | awaiting
  /-- It has ended and is about to close its channel. -/
  | leaving
  /-- It has closed its channel. -/
  | ended

/-- What the program is about while it can find that the session is closed. -/
def Activity.errand? : Activity → Option Errand
  | .entering x | .sending x => some x
  | .awaiting => some (.call .readLine)
  | _ => none

/-- What the program does once its entry procedure has ended, given its last message. -/
def Activity.afterEntry : Option ConsoleMessage → Activity
  | some m => .entering (.last m)
  | none => .leaving

/-! ### The host's side -/

/-- A line that the host is sending. -/
structure Offer where
  line : String
  /-- Whether the session was closed when the host began. -/
  afterClose : Bool
  /-- Whether the host has seen the session open. -/
  entered : Bool := false
deriving Repr, DecidableEq

/-- A line that the host has sent, or tried to. -/
structure OfferRecord where
  offer : Offer
  accepted : Bool
deriving Repr, DecidableEq

/-! ### Both sides -/

/-- The channels between the two sides of a session, and a record of what has passed through them.
All lists are in time order. -/
structure Traffic where
  /-- The messages that wait for the host. -/
  output : List ConsoleMessage := []
  /-- The lines that wait for the program. -/
  input : List String := []
  /-- Whether the host has closed the session. -/
  closed : Bool := false
  /-- The lines that the host is sending. -/
  offers : List Offer := []
  /-- All messages that the program has put into its channel. -/
  sent : List ConsoleMessage := []
  /-- All messages that the host has taken out of it. -/
  received : List ConsoleMessage := []
  /-- The lines that the host is done with. -/
  answers : List OfferRecord := []

/-- The lines that a session has accepted from its host. -/
def Traffic.accepted (t : Traffic) : List String :=
  (t.answers.filter (·.accepted)).map (·.offer.line)

/-- A session: the program, and the channels between it and its host. -/
structure Exchange extends Traffic where
  program : Activity := .computing
  /-- The messages of the call that is under way, or of the end of the program. -/
  issued : List ConsoleMessage := []
  /-- The calls that have ended. -/
  calls : List CallRecord := []

namespace Exchange

/-- The lines that the program has read. -/
def reads (e : Exchange) : List String := e.calls.filterMap (·.line?)

/-- Whether a call has been refused. -/
def hasRefused (e : Exchange) : Bool := e.calls.any (·.result == .refused)

/-- A call ends, and the program goes on. -/
def endCall (e : Exchange) (c : ConsoleCall) (result : CallResult) : Exchange :=
  { e with program := .computing, issued := [], calls := e.calls ++ [⟨c, e.issued, result⟩] }

/-- A message goes into the program's channel. -/
def push (e : Exchange) (m : ConsoleMessage) : Exchange :=
  { e with output := e.output ++ [m], sent := e.sent ++ [m], issued := e.issued ++ [m] }

/-- The message of an errand goes into the channel. -/
def deliver (e : Exchange) (x : Errand) : Exchange :=
  let e := e.push x.message
  match x with
  | .call .readLine => { e with program := .awaiting }
  | .call c => e.endCall c .sent
  | .last _ => { e with program := .leaving }

/-- An errand is given up because the session is closed. -/
def refuse (e : Exchange) : Errand → Exchange
  | .call c => e.endCall c .refused
  | .last _ => { e with program := .leaving }

/-- The host is done with a line; `rest` are the other ones that it is sending. -/
def answer (e : Exchange) (rest : List Offer) (o : Offer) (accepted : Bool) : Exchange :=
  { e with
    offers := rest
    input := if accepted then e.input ++ [o.line] else e.input
    answers := e.answers ++ [⟨o, accepted⟩] }

/-- The host takes a message; `rest` are the ones behind it. -/
def take (e : Exchange) (m : ConsoleMessage) (rest : List ConsoleMessage) : Exchange :=
  { e with output := rest, received := e.received ++ [m] }

/-- The steps of an exchange other than those in which the host takes a message. -/
inductive Act : Exchange → Exchange → Prop where
  /-- The entry procedure asks something of the session. -/
  | call {e : Exchange} (c : ConsoleCall) (h : e.program = .computing) :
    Act e { e with program := .entering (.call c) }
  /-- The entry procedure ends. It says that the session is closed only if it has been told so. -/
  | finish {e : Exchange} (heap : Heap) (outcome : Except Failure Value)
    (h : e.program = .computing)
    (habandoned : outcome = .error .abandoned → e.hasRefused = true) :
    Act e { e with program := .afterEntry (Runner.closing heap outcome) }
  /-- The program sees the session open. -/
  | enter {e : Exchange} {x : Errand} (h : e.program = .entering x) (hopen : e.closed = false) :
    Act e { e with program := .sending x }
  /-- The program finds room for its message. -/
  | deliver {e : Exchange} {x : Errand} (h : e.program = .sending x)
    (hroom : e.output.length < outputLimit) : Act e (e.deliver x)
  /-- The program finds the session closed. -/
  | refuse {e : Exchange} {x : Errand} (h : e.program.errand? = some x)
    (hclosed : e.closed = true) : Act e (e.refuse x)
  /-- The program receives the line that it waits for. -/
  | read {e : Exchange} {line : String} {rest : List String} (h : e.program = .awaiting)
    (hline : e.input = line :: rest) :
    Act e ({ e with input := rest }.endCall .readLine (.line line))
  /-- The program closes its channel. -/
  | leave {e : Exchange} (h : e.program = .leaving) : Act e { e with program := .ended }
  /-- The host begins to send a line. -/
  | offer (e : Exchange) (line : String) :
    Act e { e with offers := e.offers ++ [⟨line, e.closed, false⟩] }
  /-- The host sees the session open. -/
  | enterOffer {e : Exchange} {before after : List Offer} {o : Offer}
    (h : e.offers = before ++ o :: after) (hopen : e.closed = false) :
    Act e { e with offers := before ++ { o with entered := true } :: after }
  /-- The host finds room for its line. -/
  | accept {e : Exchange} {before after : List Offer} {o : Offer}
    (h : e.offers = before ++ o :: after) (hentered : o.entered = true)
    (hroom : e.input.length < inputLimit) : Act e (e.answer (before ++ after) o true)
  /-- The host finds the session closed. -/
  | decline {e : Exchange} {before after : List Offer} {o : Offer}
    (h : e.offers = before ++ o :: after) (hclosed : e.closed = true) :
    Act e (e.answer (before ++ after) o false)
  /-- The host closes the session. -/
  | close (e : Exchange) : Act e { e with closed := true }

/-- The steps of an exchange. -/
inductive Step : Exchange → Exchange → Prop where
  | act {e e' : Exchange} (h : e.Act e') : Step e e'
  /-- The host takes a message. -/
  | receive {e : Exchange} {m : ConsoleMessage} {rest : List ConsoleMessage}
    (h : e.output = m :: rest) : Step e (e.take m rest)

/-- An exchange that steps lead to from the beginning of a session. -/
inductive Reachable : Exchange → Prop where
  | start : Reachable {}
  | step {e e' : Exchange} (he : Reachable e) (h : e.Step e') : Reachable e'

/-- Whether the host finds the program's channel closed. -/
def isOver (e : Exchange) : Prop := e.output = [] ∧ e.program = .ended

end Exchange

end FormBasic
