import FormBasic.Host.Terminal
import FormBasic.Machine.Exchange

/-!
# The console poller

The host of a console session looks at its messages at intervals. At every tick it takes all that
are there and passes each one on to a view. It stops when it finds the channel closed, and says then
whether the program has reported its end; or it is cancelled between two ticks, and then it closes
the session.
-/

namespace FormBasic

/-- What a view of a console session is told. -/
inductive ViewCall where
  | write (text : String) (foreground background : Int)
  | clear
  | requestInput
  | finished
  | failed (message : String)
deriving Repr, DecidableEq

/-- What a view is told of a message. -/
def ViewCall.of : ConsoleMessage → ViewCall
  | .output text foreground background => .write text foreground background
  | .clear => .clear
  | .inputRequest => .requestInput
  | .finished => .finished
  | .error message => .failed message

/-- Whether a view is told that the program has ended. -/
def ViewCall.isTerminal : ViewCall → Bool
  | .finished | .failed _ => true
  | _ => false

/-- What a terminal does when it is told something. -/
def Terminal.perform (t : Terminal) : ViewCall → Terminal
  | .write text foreground background => t.showText { text, foreground, background }
  | .clear => t.clear
  | .requestInput => t.requestInput
  | .finished => t.finish
  | .failed message => t.fail message

/-- How polling has ended. -/
inductive PollResult where
  /-- The channel was closed after the program had reported its end. -/
  | done
  /-- The channel was closed, and the program had not reported its end. -/
  | abandoned
  | cancelled
deriving Repr, DecidableEq

/-- The text of the error with which polling has ended, if it is one. -/
def PollResult.error? : PollResult → Option String
  | .done => none
  | .abandoned => some abandonedMessage
  | .cancelled => some "context canceled"

/-- A poller. -/
structure Poller where
  /-- Whether a tick has come and messages may be left. -/
  draining : Bool := false
  /-- Whether the program has reported its end. -/
  ended : Bool := false
  /-- What the view has been told, in order. -/
  view : List ViewCall := []
  /-- How polling has ended, if it has. -/
  result : Option PollResult := none
deriving Repr, DecidableEq

namespace Poller

/-- Tell the view something. -/
def tell (p : Poller) (c : ViewCall) : Poller := { p with view := p.view ++ [c] }

/-- Pass a message on. The end of the program is reported once. -/
def render (p : Poller) (m : ConsoleMessage) : Poller :=
  if m.isTerminal then
    if p.ended then p else { p.tell (.of m) with ended := true }
  else p.tell (.of m)

end Poller

/-- A session with its poller. -/
structure PolledSession where
  exchange : Exchange := {}
  poller : Poller := {}

namespace PolledSession

/-- The steps of a session with its poller. Only the poller takes messages. -/
inductive Step : PolledSession → PolledSession → Prop where
  /-- The program, or what the host does beside the poller. -/
  | act {e e' : Exchange} (p : Poller) (h : e.Act e') : Step ⟨e, p⟩ ⟨e', p⟩
  | tick {e : Exchange} {p : Poller} (h : p.result = none) (hwaiting : p.draining = false) :
    Step ⟨e, p⟩ ⟨e, { p with draining := true }⟩
  | cancel {e : Exchange} {p : Poller} (h : p.result = none) (hwaiting : p.draining = false) :
    Step ⟨e, p⟩ ⟨{ e with closed := true }, { p with result := some .cancelled }⟩
  | message {e : Exchange} {p : Poller} {m : ConsoleMessage} {rest : List ConsoleMessage}
    (h : p.result = none) (hdraining : p.draining = true) (hm : e.output = m :: rest) :
    Step ⟨e, p⟩ ⟨e.take m rest, p.render m⟩
  /-- There is no message, but the program may send more. -/
  | drained {e : Exchange} {p : Poller} (h : p.result = none) (hdraining : p.draining = true)
    (hempty : e.output = []) (hopen : ¬ e.isOver) : Step ⟨e, p⟩ ⟨e, { p with draining := false }⟩
  /-- The channel is closed. -/
  | finish {e : Exchange} {p : Poller} (h : p.result = none) (hdraining : p.draining = true)
    (hover : e.isOver) :
    Step ⟨e, p⟩ ⟨e, { p with result := some (if p.ended then .done else .abandoned) }⟩

/-- A session that steps lead to from its beginning. -/
inductive Reachable : PolledSession → Prop where
  | start : Reachable {}
  | step {s s' : PolledSession} (hs : Reachable s) (h : s.Step s') : Reachable s'

end PolledSession

end FormBasic
