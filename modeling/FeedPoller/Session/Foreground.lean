/-
A coordinator and its listener for foreground signals.

The listener is a task of its own.  Signals are sent on its channel while it is busy elsewhere,
and the coordinator is called; all of this happens in any order.  When the listener has its
turn it is woken once and refreshes the polls.

A coordinator takes one listener and no other.  It may be asked to listen on another channel
first, and then this one has no listener.  To dispose of the coordinator is to stop its
listener.  One whose coordinator is just gone finds out when it is woken, and one that nobody
can send to any longer when it has dealt with everything that was sent.
-/
import FeedPoller.Poll.System
import FeedPoller.Signal.Broadcast

namespace FeedPoller

/-- A system, a channel for foreground signals, and the listener on it. -/
structure ForegroundSystem where
  system : System
  /-- How many signals have been sent to a listener on the channel. -/
  sent : Nat := 0
  /-- Whether nobody can send any longer. -/
  closed : Bool := false
  listener : Option Listener := none
deriving Repr

/-- Something that happens to a system with a channel for foreground signals. -/
inductive ForegroundEvent where
  /-- What happens to the coordinator otherwise; it may be asked to listen on another channel. -/
  | poll (e : Event)
  /-- The coordinator is asked to listen on the channel. -/
  | setup
  | emit
  /-- Nobody can send any longer. -/
  | close
  /-- The listener is woken, if there is a reason for it. -/
  | hear
deriving DecidableEq, Repr

namespace ForegroundSystem

/-- A system whose coordinator has just been made, with a new channel. -/
def initial (config : CoordinatorConfig) (clock : Clock) (draws : Draws) : ForegroundSystem :=
  { system := .initial config clock draws }

/-- What the coordinator answers when it is asked to listen, on this channel or another. -/
def answer (s : ForegroundSystem) : ForegroundEvent → Option Bool
  | .poll .listen => if s.system.alive then some s.system.coordinator.listen.2 else none
  | .setup =>
      if s.closed || !s.system.alive then none else some s.system.coordinator.listen.2
  | _ => none

/-- The listener is woken, refreshes the polls, and stops where that is not possible any longer. -/
def hear (s : ForegroundSystem) : ForegroundSystem :=
  match s.listener with
  | none => s
  | some l =>
    match l.wake? s.sent with
    | some l' =>
      if s.system.alive then { s with system := s.system.step .refresh, listener := some l' }
      else { s with listener := none }
    | none => if s.closed then { s with listener := none } else s

/-- The system after an event.  Signals that nobody listens for are not kept. -/
def step (s : ForegroundSystem) : ForegroundEvent → ForegroundSystem
  | .poll e =>
      let system := s.system.step e
      { s with system, listener := if system.coordinator.listening then s.listener else none }
  | .setup =>
      match s.answer .setup with
      | none => s
      | some installed =>
        { s with
          system := s.system.step .listen
          listener := if installed then some (.joining s.sent) else s.listener }
  | .emit => if s.closed || s.listener.isNone then s else { s with sent := s.sent + 1 }
  | .close => { s with closed := true }
  | .hear => s.hear

/-- The system after a history. -/
def run (s : ForegroundSystem) (events : List ForegroundEvent) : ForegroundSystem :=
  events.foldl step s

/-- What the coordinator answers in a history when it is asked to listen. -/
def answers : ForegroundSystem → List ForegroundEvent → List Bool
  | _, [] => []
  | s, e :: rest => (s.answer e).toList ++ (s.step e).answers rest

end ForegroundSystem

end FeedPoller
