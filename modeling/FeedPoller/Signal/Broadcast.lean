/-
Foreground signals.

A signal tells its listeners that the user has come back.  Signals carry nothing but
their number, so a channel is the count of signals sent.  It keeps the sixteen newest
for every listener.  A listener that fell further behind is woken once for all those
that are lost and then once for each of those that were kept.
-/
namespace FeedPoller

/-- How many signals a channel keeps. -/
def signalCapacity : Nat := 16

/-- A listener's place in a channel. -/
structure Listener where
  /-- How many signals it has dealt with. -/
  heard : Nat
deriving DecidableEq, Repr

namespace Listener

/-- A listener that joins when `sent` signals have been sent. -/
def joining (sent : Nat) : Listener := ⟨sent⟩

/-- One wake-up of a listener, when there is a reason for one. -/
def wake? (l : Listener) (sent : Nat) : Option Listener :=
  if l.heard + signalCapacity < sent then some ⟨sent - signalCapacity⟩
  else if l.heard < sent then some ⟨l.heard + 1⟩
  else none

/-- How many wake-ups a listener has before it has dealt with everything sent. -/
def wakeUps (l : Listener) (sent : Nat) : Nat := min (sent - l.heard) (signalCapacity + 1)

end Listener

end FeedPoller
