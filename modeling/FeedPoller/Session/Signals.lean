/-
A session among its signals.

The follower of a session is a task of its own.  While it runs, values are sent on the two
signals, the senders go away, and the coordinator is called from elsewhere; all of this
happens in any order.  The steps of the follower are taken one by one: it passes on the first
value of either signal, backend first, and after that hears one word at a time.
-/
import FeedPoller.Poll.System
import FeedPoller.Session.Follower

namespace FeedPoller

/-- The two signals that a session follows: whether the backend is up, and the user signed in. -/
inductive Signal where
  | health
  | auth
deriving DecidableEq, Repr

/-- The gate that a signal opens and closes. -/
def Gates.of (g : Gates) : Signal → Bool
  | .health => g.backendAvailable
  | .auth => g.authGranted

/-- A system, the two signals, and the follower that passes them on. -/
structure SignalSystem where
  system : System
  health : Watch
  auth : Watch
  follower : Follower := {}
  /-- Whether the first word about the backend has been passed on. -/
  begun : Bool := false
deriving Repr

/-- Something that happens to a session. -/
inductive SignalEvent where
  /-- What happens to the coordinator otherwise. -/
  | poll (e : Event)
  | send (signal : Signal) (value : Bool)
  /-- The sender of a signal is gone. -/
  | drop (signal : Signal)
  /-- The follower passes on the first value of a signal. -/
  | greet (signal : Signal)
  /-- The follower hears a word on a signal, if there is one. -/
  | hear (signal : Signal)
deriving DecidableEq, Repr

namespace SignalSystem

/-- A system whose follower is about to begin, with two new signals. -/
def initial (system : System) (health auth : Bool) : SignalSystem :=
  { system, health := .new health, auth := .new auth }

def watch (s : SignalSystem) : Signal → Watch
  | .health => s.health
  | .auth => s.auth

/-- The session with another state of a signal. -/
def withWatch (s : SignalSystem) (signal : Signal) (w : Watch) : SignalSystem :=
  match signal with
  | .health => { s with health := w }
  | .auth => { s with auth := w }

/-- The session after a step of its follower. -/
def followed (s : SignalSystem) (f : Follower) (c : Coordinator) : SignalSystem :=
  { s with follower := f, system := { s.system with coordinator := c } }

/-- The first value of a signal is passed on; the user's turn comes after the backend's. -/
def greet (s : SignalSystem) : Signal → SignalSystem
  | .health =>
      if s.begun then s
      else
        { s.followed { s.follower with health := ⟨s.health.version, true⟩ }
            (s.system.coordinator.setBackendAvailable s.health.value).1 with begun := true }
  | .auth =>
      if !s.begun || s.follower.started then s
      else
        s.followed { s.follower with started := true, auth := ⟨s.auth.version, true⟩ }
          (s.system.coordinator.setAuthenticated s.auth.value).1

/-- One word is heard on a signal, if there is one. -/
def hear (s : SignalSystem) (signal : Signal) : SignalSystem :=
  if !s.follower.started then s
  else
    let (f, c) := match signal with
      | .health => s.follower.hearHealth s.system.coordinator s.health
      | .auth => s.follower.hearAuth s.system.coordinator s.auth
    s.followed f c

/-- The session after an event.  Nobody can send on a signal whose sender is gone. -/
def step (s : SignalSystem) : SignalEvent → SignalSystem
  | .poll e => { s with system := s.system.step e }
  | .send signal value =>
      if (s.watch signal).published then s.withWatch signal ((s.watch signal).send value).1 else s
  | .drop signal => s.withWatch signal (s.watch signal).close
  | .greet signal => s.greet signal
  | .hear signal => s.hear signal

/-- The session after a history. -/
def run (s : SignalSystem) (events : List SignalEvent) : SignalSystem := events.foldl step s

/-- The follower has nothing left to do: no step of it would change anything. -/
def Settled (s : SignalSystem) : Prop := ∀ signal, s.greet signal = s ∧ s.hear signal = s

end SignalSystem

end FeedPoller
