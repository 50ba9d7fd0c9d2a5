/-
Following the signals of a session.

A follower watches two values, whether the backend is up and whether the user is signed
in, and passes every news on to the coordinator.  At first it passes on both values as
they are.  After that it hears of each side until that side's publisher is gone, and it
is finished when both are.  A publisher's last value is heard before its end.
-/
import FeedPoller.Session.Gate
import FeedPoller.Signal.Watch

namespace FeedPoller

/-- What a follower knows of one of its two sides. -/
structure Side where
  /-- The number of the value seen last. -/
  seen : Nat
  /-- Whether the publisher may have more to say. -/
  live : Bool := true
deriving DecidableEq, Repr

namespace Side

/-- What there is to hear on a side. -/
inductive Word where
  | value (v : Bool)
  | ended
deriving DecidableEq, Repr

/-- The next word on a side, if there is one, and the side after it. -/
def hear? (s : Side) (w : Watch) : Option (Word × Side) :=
  if !s.live then none
  else if w.hasNews s.seen then some (.value w.value, { s with seen := w.version })
  else if !w.published then some (.ended, { s with live := false })
  else none

end Side

/-- A follower of two watched values. -/
structure Follower where
  started : Bool := false
  health : Side := ⟨0, true⟩
  auth : Side := ⟨0, true⟩
deriving DecidableEq, Repr

namespace Follower

/-- Whether both publishers are gone. -/
def finished (f : Follower) : Bool := f.started && !f.health.live && !f.auth.live

/-- The beginning: both values as they are. -/
def start (f : Follower) (c : Coordinator) (health auth : Watch) : Follower × Coordinator :=
  let c := (c.setBackendAvailable health.value).1
  let c := (c.setAuthenticated auth.value).1
  ({ f with started := true, health := ⟨health.version, true⟩, auth := ⟨auth.version, true⟩ }, c)

/-- Hear one word about the backend, if there is one. -/
def hearHealth (f : Follower) (c : Coordinator) (w : Watch) : Follower × Coordinator :=
  match f.health.hear? w with
  | none => (f, c)
  | some (.value v, side) => ({ f with health := side }, (c.setBackendAvailable v).1)
  | some (.ended, side) => ({ f with health := side }, c)

/-- Hear one word about the user, if there is one. -/
def hearAuth (f : Follower) (c : Coordinator) (w : Watch) : Follower × Coordinator :=
  match f.auth.hear? w with
  | none => (f, c)
  | some (.value v, side) => ({ f with auth := side }, (c.setAuthenticated v).1)
  | some (.ended, side) => ({ f with auth := side }, c)

/--
Hear everything there is: on each side at most one value, since it is the latest one,
and at most one end.
-/
def turn (f : Follower) (c : Coordinator) (health auth : Watch) : Follower × Coordinator :=
  let (f, c) := if f.started then (f, c) else f.start c health auth
  let (f, c) := f.hearHealth c health
  let (f, c) := f.hearAuth c auth
  let (f, c) := f.hearHealth c health
  f.hearAuth c auth

end Follower

end FeedPoller
