/-
A coordinator among its runs.

The coordinator decides when runs begin and learns when they end; in between they
belong to nobody.  A system is a coordinator together with the runs that have begun and
not ended, in the order in which they began.  Its events are everything that can happen
to it: the calls of its users, time passing, a timer going off and a run ending.  Users
may also let go of the coordinator; its polls are then gone and runs end unnoticed.

A timer that goes off has to wait for its turn at the coordinator, and other calls may
come first.  If one of them cancels the timer it comes too late: the timer has left the
coordinator's table but will still have its turn.

Every history of a coordinator is a list of events, whatever chooses them.
-/
import FeedPoller.Poll.Coordinator

namespace FeedPoller

/-- A run that has begun and not ended, named by the registration it was begun for. -/
structure Run where
  id : Nat
  key : String
deriving DecidableEq, Repr

/-- A coordinator and its runs. -/
structure System where
  coordinator : Coordinator
  /-- Whether anybody still holds the coordinator. -/
  alive : Bool := true
  /-- The timers that have gone off and wait for their turn, cancelled meanwhile or not. -/
  woken : List Timer := []
  runs : List Run := []
deriving Repr

/-- Something that happens to a system. -/
inductive Event where
  | register (options : PollOptions)
  | cleanup (handle : PollHandle)
  | pause (key : String)
  | resume (key : String) (jitter : Bool)
  | pauseHealthAware
  | resumeHealthAware (jitter : Bool)
  | pauseAuthenticated
  | resumeAuthenticated
  | refresh
  | listen
  | forceGates (gates : Gates)
  | dispose
  /-- Nobody holds the coordinator any longer. -/
  | release
  /-- Time passes, on both clocks. -/
  | elapse (d : Duration)
  /-- The timer of this number goes off, and waits for its turn. -/
  | wake (number : Nat)
  /-- The timer of this number has its turn. -/
  | fire (number : Nat)
  /-- The run that was begun for this registration ends. -/
  | finish (id : Nat) (failed : Bool)
deriving DecidableEq, Repr

namespace System

/-- A system whose coordinator has just been made. -/
def initial (config : CoordinatorConfig) (clock : Clock) (draws : Draws) : System :=
  { coordinator := { config, clock, draws } }

/-- The time on the scheduler's clock. -/
def now (s : System) : Instant := s.coordinator.clock.now

/-- The system after a call that nobody can make once the coordinator is gone. -/
def call (s : System) (f : Coordinator → Coordinator) : System :=
  if s.alive then { s with coordinator := f s.coordinator } else s

/-- The timers whose time has come, in the order in which they were armed. -/
def dueTimers (s : System) : List Timer :=
  s.coordinator.timers.filter fun t => decide (t.deadline ≤ s.now)

/-- A timer goes off.  Nothing happens if there is no such timer or its time has not come. -/
def wake (s : System) (number : Nat) : System :=
  match s.dueTimers.find? fun t => t.number == number with
  | none => s
  | some t => { s with woken := s.woken ++ [t] }

/-- A timer that has gone off, or does so now, has its turn. -/
def fire (s : System) (number : Nat) : System × Option Run :=
  if !s.alive then (s, none)
  else
    match (s.dueTimers ++ s.woken).find? fun t => t.number == number with
    | none => (s, none)
    | some t =>
      let s := { s with woken := s.woken.filter fun u => u.number != number }
      match s.coordinator.beginRun t with
      | (c, none) => ({ s with coordinator := c }, none)
      | (c, some r) =>
        let run : Run := ⟨r.id, r.key⟩
        ({ s with coordinator := c, runs := s.runs ++ [run] }, some run)

/-- A run ends.  Nothing happens if no such run is going on. -/
def finish (s : System) (id : Nat) (failed : Bool) : System :=
  if s.runs.any (·.id == id) then
    { s with runs := s.runs.eraseP (·.id == id) }.call (·.finishRun id failed)
  else s

/-- Nobody holds the coordinator any longer, and what it held is gone. -/
def release (s : System) : System :=
  { s with alive := false, coordinator := { s.coordinator with registry := [], timers := [] } }

/-- Time passes. -/
def elapse (s : System) (d : Duration) : System :=
  { s with coordinator := { s.coordinator with clock := s.coordinator.clock.advance d } }

/-- The system after an event. -/
def step (s : System) : Event → System
  | .register o => s.call fun c => (c.register o).1
  | .cleanup h => s.call (·.cleanup h)
  | .pause key => s.call (·.pause key)
  | .resume key jitter => s.call (·.resume key jitter)
  | .pauseHealthAware => s.call (·.pauseHealthAware)
  | .resumeHealthAware jitter => s.call (·.resumeHealthAware jitter)
  | .pauseAuthenticated => s.call (·.pauseAuthenticated)
  | .resumeAuthenticated => s.call (·.resumeAuthenticated)
  | .refresh => s.call fun c => c.refresh.1
  | .listen => s.call fun c => c.listen.1
  | .forceGates g => s.call (·.forceGates g)
  | .dispose => s.call (·.dispose)
  | .release => s.release
  | .elapse d => s.elapse d
  | .wake number => s.wake number
  | .fire number => (s.fire number).1
  | .finish id failed => s.finish id failed

/-- The system after a history. -/
def run (s : System) (events : List Event) : System := events.foldl step s

end System

end FeedPoller
