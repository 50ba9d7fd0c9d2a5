/-
One registered poll.

A registration is paused when its owner paused it or when a gate that applies to it is
closed.  That is a question about the gates of the moment, so it is computed and never
stored; the state that is stored says what the scheduler has done about it.  A run that
was begun goes on through pauses and even through the removal of its registration.
While it goes on, a request to run again is kept as a delay and honoured when it ends.
-/
import FeedPoller.Poll.Options
import FeedPoller.Time.DateTime

namespace FeedPoller

/-- What the scheduler has last done about a registration. -/
inductive PollState where
  | unscheduled
  | scheduled
  | running
  | paused
  | disposed
deriving DecidableEq, Repr, Inhabited

namespace PollState

/-- The word for a state in reports. -/
def name : PollState → String
  | .unscheduled => "unscheduled"
  | .scheduled => "scheduled"
  | .running => "running"
  | .paused => "paused"
  | .disposed => "disposed"

def all : List PollState := [.unscheduled, .scheduled, .running, .paused, .disposed]

/-- The state that a word in a report stands for. -/
def ofName? (s : String) : Option PollState := all.find? fun p => p.name == s

end PollState

/-- The two conditions of the process that a poll may depend on. -/
structure Gates where
  authGranted : Bool := true
  backendAvailable : Bool := true
deriving DecidableEq, Repr, Inhabited

/-- What a registration looks like from outside. -/
structure PollStatus where
  key : String
  state : PollState
  isPaused : Bool
  explicitlyPaused : Bool
  requiresAuth : Bool
  pauseWhenBackendDown : Bool
  intervalMillis : Nat
  registrationOrder : Nat
  runs : Nat
  failures : Nat
  lastCompletedAt : Option DateTime
deriving DecidableEq, Repr

/-- A registered poll. -/
structure Registration where
  id : Nat
  options : PollOptions
  /-- How many other registrations there were when this one was made. -/
  order : Nat
  explicitlyPaused : Bool := false
  state : PollState := .unscheduled
  /-- How often its timer has been cancelled, one that it did not have included. -/
  epoch : Nat := 0
  /-- The number of the timer armed for the next run. -/
  timer : Option Nat := none
  /-- Whether a run is going on that the next one has to wait for. -/
  inFlight : Bool := false
  /-- The delay asked for during a run, to be used when the run ends. -/
  pendingDelay : Option Duration := none
  /-- The registration that the run belongs to, if it was inherited from a replaced one. -/
  superseded : Option Nat := none
  runs : Nat := 0
  failures : Nat := 0
  lastCompletedAt : Option DateTime := none
deriving DecidableEq, Repr

namespace Registration

def key (r : Registration) : String := r.options.key

/-- Whether a gate that applies to the poll is closed. -/
def gateClosed (r : Registration) (g : Gates) : Bool :=
  (r.options.requiresAuth && !g.authGranted) ||
  (r.options.pauseWhenBackendDown && !g.backendAvailable)

/-- Whether the poll must not start a run. -/
def isPaused (r : Registration) (g : Gates) : Bool := r.explicitlyPaused || r.gateClosed g

/-- How a run that goes on for the registration is named: after the one it was begun for. -/
def runId (r : Registration) : Nat := r.superseded.getD r.id

/-- The run that the next one has to wait for. -/
def awaitedRun (r : Registration) : Option Nat := if r.inFlight then some r.runId else none

/-- The registration without a timer, and with no regard for one that has gone off already. -/
def cancelled (r : Registration) : Registration := { r with timer := none, epoch := r.epoch + 1 }

/-- The registration when every request for a run of it is forgotten. -/
def suspended (r : Registration) : Registration :=
  { r.cancelled with pendingDelay := none, state := .paused }

/-- The registration when a timer is to be armed for it in place of the one before. -/
def scheduled (r : Registration) : Registration := { r.cancelled with state := .scheduled }

/-- The registration when a run is asked for that has to wait for the end of another. -/
def parked (r : Registration) (delay : Duration) : Registration :=
  { r with pendingDelay := some delay, state := .running }

/-- The registration when a run of it begins. -/
def begun (r : Registration) : Registration :=
  { r with timer := none, state := .running, inFlight := true }

/-- The registration when its timer has gone off in vain, since it is paused. -/
def skipped (r : Registration) : Registration := { r with timer := none, state := .paused }

/-- The registration when a run of its own has ended. -/
def completed (r : Registration) (time : DateTime) (failed : Bool) : Registration :=
  { r with
    inFlight := false
    runs := r.runs + 1
    failures := if failed then r.failures + 1 else r.failures
    lastCompletedAt := some time }

/-- The registration when the run has ended that it inherited from a replaced one. -/
def relieved (r : Registration) : Registration := { r with inFlight := false, superseded := none }

/-- What the registration looks like from outside. -/
def status (r : Registration) (g : Gates) : PollStatus where
  key := r.key
  state := r.state
  isPaused := r.isPaused g
  explicitlyPaused := r.explicitlyPaused
  requiresAuth := r.options.requiresAuth
  pauseWhenBackendDown := r.options.pauseWhenBackendDown
  intervalMillis := r.options.interval.millis64
  registrationOrder := r.order
  runs := r.runs
  failures := r.failures
  lastCompletedAt := r.lastCompletedAt

end Registration

end FeedPoller
