/-
The scheduler of polls.

A coordinator holds the registered polls, the timers armed for them, the two gates and
its clocks.  Its operations are functions from one coordinator to the next; the runs
themselves happen elsewhere and are announced by `beginRun` and `finishRun`.

Timers are numbered in the order in which they are armed.  A registration remembers the
number of its own timer, so that it can be cancelled, and the cancellations are counted.
A timer carries the count of the time when it was armed.  One that had gone off before it
was cancelled, and comes to start a run only afterwards, is known by its old count and
starts nothing.  All counts are without bound.

Arming is the only operation that can fail, when a deadline lies beyond what the clock
can name; the registration is then left without a timer.
-/
import FeedPoller.Poll.Clock
import FeedPoller.Poll.Registration

namespace FeedPoller

/-- How registrations are spread in time. -/
structure CoordinatorConfig where
  /-- The time between the first runs of polls registered one after the other. -/
  staggerStep : Duration := .ofSeconds 1
  /-- The upper bound of the random delay when polls are resumed together. -/
  jitterMax : Duration := .ofMillis 5000
deriving DecidableEq, Repr

/-- A timer for the next run of a registration. -/
structure Timer where
  number : Nat
  /-- The registration it was armed for. -/
  poll : Nat
  /-- How often that registration's timer had been cancelled then. -/
  epoch : Nat
  deadline : Instant
deriving DecidableEq, Repr

/-- What a successful registration gives back: it names that registration for good. -/
structure PollHandle where
  key : String
  id : Nat
deriving DecidableEq, Repr

/-- The scheduler's state. -/
structure Coordinator where
  config : CoordinatorConfig
  clock : Clock
  draws : Draws
  registry : List Registration := []
  /-- The armed timers, in the order in which they were armed. -/
  timers : List Timer := []
  /-- How many timers have been armed so far. -/
  armed : Nat := 0
  gates : Gates := {}
  nextId : Nat := 0
  /-- Whether a listener for foreground signals is installed. -/
  listening : Bool := false
  disposed : Bool := false
deriving Repr

namespace Coordinator

/-- The registration of a key. -/
def find? (c : Coordinator) (key : String) : Option Registration :=
  c.registry.find? fun r => r.key == key

/-- The registration with an id. -/
def findId? (c : Coordinator) (id : Nat) : Option Registration :=
  c.registry.find? fun r => r.id == id

/-- Put a registration in the place of the one with its id. -/
def put (c : Coordinator) (r : Registration) : Coordinator :=
  { c with registry := c.registry.map fun q => if q.id == r.id then r else q }

/-! ### Timers -/

/-- Stop the timer of a registration, if it has one. -/
def disarm (c : Coordinator) (r : Registration) : Coordinator :=
  { c with timers := c.timers.filter fun t => r.timer != some t.number }

/-- Arm a timer for a registration. -/
def arm (c : Coordinator) (r : Registration) (deadline : Instant) : Coordinator :=
  { c.put { r with timer := some c.armed } with
    timers := c.timers ++ [⟨c.armed, r.id, r.epoch, deadline⟩]
    armed := c.armed + 1 }

/--
Ask for a run of a registration after a delay, in place of what was asked for before.
While a run goes on the delay is kept for its end.
-/
def schedule (c : Coordinator) (r : Registration) (delay : Duration) : Coordinator :=
  if r.inFlight then c.put (r.parked delay)
  else
    match c.clock.now.after? delay with
    | some deadline => (c.disarm r).arm r.scheduled deadline
    | none => (c.disarm r).put r.scheduled

/-- Stop a registration from starting runs until somebody asks for one again. -/
def suspend (c : Coordinator) (r : Registration) : Coordinator := (c.disarm r).put r.suspended

/-- Take a registration out of the registry. -/
def remove (c : Coordinator) (r : Registration) : Coordinator :=
  { c.disarm r with registry := c.registry.filter fun q => q.id != r.id }

/-! ### Registering -/

/-- The delay before the first run of the registration in a place. -/
def staggerDelay (c : Coordinator) (order : Nat) : Duration :=
  c.config.staggerStep.times (min order (Nat.pow 2 32 - 1))

/-- A new registration, which waits for the end of `awaited` if that run is going on. -/
def newcomer (c : Coordinator) (options : PollOptions) (awaited : Option Nat) : Registration :=
  { id := c.nextId
    options
    order := c.registry.length
    inFlight := awaited.isSome
    superseded := awaited }

/-- Put a new registration at the end. -/
def join (c : Coordinator) (r : Registration) : Coordinator :=
  { c with registry := c.registry ++ [r], nextId := c.nextId + 1 }

/-- Let a new registration join and ask for its first run, unless a gate is closed. -/
def append (c : Coordinator) (options : PollOptions) (awaited : Option Nat) :
    Coordinator × Except RegisterError PollHandle :=
  let r := c.newcomer options awaited
  let delay := c.staggerDelay r.order
  let c := c.join r
  if r.gateClosed c.gates then (c.put { r with state := .paused }, .ok ⟨options.key, r.id⟩)
  else
    (c.schedule r delay,
      if !r.inFlight && (c.clock.now.after? delay).isNone then .error .deadlineOutOfReach
      else .ok ⟨options.key, r.id⟩)

/-- The coordinator without the registration of a key. -/
def vacate (c : Coordinator) (key : String) : Coordinator :=
  match c.find? key with
  | none => c
  | some r => c.remove r

/-- The run that a new registration of a key has to wait for. -/
def awaitedFor (c : Coordinator) (key : String) : Option Nat :=
  (c.find? key).bind (·.awaitedRun)

/--
Register a poll.  An earlier registration of the key is replaced; if a run is going on
for it, the new one waits for that run to end before its own first.
-/
def register (c : Coordinator) (options : PollOptions) :
    Coordinator × Except RegisterError PollHandle :=
  match options.fault? with
  | some e => (c, .error e)
  | none =>
    if c.disposed then (c, .error .disposed)
    else (c.vacate options.key).append options (c.awaitedFor options.key)

/-- Remove the registration that a handle was given for, if it is still there. -/
def cleanup (c : Coordinator) (h : PollHandle) : Coordinator :=
  match c.findId? h.id with
  | none => c
  | some r => c.remove r

/-! ### Pausing and resuming one poll -/

/-- Pause a poll until it is resumed by name. -/
def pause (c : Coordinator) (key : String) : Coordinator :=
  match c.find? key with
  | none => c
  | some r => c.suspend { r with explicitlyPaused := true }

/-- The delay for one resumed poll: random if jitter is wanted and allowed, else none. -/
def resumeDelay (c : Coordinator) (jitter : Bool) : Duration × Coordinator :=
  let bound := c.config.jitterMax.millis64
  if !jitter || bound == 0 then (.zero, c)
  else
    let (ms, draws) := c.draws.below bound
    (.ofMillis ms, { c with draws })

/--
Lift the explicit pause of a poll and ask for a run.  Nothing happens while one of its
gates is closed, or when it is not paused at all.
-/
def resume (c : Coordinator) (key : String) (jitter : Bool) : Coordinator :=
  match c.find? key with
  | none => c
  | some r =>
    if r.gateClosed c.gates then c
    else if !r.explicitlyPaused && r.state != .paused then c
    else
      let (delay, c) := c.resumeDelay jitter
      c.schedule { r with explicitlyPaused := false } delay

/-! ### Gates -/

/-- Suspend every registration that satisfies a condition. -/
def suspendWhere (c : Coordinator) (applies : Registration → Bool) : Coordinator :=
  (c.registry.filter applies).foldl suspend c

/-- Ask for a run of every suspended registration that satisfies a condition and may run. -/
def resumeWhere (c : Coordinator) (applies : Registration → Bool) (jitter : Bool) :
    Coordinator :=
  let eligible := c.registry.filter fun r =>
    applies r && r.state == .paused && !r.isPaused c.gates
  eligible.foldl (fun c r => let (delay, c) := c.resumeDelay jitter; c.schedule r delay) c

/-- The backend went down. -/
def pauseHealthAware (c : Coordinator) : Coordinator :=
  { c with gates := { c.gates with backendAvailable := false } }.suspendWhere
    (·.options.pauseWhenBackendDown)

/-- The backend is up. -/
def resumeHealthAware (c : Coordinator) (jitter : Bool) : Coordinator :=
  { c with gates := { c.gates with backendAvailable := true } }.resumeWhere
    (·.options.pauseWhenBackendDown) jitter

/-- The user signed out. -/
def pauseAuthenticated (c : Coordinator) : Coordinator :=
  { c with gates := { c.gates with authGranted := false } }.suspendWhere (·.options.requiresAuth)

/-- The user is signed in. -/
def resumeAuthenticated (c : Coordinator) : Coordinator :=
  { c with gates := { c.gates with authGranted := true } }.resumeWhere
    (·.options.requiresAuth) false

/-- Set the gates without touching any registration. -/
def forceGates (c : Coordinator) (gates : Gates) : Coordinator := { c with gates }

/-! ### Foreground signals -/

/-- The registrations that a refresh applies to: those that may run and do not. -/
def refreshable (c : Coordinator) : List Registration :=
  c.registry.filter fun r => !r.isPaused c.gates && !r.inFlight

/-- Run every active idle poll now; the number of polls comes with it. -/
def refresh (c : Coordinator) : Coordinator × Nat :=
  if c.disposed then (c, 0)
  else (c.refreshable.foldl (fun c r => c.schedule r .zero) c, c.refreshable.length)

/-- Install a listener for foreground signals; only the first one is taken. -/
def listen (c : Coordinator) : Coordinator × Bool :=
  if c.disposed || c.listening then (c, false) else ({ c with listening := true }, true)

/-! ### The end -/

/-- Stop for good: no timer and no registration is left, and none can be added. -/
def dispose (c : Coordinator) : Coordinator :=
  if c.disposed then c
  else
    { c.registry.foldl disarm c with disposed := true, listening := false, registry := [] }

/-! ### Runs -/

/-- Strike a timer off that has gone off. -/
def strike (c : Coordinator) (t : Timer) : Coordinator :=
  { c with timers := c.timers.filter fun u => u.number != t.number }

/--
A timer has gone off.  It starts a run of its registration, which is given back, unless it
has been cancelled or a gate has been closed behind its back.
-/
def beginRun (c : Coordinator) (t : Timer) : Coordinator × Option Registration :=
  let c := c.strike t
  if c.disposed then (c, none)
  else
    match c.findId? t.poll with
    | none => (c, none)
    | some r =>
      if r.epoch != t.epoch then (c, none)
      else if r.isPaused c.gates then (c.put r.skipped, none)
      else (c.put r.begun, some r.begun)

/-- After a run: ask for the next one, unless the poll is paused. -/
def settle (c : Coordinator) (r : Registration) : Coordinator :=
  if c.disposed then c.put r
  else if r.isPaused c.gates then c.put { r with state := .paused, pendingDelay := none }
  else c.schedule { r with pendingDelay := none } (r.pendingDelay.getD r.options.interval)

/--
A run has ended.  It counts for the registration it was begun for; if that one has been
replaced, the replacement only learns that it need not wait any longer.
-/
def finishRun (c : Coordinator) (id : Nat) (failed : Bool) : Coordinator :=
  match c.findId? id with
  | some r => c.settle (r.completed c.clock.wall failed)
  | none =>
    match c.registry.find? fun r => r.superseded == some id with
    | some r => c.settle r.relieved
    | none => c

/-! ### Reports -/

/-- What the poll of a key looks like from outside. -/
def status? (c : Coordinator) (key : String) : Option PollStatus :=
  (c.find? key).map (·.status c.gates)

/-- What every poll looks like from outside, in the order of registration. -/
def statuses (c : Coordinator) : List PollStatus := c.registry.map (·.status c.gates)

/-- The registered keys, in the order of registration. -/
def keys (c : Coordinator) : List String := c.registry.map (·.key)

end Coordinator

end FeedPoller
