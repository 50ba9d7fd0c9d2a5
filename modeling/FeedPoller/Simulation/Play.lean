/-
Playing a script.

Every step is followed by a look at the world: what the step answered, what has happened
since the step before, the random draws made, and how every poll and gate stands.
-/
import FeedPoller.Simulation.Tasks

namespace FeedPoller.Simulation

/-- A row of the table of polls. -/
structure PollRow where
  key : String
  state : PollState
  isPaused : Bool
  explicitlyPaused : Bool
  order : Nat
  runs : Nat
  failures : Nat
  /-- When the last run ended, in milliseconds from the beginning. -/
  lastCompleted : Option Int

/-- What is seen after a step. -/
structure Look where
  answer : Answer
  time : Nat
  notes : List Note
  draws : List (Nat × Nat)
  /-- The polls and the gates, while the script holds the coordinator. -/
  polls : Option (List PollRow)
  gates : Option (Gates × Bool)

namespace World

/-- Begin to follow two watched values; what was followed before is let go. -/
def follow (w : World) (health : Option Bool) (monitor : Nat) (auth : Bool) : World × Answer :=
  let closing (w : World) : Option Nat → World
    | none => w
    | some i => (w.modifyWatch (.watch i) .close).wakeFollowersOf (.watch i)
  let source? : Option (World × Source) :=
    match health with
    | some v =>
      some ({ w with watches := w.watches ++ [.new v] }, .watch w.watches.length)
    | none =>
      match w.monitors[monitor]?.bind (·.seen) with
      | some _ => some (w.modifyWatch (.monitor monitor) .join, .monitor monitor)
      | none => none
  match source? with
  | none => (w, .noMonitor)
  | some (w, healthSource) =>
    let authIndex := w.watches.length
    let w := { w with watches := w.watches ++ [.new auth] }
    let w := closing (closing w w.healthSender) w.authSender
    let healthSender := match healthSource with
      | .watch i => some i
      | .monitor _ => none
    let index := w.followers.length
    let task : FollowerTask := { health := healthSource, auth := .watch authIndex }
    let followers := w.followers ++ [task]
    ({ w with followers, healthSender, authSender := some authIndex }.wakeFollower index,
      .nothing)

/-- Publish to one of the script's watches. -/
def send (w : World) (sender : Option Nat) (v : Bool) : World × Answer :=
  match sender with
  | none => (w, .nothing)
  | some i =>
    let (watch, seen) := (w.watchOf (.watch i)).send v
    ((w.modifyWatch (.watch i) fun _ => watch).wakeFollowersOf (.watch i), .flag seen)

/-- Close one of the script's watches. -/
def closeSender (w : World) (sender : Option Nat) : World × Answer :=
  match sender with
  | none => (w, .flag false)
  | some i => ((w.modifyWatch (.watch i) .close).wakeFollowersOf (.watch i), .flag true)

/-- What the script sees of a monitor. -/
def lookAtMonitor (w : World) (index : Nat) : World × Answer :=
  match w.monitors[index]? with
  | none => (w, .noMonitor)
  | some t =>
    let watch := t.monitor.watch
    let value := t.seen.map fun seen =>
      (watch.value, if watch.published then some (watch.hasNews seen) else none)
    let t := { t with seen := t.seen.map fun _ => watch.version }
    ({ w with monitors := w.monitors.set index t },
      .monitor value (t.monitor.phase == .ended))

/-- Stop watching a monitor. -/
def dropMonitor (w : World) (index : Nat) : World × Answer :=
  match w.monitors[index]? with
  | none => (w, .flag false)
  | some t =>
    if t.seen.isNone then (w, .flag false)
    else
      let w := { w with monitors := w.monitors.set index { t with seen := none } }
      (w.modifyWatch (.monitor index) .leave, .flag true)

/-- Do one step. -/
def step (w : World) : Step → World × Answer
  | .operation o => w.perform o
  | .settle => (w.settle, .nothing)
  | .advance d => (w.advance d, .nothing)
  | .feed key => (w, .feed (w.store.get? key))
  | .feeds => (w, .feeds w.store.entries)
  | .feedBegin key => ({ w with store := w.store.beginFetch key }, .nothing)
  | .feedComplete key data =>
    ({ w with store := w.store.completeFetch key data w.wall }, .nothing)
  | .feedFail key error => ({ w with store := w.store.failFetch key error }, .nothing)
  | .feedRemove key => ({ w with store := w.store.remove key }, .nothing)
  | .report =>
    if w.session then (w, .report (.make w.system.coordinator w.store)) else (w, .noSession)
  | .foregroundRegained =>
    if w.session then let (w, n) := w.emit 0; (w, .count n) else (w, .noSession)
  | .follow health monitor auth =>
    if w.session then w.follow health monitor auth else (w, .noSession)
  | .sendHealth v => w.send w.healthSender v
  | .sendAuth v => w.send w.authSender v
  | .dropHealth =>
    let (w, answer) := w.closeSender w.healthSender
    ({ w with healthSender := none }, answer)
  | .dropAuth =>
    let (w, answer) := w.closeSender w.authSender
    ({ w with authSender := none }, answer)
  | .followFinished =>
    (w, match w.followers.getLast? with
      | none => .nothing
      | some t => .flag !t.running)
  | .monitor interval script =>
    let index := w.monitors.length
    let task : MonitorTask := { monitor := .start interval w.now, script }
    ({ w with monitors := w.monitors ++ [task] }.wait w.now (.monitor index), .count index)
  | .monitorState index => w.lookAtMonitor index
  | .monitorDrop index => w.dropMonitor index
  | .drop =>
    let answer := .flags [w.held, w.session]
    ({ w with held := false, session := false }.noticeRelease, answer)
  | .unknown => (w, .unknownStep)

/-- The row of a registration in the table of polls. -/
def pollRow (gates : Gates) (r : Registration) : PollRow where
  key := r.key
  state := r.state
  isPaused := r.isPaused gates
  explicitlyPaused := r.explicitlyPaused
  order := r.order
  runs := r.runs
  failures := r.failures
  lastCompleted := r.lastCompletedAt.map fun t =>
    (t.seconds - beginning.seconds) * 1000 + ((t.nanos / 1000000 : Nat) : Int)

/-- Look at the world after a step, and begin new notes. -/
def look (w : World) (answer : Answer) : World × Look :=
  let c := w.system.coordinator
  let look : Look := {
    answer
    time := w.millis
    notes := w.notes.reverse.mergeSort Note.le
    draws := c.draws.made.reverse
    polls := if w.held then some (c.registry.map (pollRow c.gates)) else none
    gates := if w.held then some (c.gates, c.disposed) else none }
  ({ w.withCoordinator { c with draws := { c.draws with made := [] } } with notes := [] }, look)

end World

/-- Whether a simulation has a bare coordinator or a session around it. -/
inductive Mode where
  | coordinator
  | session
deriving DecidableEq, Repr

/-- The world at the beginning.  A session makes a signal and installs the listener on it. -/
def World.new (mode : Mode) (config : CoordinatorConfig) (draws : List Nat) : World :=
  let w := World.initial config draws
  match mode with
  | .coordinator => w
  | .session =>
    let channel : Channel := { ofSession := true }
    ({ w with session := true, channels := [channel] }.focusSetup 0 channel).1

/-- Play a script from the beginning; one look for each step. -/
def play (mode : Mode) (config : CoordinatorConfig) (draws : List Nat) (script : List Step) :
    List Look :=
  (script.foldl (fun (w, looks) step =>
    let (w, answer) := World.step w step
    let (w, look) := w.look answer
    (w, look :: looks)) (World.new mode config draws, ([] : List Look))).2.reverse

end FeedPoller.Simulation
