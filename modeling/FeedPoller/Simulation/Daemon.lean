/-
Playing a daemon.

A daemon is started from a settings file and a token file and then lives through a script:
it is asked for its status, told that the user is back, and waited for, and its token file
changes.  Fetches and probes take no time over the link it is given.  Time passes only
while the script waits, and only on the scheduler's clock; the wall clock stands still.
-/
import FeedPoller.Command.Query
import FeedPoller.Daemon.Launch
import FeedPoller.Health.Monitor
import FeedPoller.Health.Probe
import FeedPoller.Poll.System
import FeedPoller.Session.Follower
import FeedPoller.Signal.Broadcast

namespace FeedPoller.Simulation

/-- The files that a daemon finds, by path. -/
abbrev Files := List (String × FileContent)

namespace Files

/-- What is found at a path. -/
def at_ (files : Files) (path : String) : FileContent := (files.lookup path).getD .missing

/-- Whether a directory can be made: not where a file is, nor below one. -/
def canMakeDirectory (files : Files) (path : String) : Bool :=
  files.all fun (other, content) =>
    match content with
    | .bytes _ => path != other && !path.startsWith (other ++ "/")
    | _ => true

/-- The files after a change of one of them. -/
def change (files : Files) (path : String) (c : FileChange) : Files :=
  (path, (files.at_ path).change c) :: files.filter fun f => f.1 != path

end Files

/-- A step of a daemon's script. -/
inductive DaemonStep where
  /-- Wait until polls have run some number of times. -/
  | waitForRuns (runs : List (String × Nat))
  | waitForSignIn (v : Bool)
  /-- The token's file is replaced, or removed. -/
  | token (content : Option ByteArray)
  | status (json : Bool)
  | focus
  | nothing

/-- A daemon and what surrounds it. -/
structure DaemonWorld where
  configDirectory : String
  link : Http.Link
  files : Files
  feeds : List HttpFeed
  tokenPath : Option String
  system : System
  handles : List PollHandle
  store : FeedStore := {}
  /-- Who watches the token, unless there is no place for one. -/
  watcher : Option TokenWatcher
  /-- When the watcher's pause is over. -/
  pauseEnd : Option Instant := none
  /-- The backend's address and its monitor, if it is watched. -/
  monitor : Option (String × Monitor)
  follower : Follower := {}
  /-- How many foreground signals have been sent, and the listener's place among them. -/
  signals : Nat := 0
  listener : Listener := .joining 0

namespace DaemonWorld

def now (w : DaemonWorld) : Instant := w.system.now

/-- Whether somebody is signed in, as it is published. -/
def authWatch (w : DaemonWorld) : Watch := (w.watcher.map (·.watch)).getD (.new true)

/-- Whether the backend is up, as it is published. -/
def healthWatch (w : DaemonWorld) : Watch := (w.monitor.map (·.2.watch)).getD (.new true)

/-- What is in the token's file. -/
def tokenFile (w : DaemonWorld) : FileContent :=
  match w.tokenPath with
  | none => .missing
  | some path => w.files.at_ path

/-- A run begins, its feed is fetched, and it ends. -/
def fetch (w : DaemonWorld) (run : Run) : DaemonWorld :=
  let store := w.store.beginFetch run.key
  let outcome : FetchOutcome :=
    match w.feeds.find? fun f => f.key == run.key with
    | none => .panicked
    | some f => f.outcome w.link w.tokenFile
  { w with
    store := store.endFetch run.key outcome w.system.coordinator.clock.wall
    system := w.system.finish run.id outcome.isFailure }

/-- The timers that are due go off. -/
def fireTimers (w : DaemonWorld) : DaemonWorld :=
  (w.system.dueTimers.map (·.number)).foldl (fun w number =>
    match w.system.fire number with
    | (system, none) => { w with system }
    | (system, some run) => { w with system }.fetch run) w

/-- The token's watcher takes up a notice, or looks at the file when its pause is over. -/
def runWatcher (w : DaemonWorld) : DaemonWorld :=
  match w.watcher, w.pauseEnd with
  | none, _ => w
  | some t, none =>
    if t.notices == 0 then w
    else { w with pauseEnd := some (w.now.later TokenWatcher.pause) }
  | some t, some pauseEnd =>
    if w.now < pauseEnd then w
    else { w with watcher := some (t.turn w.tokenFile), pauseEnd := none }

/-- The monitor makes a probe if one is due. -/
def runMonitor (w : DaemonWorld) : DaemonWorld :=
  match w.monitor with
  | none => w
  | some (url, m) =>
    let m := m.beginProbe w.now
    match m.phase with
    | .probing => { w with monitor := some (url, m.endProbe (probeBackend url w.link)) }
    | _ => w

/-- The follower passes on what is published. -/
def runFollower (w : DaemonWorld) : DaemonWorld :=
  let (follower, c) := w.follower.turn w.system.coordinator w.healthWatch w.authWatch
  { w with follower, system := { w.system with coordinator := c } }

/-- The listener deals with one signal, if there is one. -/
def runListener (w : DaemonWorld) : DaemonWorld :=
  match w.listener.wake? w.signals with
  | none => w
  | some listener => { w with listener, system := w.system.step .refresh }

/-- Everybody's turn. -/
def turn (w : DaemonWorld) : DaemonWorld :=
  w.fireTimers.runWatcher.runMonitor.runFollower.runListener

/-- Let everything happen that needs no time, in at most so many turns. -/
def settle (w : DaemonWorld) : Nat → DaemonWorld
  | 0 => w
  | turns + 1 => w.turn.settle turns

/-- How many turns are enough for everything to happen. -/
def enoughTurns : Nat := 24

/-- When the next thing is due. -/
def nextDue? (w : DaemonWorld) : Option Instant :=
  let timers := w.system.coordinator.timers.map (·.deadline)
  let probe := w.monitor.toList.map (·.2.due)
  Instant.earliest? (timers ++ w.pauseEnd.toList ++ probe)

/-- Let the scheduler's clock go on to a point in time. -/
def passTo (w : DaemonWorld) (t : Instant) : DaemonWorld :=
  let c := w.system.coordinator
  let clock : Clock := { c.clock with now := t }
  { w with system := { w.system with coordinator := { c with clock } } }

/-- How long a script waits at most. -/
def patience : Duration := .ofSeconds 10

/-- Wait for a condition, going from one thing that is due to the next. -/
def waitUntil (condition : DaemonWorld → Bool) (limit : Instant) : Nat → DaemonWorld → DaemonWorld
  | 0, w => w
  | steps + 1, w =>
    let w := w.settle enoughTurns
    if condition w then w
    else
      match w.nextDue? with
      | none => w
      | some t => if t ≤ limit then waitUntil condition limit steps (w.passTo t) else w

/-- Wait for a condition. -/
def await (w : DaemonWorld) (condition : DaemonWorld → Bool) : DaemonWorld :=
  waitUntil condition (w.now.later patience) 100000 w

/-- Whether a poll has run some number of times. -/
def hasRun (w : DaemonWorld) (key : String) (runs : Nat) : Bool :=
  match w.system.coordinator.find? key with
  | none => false
  | some r => runs ≤ r.runs

/-- One step; some of them print something. -/
def step (w : DaemonWorld) : DaemonStep → DaemonWorld × Option (Except QueryError (List String))
  | .waitForRuns runs => (w.await fun w => runs.all fun (key, n) => w.hasRun key n, none)
  | .waitForSignIn v => (w.await fun w => w.system.coordinator.gates.authGranted == v, none)
  | .token content =>
    let change := match content with
      | none => .remove
      | some b => .write b
    let path := Settings.defaultTokenPath w.configDirectory
    let files := w.files.change path change
    let watcher := if w.tokenPath == some path then w.watcher.map (·.notify) else w.watcher
    ({ w with files, watcher }.settle enoughTurns, none)
  | .status json =>
    let c := w.system.coordinator
    let body := (StatusReport.make c w.store).encode.compact
    (w, some (statusCommand (some body) json c.clock.wall))
  | .focus =>
    let listeners := if w.system.coordinator.listening then 1 else 0
    ({ w with signals := w.signals + 1 }.settle enoughTurns, some (focusCommand (some listeners)))
  | .nothing => (w, none)

/-- Do the steps of a script, and collect what they print. -/
def play (w : DaemonWorld) : List DaemonStep → List (Except QueryError (List String))
  | [] => []
  | s :: steps =>
    let (w, printed) := w.step s
    printed.toList ++ w.play steps

/-- Start a daemon. -/
def start (configDirectory : String) (link : Http.Link) (files : Files) (wall : DateTime) :
    Except LaunchError DaemonWorld := do
  let path := Settings.path configDirectory
  match Settings.load path (files.at_ path) with
  | .error e => .error (.settings e)
  | .ok settings =>
    let tokenPath := settings.auth.resolvedTokenPath (some configDirectory)
    let watcher ← match tokenPath with
      | none => pure none
      | some path =>
        match TokenWatcher.start path files.canMakeDirectory (files.at_ path) with
        | .error e => .error (.token e)
        | .ok t => pure (some t)
    let clock : Clock := ⟨⟨0⟩, wall⟩
    let authenticated := (watcher.map (·.watch.value)).getD true
    let (coordinator, handles) := Coordinator.launch settings authenticated clock ⟨[], []⟩
    let monitor := settings.backend.healthUrl.map fun url =>
      (url, Monitor.start (.ofSeconds settings.backend.healthIntervalSeconds) ⟨0⟩)
    let w : DaemonWorld := {
      configDirectory, link, files
      feeds := settings.httpFeeds (some configDirectory)
      tokenPath, watcher, monitor
      system := { coordinator }
      handles := ← handles }
    return w.settle enoughTurns

end DaemonWorld

/-- Start a daemon and play a script on it. -/
def playDaemon (configDirectory : String) (link : Http.Link) (files : Files) (wall : DateTime)
    (steps : List DaemonStep) : Except LaunchError (List (Except QueryError (List String))) :=
  (DaemonWorld.start configDirectory link files wall).map (·.play steps)

end FeedPoller.Simulation
