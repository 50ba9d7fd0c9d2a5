/-
The world around a simulated coordinator.

Time in the world moves only when a script lets it.  Everything else that can happen is a
task: a timer going off, a run coming to its end, a listener, follower or monitor being
woken.  Timers belong to the coordinator; the other tasks that wait are kept here, each
with the time at which it is due and with the number of timers armed before it began to
wait.  Of all that is due, what has waited longest goes first.
-/
import FeedPoller.Health.Monitor
import FeedPoller.Session.Follower
import FeedPoller.Signal.Broadcast
import FeedPoller.Simulation.Script

namespace FeedPoller.Simulation

/-- Something that happened, as it is noted down. -/
inductive Happening where
  | started
  | acted (name : String) (answer : Answer) (atEnd : Bool)
  /-- A run or a fetch is about to end; a fetch does not say how. -/
  | ended (outcome : Option Outcome)
  | probing
  | probed (available : Bool)

/-- Where a happening stands among those of one call. -/
def Happening.rank : Happening → Nat
  | .started => 0
  | .acted _ _ atEnd => if atEnd then 2 else 1
  | .ended _ => 3
  | .probing => 0
  | .probed _ => 3

/-- A note: when, of which poll or monitor, in which of its calls, and what. -/
structure Note where
  time : Nat
  tag : String
  call : Nat
  what : Happening

/-- The order of notes: by time, tag, call and rank. -/
def Note.le (a b : Note) : Bool :=
  if a.time != b.time then a.time < b.time
  else if a.tag != b.tag then a.tag < b.tag
  else if a.call != b.call then a.call < b.call
  else a.what.rank ≤ b.what.rank

/-- How the runs of a registration go, and how many there have been. -/
structure Callback where
  id : Nat
  tag : String
  script : Script
  calls : Nat := 0

/-- A run on its way to its end. -/
inductive Progress where
  | call (c : Call)
  | fetch (f : Fetch)

/-- A task other than a timer. -/
inductive Task where
  | endRun (run : Run) (tag : String) (call : Nat) (progress : Progress)
  | listener
  | follower (index : Nat)
  | monitor (index : Nat)

/-- A task that waits. -/
structure Wait where
  due : Instant
  /-- How many timers had been armed when it began to wait. -/
  after : Nat
  task : Task

/-- A signal channel and who can still send on it. -/
structure Channel where
  sent : Nat := 0
  /-- Whether the script still has its handle. -/
  kept : Bool := true
  /-- Whether the session sends on it. -/
  ofSession : Bool := false

/-- The task that listens for foreground signals. -/
structure ListenerTask where
  channel : Nat
  place : Listener
  /-- It has been told to stop and will when it is next run. -/
  stopping : Bool := false

/-- Where a watched value comes from. -/
inductive Source where
  | watch (index : Nat)
  | monitor (index : Nat)
deriving DecidableEq

/-- A follower, what it follows, and whether it is still there. -/
structure FollowerTask where
  follower : Follower := {}
  health : Source
  auth : Source
  running : Bool := true

/-- A monitor, its script, and what the script has seen of it. -/
structure MonitorTask where
  monitor : Monitor
  script : List Probe
  calls : Nat := 0
  /-- The number of the value that the script saw last, while it watches. -/
  seen : Option Nat := some 0

/-- The state of a simulation. -/
structure World where
  system : System
  /-- Whether the script holds the coordinator, and a session. -/
  held : Bool := true
  session : Bool := false
  store : FeedStore := {}
  callbacks : List Callback := []
  /-- How many registrations have been tried. -/
  tried : Nat := 0
  handles : List PollHandle := []
  channels : List Channel := []
  listener : Option ListenerTask := none
  watches : List Watch := []
  followers : List FollowerTask := []
  /-- The watches that the script can publish to. -/
  healthSender : Option Nat := none
  authSender : Option Nat := none
  monitors : List MonitorTask := []
  waiting : List Wait := []
  notes : List Note := []

namespace World

/-- The wall clock's reading when a simulation begins: 1 January 2024. -/
def beginning : DateTime := ⟨1704067200, 0⟩

/-- A world with nothing but a coordinator. -/
def initial (config : CoordinatorConfig) (draws : List Nat) : World :=
  { system := .initial config ⟨⟨0⟩, beginning⟩ ⟨draws, []⟩ }

def now (w : World) : Instant := w.system.now

/-- The time in milliseconds. -/
def millis (w : World) : Nat := w.now.millis

/-- The wall clock's reading. -/
def wall (w : World) : DateTime := w.system.coordinator.clock.wall

/-- Note down that something happened. -/
def note (w : World) (tag : String) (call : Nat) (what : Happening) : World :=
  { w with notes := ⟨w.millis, tag, call, what⟩ :: w.notes }

/-! ### Waiting -/

/-- Let a task wait until it is due. -/
def wait (w : World) (due : Instant) (task : Task) : World :=
  { w with waiting := w.waiting ++ [⟨due, w.system.coordinator.armed, task⟩] }

/-- Whether the task that a condition describes is about to be run. -/
def isWoken (w : World) (p : Task → Bool) : Bool :=
  w.waiting.any fun k => decide (k.due ≤ w.now) && p k.task

/-- Run the listener soon. -/
def wakeListener (w : World) : World :=
  let isListener : Task → Bool := fun t => match t with | .listener => true | _ => false
  if w.listener.isNone || w.isWoken isListener then w else w.wait w.now .listener

/-- Run a follower soon. -/
def wakeFollower (w : World) (index : Nat) : World :=
  let isFollower : Task → Bool := fun t => match t with | .follower i => i == index | _ => false
  if w.isWoken isFollower then w else w.wait w.now (.follower index)

/-- Run every follower of a source soon. -/
def wakeFollowersOf (w : World) (source : Source) : World :=
  (w.followers.zipIdx).foldl
    (fun w (f, index) =>
      if f.running && (f.health == source || f.auth == source) then w.wakeFollower index else w) w

/-! ### Watched values -/

/-- The watched value of a source. -/
def watchOf (w : World) : Source → Watch
  | .watch i => w.watches.getD i default
  | .monitor i => (w.monitors[i]?.map (·.monitor.watch)).getD default

/-- Change the watched value of a source. -/
def modifyWatch (w : World) (source : Source) (f : Watch → Watch) : World :=
  match source with
  | .watch i => { w with watches := w.watches.modify i f }
  | .monitor i =>
    { w with monitors := w.monitors.modify i fun m =>
        { m with monitor := { m.monitor with watch := f m.monitor.watch } } }

/-! ### Letting go -/

/-- Whether anybody can still send on a channel. -/
def isOpen (w : World) (channel : Channel) : Bool :=
  channel.kept || (channel.ofSession && (w.session || w.followers.any (·.running)))

/-- Wake the listener if nobody can send to it any longer. -/
def noticeClosing (w : World) : World :=
  match w.listener with
  | none => w
  | some l =>
    match w.channels[l.channel]? with
    | none => w
    | some channel => if w.isOpen channel then w else w.wakeListener

/-- Release the coordinator if neither the script nor a follower holds it. -/
def noticeRelease (w : World) : World :=
  let w :=
    if w.held || w.followers.any (·.running) then w
    else { w with system := w.system.step .release }
  w.noticeClosing

end World

end FeedPoller.Simulation
