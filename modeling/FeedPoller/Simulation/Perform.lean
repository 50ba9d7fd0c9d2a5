/-
Performing operations in a simulated world.

An operation goes to the coordinator through the script's own hold on it, so it is refused
once the script has let go.  Handles and signals are things of their own: a handle reaches
its coordinator as long as anybody holds that, and a signal can be sent as long as its
handle is kept.
-/
import FeedPoller.Simulation.World
import FeedPoller.Text.Padding

namespace FeedPoller.Simulation.World

/-- The world with another coordinator. -/
def withCoordinator (w : World) (c : Coordinator) : World :=
  { w with system := { w.system with coordinator := c } }

/-- Do something to the coordinator that the script holds. -/
def reach (w : World) (f : Coordinator → Coordinator × Answer) : World × Answer :=
  if w.held then
    let (c, answer) := f w.system.coordinator
    (w.withCoordinator c, answer)
  else (w, .dropped)

/-- Do something to the coordinator that has no answer. -/
def change (w : World) (f : Coordinator → Coordinator) : World × Answer :=
  w.reach fun c => (f c, .nothing)

/-- Ask the coordinator something. -/
def ask (w : World) (f : Coordinator → Answer) : World × Answer :=
  w.reach fun c => (c, f c)

/-- Do something to the session. -/
def inSession (w : World) (f : Coordinator → Coordinator × Answer) : World × Answer :=
  if w.session then w.reach f else (w, .noSession)

/-- Register a poll whose runs follow a script. -/
def register (w : World) (options : PollOptions) (script : Script) : World × Answer :=
  if !w.held then (w, .dropped)
  else
    let tag := Text.zeroPadded 3 w.tried ++ ":" ++ options.key
    let w := { w with tried := w.tried + 1 }
    match w.system.coordinator.register options with
    | (c, .error e) => (w.withCoordinator c, .refused e)
    | (c, .ok handle) =>
      ({ w.withCoordinator c with
          handles := w.handles ++ [handle]
          callbacks := w.callbacks ++ [{ id := handle.id, tag, script }] },
        .handle w.handles.length)

/-- The channel of a signal whose handle the script still has. -/
def keptChannel? (w : World) (signal : Nat) : Option Channel :=
  w.channels[signal]?.bind fun channel => if channel.kept then some channel else none

/-- The number of listeners on a channel. -/
def listeners (w : World) (signal : Nat) : Nat :=
  match w.listener with
  | some l => if l.channel == signal then 1 else 0
  | none => 0

/-- Send a signal on a channel; tells how many listeners it reached. -/
def emit (w : World) (signal : Nat) : World × Nat :=
  let n := w.listeners signal
  if n == 0 then (w, 0)
  else
    let channels := w.channels.modify signal fun c => { c with sent := c.sent + 1 }
    ({ w with channels }.wakeListener, n)

/-- Install the coordinator's listener on a channel. -/
def focusSetup (w : World) (signal : Nat) (channel : Channel) : World × Answer :=
  let (c, installed) := w.system.coordinator.listen
  let w := w.withCoordinator c
  if installed then
    let task : ListenerTask := { channel := signal, place := .joining channel.sent }
    ({ w with listener := some task }.wakeListener, .flag true)
  else (w, .flag false)

/-- Dispose of the coordinator; its listener is told to stop. -/
def dispose (w : World) : World :=
  let listener := w.listener.map fun l => { l with stopping := true }
  let w := { w with listener }
  (w.withCoordinator w.system.coordinator.dispose).wakeListener

/-- Perform an operation. -/
def perform (w : World) : Operation → World × Answer
  | .register o script => w.register o (.calls script)
  | .registerFeed o script => w.register o (.fetches script)
  | .cleanup n =>
    match w.handles[n]? with
    | none => (w, .noHandle)
    | some h => ({ w with system := w.system.step (.cleanup h) }, .nothing)
  | .handleKey n =>
    match w.handles[n]? with
    | none => (w, .noHandle)
    | some h => (w, .text h.key)
  | .pause key => w.change (·.pause key)
  | .resume key jitter => w.change (·.resume key jitter)
  | .pauseHealth => w.change (·.pauseHealthAware)
  | .resumeHealth jitter => w.change (·.resumeHealthAware jitter)
  | .pauseAuth => w.change (·.pauseAuthenticated)
  | .resumeAuth => w.change (·.resumeAuthenticated)
  | .status key => w.ask fun c => .status (c.status? key)
  | .statuses => w.ask fun c => .statuses c.statuses
  | .polls => w.ask fun c => .keys c.keys
  | .refresh => w.reach fun c => let (c, n) := c.refresh; (c, .count n)
  | .dispose => if w.held then (w.dispose, .nothing) else (w, .dropped)
  | .isDisposed => w.ask fun c => .flag c.disposed
  | .forceGates gates => w.change (·.forceGates gates)
  | .newSignal => ({ w with channels := w.channels ++ [{}] }, .count w.channels.length)
  | .focusSetup signal =>
    if !w.held then (w, .dropped)
    else
      match w.keptChannel? signal with
      | none => (w, .noSignal)
      | some channel => w.focusSetup signal channel
  | .emit signal =>
    match w.keptChannel? signal with
    | none => (w, .noSignal)
    | some _ => let (w, n) := w.emit signal; (w, .count n)
  | .dropSignal signal =>
    match w.keptChannel? signal with
    | none => (w, .flag false)
    | some _ =>
      let channels := w.channels.modify signal fun c => { c with kept := false }
      ({ w with channels }.noticeClosing, .flag true)
  | .setBackend v => w.inSession fun c => let (c, b) := c.setBackendAvailable v; (c, .flag b)
  | .setAuth v => w.inSession fun c => let (c, b) := c.setAuthenticated v; (c, .flag b)
  | .properties =>
    w.inSession fun c => (c, .flags [c.gates.backendAvailable, c.gates.authGranted])

/-- Perform the acts of a run, noting each of them down. -/
def act (w : World) (tag : String) (call : Nat) (atEnd : Bool) (acts : List Act) : World :=
  acts.foldl (fun w a =>
    match a with
    | .mk name none => w.note tag call (.acted name .notAnAct atEnd)
    | .mk name (some o) =>
      let (w, answer) := w.perform o
      w.note tag call (.acted name answer atEnd)) w

end FeedPoller.Simulation.World
