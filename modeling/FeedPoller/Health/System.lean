/-
A monitor among its watchers.

The monitor of the backend is a task of its own.  While it runs time passes, a probe takes the time
that it takes, and watchers come and go, also while a probe is being made; all of this happens
in any order.  The steps of the monitor are taken one by one: when it has its turn it begins a
probe if one is due, and when the probe has its result it deals with that at once.
-/
import FeedPoller.Health.Monitor

namespace FeedPoller

/-- A monitor and the scheduler's clock. -/
structure MonitorSystem where
  monitor : Monitor
  now : Instant
deriving Repr

/-- Something that happens to a monitor. -/
inductive MonitorEvent where
  | elapse (d : Duration)
  /-- The monitor has its turn. -/
  | turn
  /-- The probe that is being made has its result. -/
  | probed (available : Bool)
  /-- A watcher brings in another one. -/
  | join
  | leave
deriving DecidableEq, Repr

namespace MonitorSystem

/-- A monitor that has just been started, with one watcher. -/
def start (interval : Duration) (now : Instant) : MonitorSystem :=
  { monitor := .start interval now, now }

def watch (s : MonitorSystem) : Watch := s.monitor.watch

/-- The same with other watchers. -/
def withWatch (s : MonitorSystem) (w : Watch) : MonitorSystem :=
  { s with monitor := { s.monitor with watch := w } }

/-- The system after an event.  Nobody but a watcher can bring one in. -/
def step (s : MonitorSystem) : MonitorEvent → MonitorSystem
  | .elapse d => { s with now := s.now.later d }
  | .turn => { s with monitor := s.monitor.beginProbe s.now }
  | .probed available => { s with monitor := s.monitor.endProbe available }
  | .join => if s.watch.watchers == 0 then s else s.withWatch s.watch.join
  | .leave => s.withWatch s.watch.leave

/-- The system after a history. -/
def run (s : MonitorSystem) (events : List MonitorEvent) : MonitorSystem := events.foldl step s

end MonitorSystem

end FeedPoller
