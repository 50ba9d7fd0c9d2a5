/-
The health monitor.

A monitor probes the backend at regular times and publishes what it finds whenever that
differs from what it published last; at first the backend is taken to be up.  The first
probe is made at once.  A probe that takes longer than the interval delays the next one.
If the next one is late by no more than five milliseconds the old rhythm is kept,
otherwise a new one starts from there.  A monitor ends after the first probe whose result
nobody is there to see.
-/
import FeedPoller.Signal.Watch
import FeedPoller.Time.Instant

namespace FeedPoller

/-- What a monitor is doing. -/
inductive MonitorPhase where
  /-- It waits for its next probe to be due. -/
  | waiting
  | probing
  | ended
deriving DecidableEq, Repr

/-- A health monitor. -/
structure Monitor where
  interval : Duration
  /-- When the next probe is due, or was due. -/
  due : Instant
  watch : Watch := .new true
  phase : MonitorPhase := .waiting
deriving Repr

namespace Monitor

/-- How late a probe may be without shifting the rhythm. -/
def tolerance : Duration := .ofMillis 5

/-- A monitor that is started at a point in time, with one watcher. -/
def start (interval : Duration) (now : Instant) : Monitor := { interval, due := now }

/-- When the probe after the one that begins now is due. -/
def nextDue (m : Monitor) (now : Instant) : Instant :=
  if m.due.later tolerance < now then now.later m.interval else m.due.later m.interval

/-- Begin a probe if one is due.  A monitor without an interval gives up instead. -/
def beginProbe (m : Monitor) (now : Instant) : Monitor :=
  match m.phase with
  | .waiting =>
    if m.interval.isZero then { m with phase := .ended, watch := m.watch.close }
    else if m.due ≤ now then { m with phase := .probing, due := m.nextDue now }
    else m
  | _ => m

/-- A probe has been made: publish a change, and end if nobody watches. -/
def endProbe (m : Monitor) (available : Bool) : Monitor :=
  match m.phase with
  | .probing =>
    let watch := (m.watch.publish available).1
    if watch.watchers == 0 then { m with watch := watch.close, phase := .ended }
    else { m with watch, phase := .waiting }
  | _ => m

end Monitor

end FeedPoller
