/-
Running tasks in a simulated world.

A task runs until it has to wait.  A run that takes no time begins and ends in one go; a
listener deals with all signals there are; a follower hears all there is to hear; a monitor
makes one probe after the other as long as they are due and take no time.
-/
import FeedPoller.Simulation.Perform

namespace FeedPoller.Simulation.World

/-! ### Runs -/

/-- The end of a run. -/
def endRun (w : World) (run : Run) (tag : String) (call : Nat) : Progress → World
  | .call c =>
    let w := w.act tag call true c.actsEnd
    let w := w.note tag call (.ended (some c.outcome))
    { w with system := w.system.finish run.id c.outcome.isFailure }
  | .fetch f =>
    let w := w.note tag call (.ended none)
    let store := w.store.endFetch run.key f.outcome w.wall
    { w with store, system := w.system.finish run.id f.outcome.isFailure }

/-- Let a run go on for as long as it takes, and end. -/
def continueRun (w : World) (run : Run) (tag : String) (call : Nat) (work : Duration)
    (progress : Progress) : World :=
  if work.isZero then w.endRun run tag call progress
  else w.wait (w.now.later work) (.endRun run tag call progress)

/-- The beginning of a run. -/
def beginRun (w : World) (run : Run) : World :=
  match w.callbacks.find? (·.id == run.id) with
  | none => w
  | some callback =>
    let tag := callback.tag
    let call := callback.calls
    let callbacks := w.callbacks.map fun b =>
      if b.id == run.id then { b with calls := b.calls + 1 } else b
    let w := { w with callbacks }
    match callback.script with
    | .calls script =>
      let c := scripted script call
      let w := w.note tag call .started
      if c.outcome == .panicAtOnce then { w with system := w.system.finish run.id true }
      else (w.act tag call false c.acts).continueRun run tag call c.work (.call c)
    | .fetches script =>
      let f := scripted script call
      let w := { w with store := w.store.beginFetch run.key }
      (w.note tag call .started).continueRun run tag call f.work (.fetch f)

/-- A timer goes off. -/
def fire (w : World) (number : Nat) : World :=
  match w.system.fire number with
  | (system, none) => { w with system }
  | (system, some run) => { w with system }.beginRun run

/-! ### Listeners, followers and monitors -/

/-- Deal with signals, each of which is one refresh; the fuel bounds how many. -/
def hearSignals (w : World) (l : ListenerTask) : Nat → World
  | 0 => w
  | fuel + 1 =>
    match w.channels[l.channel]? with
    | none => { w with listener := none }
    | some channel =>
      match l.place.wake? channel.sent with
      | some place =>
        let l := { l with place }
        if w.system.alive then
          { w with listener := some l, system := w.system.step .refresh }.hearSignals l fuel
        else { w with listener := none }
      | none => if w.isOpen channel then w else { w with listener := none }

/-- The listener's turn. -/
def runListener (w : World) : World :=
  match w.listener with
  | none => w
  | some l =>
    if l.stopping then { w with listener := none }
    else w.hearSignals l (signalCapacity + 2)

/-- A follower's turn. -/
def runFollower (w : World) (index : Nat) : World :=
  match w.followers[index]? with
  | none => w
  | some t =>
    if !t.running then w
    else
      let (follower, c) :=
        t.follower.turn w.system.coordinator (w.watchOf t.health) (w.watchOf t.auth)
      let running := !follower.finished
      let followers := w.followers.modify index fun t => { t with follower, running }
      let w := { w.withCoordinator c with followers }
      if running then w
      else ((w.modifyWatch t.health .leave).modifyWatch t.auth .leave).noticeRelease

/-- The name of a monitor in notes. -/
def monitorTag (index : Nat) : String := "m" ++ toString index

/-- The end of a probe: a change is published, and followers are woken to see it. -/
def endProbe (w : World) (index : Nat) (t : MonitorTask) (available : Bool) : World :=
  let before := t.monitor.watch
  let monitor := t.monitor.endProbe available
  let w := w.note (monitorTag index) (t.calls - 1) (.probed available)
  let w := { w with monitors := w.monitors.set index { t with monitor } }
  if monitor.watch == before then w else w.wakeFollowersOf (.monitor index)

/-- A monitor's turn; the fuel bounds how many probes it makes in a row. -/
def runMonitor (w : World) (index : Nat) : Nat → World
  | 0 => w.wait w.now (.monitor index)
  | fuel + 1 =>
    match w.monitors[index]? with
    | none => w
    | some t =>
      match t.monitor.phase with
      | .ended => w
      | .probing =>
        let probe := scripted t.script (t.calls - 1)
        (w.endProbe index t probe.available).runMonitor index fuel
      | .waiting =>
        let monitor := t.monitor.beginProbe w.now
        match monitor.phase with
        | .waiting => w.wait monitor.due (.monitor index)
        | .ended =>
          { w with monitors := w.monitors.set index { t with monitor } }.wakeFollowersOf
            (.monitor index)
        | .probing =>
          let probe := scripted t.script t.calls
          let w := w.note (monitorTag index) t.calls .probing
          let t := { t with monitor, calls := t.calls + 1 }
          let w := { w with monitors := w.monitors.set index t }
          if probe.work.isZero then w.runMonitor index fuel
          else w.wait (w.now.later probe.work) (.monitor index)

/-- How many turns a monitor may take in a row. -/
def monitorTurns : Nat := 64

/-- A task's turn. -/
def runTask (w : World) : Task → World
  | .endRun run tag call progress => w.endRun run tag call progress
  | .listener => w.runListener
  | .follower index => w.runFollower index
  | .monitor index => w.runMonitor index monitorTurns

/-! ### What is next -/

/-- Run what has waited longest of all that is due; nothing if nothing is due. -/
def turn? (w : World) : Option World :=
  let timer := if w.system.alive then w.system.dueTimers.head? else none
  let ready := w.waiting.findIdx? fun k => decide (k.due ≤ w.now)
  match timer, ready.bind fun i => w.waiting[i]?.map (i, ·) with
  | none, none => none
  | some t, none => some (w.fire t.number)
  | none, some (i, k) => some ({ w with waiting := w.waiting.eraseIdx i }.runTask k.task)
  | some t, some (i, k) =>
    if t.number < k.after then some (w.fire t.number)
    else some ({ w with waiting := w.waiting.eraseIdx i }.runTask k.task)

/-- When the next thing is due. -/
def nextDue? (w : World) : Option Instant :=
  let timers := if w.system.alive then w.system.coordinator.timers.map (·.deadline) else []
  Instant.earliest? (timers ++ w.waiting.map (·.due))

/-- Where time stops next on the way to a point. -/
def nextStop (w : World) (target : Instant) : Instant :=
  match w.nextDue? with
  | some t => if t ≤ target then t else target
  | none => target

/-- Let time pass up to a point, running everything that is due on the way. -/
def playUntil (target : Instant) : Nat → World → World
  | 0, w => w
  | fuel + 1, w =>
    match w.turn? with
    | some w => playUntil target fuel w
    | none =>
      let stop := w.nextStop target
      if w.now < stop then
        playUntil target fuel { w with system := w.system.elapse ⟨stop.nanos - w.now.nanos⟩ }
      else w

/-- How many turns a step may take. -/
def turnLimit : Nat := 100000000

/-- Let a duration pass. -/
def advance (w : World) (d : Duration) : World := playUntil (w.now.later d) turnLimit w

/-- Run everything that is due now. -/
def settle (w : World) : World := w.advance .zero

end FeedPoller.Simulation.World
