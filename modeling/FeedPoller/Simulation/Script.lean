/-
Scripts for a simulated session.

A script is a list of steps.  Most steps are operations, calls that are over at once; the
others let time pass or look at what surrounds the coordinator.  A poll comes with a
script of its own that says how each of its runs goes: how long it takes, how it ends, and
which operations it performs at its beginning and at its end.
-/
import FeedPoller.Feed.Fetch
import FeedPoller.Poll.System
import FeedPoller.Report.Basic

namespace FeedPoller.Simulation

/-- How a scripted run ends. -/
inductive Outcome where
  | ok
  | err
  | panic
  /-- It panics before it has really begun. -/
  | panicAtOnce
deriving DecidableEq, Repr, Inhabited

/-- The word for an outcome. -/
def Outcome.name : Outcome → String
  | .ok => "ok"
  | .err => "err"
  | .panic => "panic"
  | .panicAtOnce => "panic_sync"

/-- Whether the outcome counts as a failure. -/
def Outcome.isFailure : Outcome → Bool
  | .ok => false
  | _ => true

/-- A scripted fetch. -/
structure Fetch where
  work : Duration := .zero
  outcome : FetchOutcome := .data .null
deriving Inhabited

/-- A scripted health probe. -/
structure Probe where
  work : Duration := .zero
  available : Bool := true
deriving Inhabited

mutual

/-- A call that is over at once. -/
inductive Operation where
  | register (options : PollOptions) (script : List Call)
  | registerFeed (options : PollOptions) (script : List Fetch)
  | cleanup (handle : Nat)
  | handleKey (handle : Nat)
  | pause (key : String)
  | resume (key : String) (jitter : Bool)
  | pauseHealth
  | resumeHealth (jitter : Bool)
  | pauseAuth
  | resumeAuth
  | status (key : String)
  | statuses
  | polls
  | refresh
  | dispose
  | isDisposed
  | forceGates (gates : Gates)
  | newSignal
  | focusSetup (signal : Nat)
  | emit (signal : Nat)
  | dropSignal (signal : Nat)
  | setBackend (available : Bool)
  | setAuth (authenticated : Bool)
  | properties

/-- A scripted run: its length, its end, and the acts at its beginning and its end. -/
inductive Call where
  | mk (work : Duration) (outcome : Outcome) (acts actsEnd : List Act)

/-- A named act; one that is no operation cannot be performed. -/
inductive Act where
  | mk (name : String) (operation : Option Operation)

end

namespace Call

def work : Call → Duration
  | mk w _ _ _ => w

def outcome : Call → Outcome
  | mk _ o _ _ => o

def acts : Call → List Act
  | mk _ _ a _ => a

def actsEnd : Call → List Act
  | mk _ _ _ a => a

instance : Inhabited Call := ⟨mk .zero .ok [] []⟩

end Call

instance : Inhabited Act := ⟨.mk "" none⟩

/-- One step of a script. -/
inductive Step where
  | operation (o : Operation)
  /-- Let everything happen that needs no time. -/
  | settle
  /-- Let time pass. -/
  | advance (d : Duration)
  | feed (key : String)
  | feeds
  | feedBegin (key : String)
  | feedComplete (key : String) (data : Json.Value)
  | feedFail (key : String) (error : String)
  | feedRemove (key : String)
  | report
  | foregroundRegained
  /-- Follow a new health value or a monitor, and a new sign-in value. -/
  | follow (health : Option Bool) (monitor : Nat) (auth : Bool)
  | sendHealth (v : Bool)
  | sendAuth (v : Bool)
  | dropHealth
  | dropAuth
  | followFinished
  | monitor (interval : Duration) (script : List Probe)
  | monitorState (monitor : Nat)
  | monitorDrop (monitor : Nat)
  /-- Let go of the coordinator and of the session. -/
  | drop
  | unknown

/-- What a step answers. -/
inductive Answer where
  | nothing
  | flag (b : Bool)
  | count (n : Nat)
  | text (s : String)
  | handle (n : Nat)
  | refused (e : RegisterError)
  | noHandle
  | noSignal
  | noMonitor
  | noSession
  | dropped
  | notAnAct
  | unknownStep
  | status (s : Option PollStatus)
  | statuses (s : List PollStatus)
  | keys (ks : List String)
  | flags (bs : List Bool)
  | feed (f : Option FeedState)
  | feeds (fs : List (String × FeedState))
  | report (r : StatusReport)
  /-- The monitor's value and whether it is news, and whether the monitor has ended. -/
  | monitor (value : Option (Bool × Option Bool)) (ended : Bool)

/-- What a poll's runs are scripted by: the script's last element is repeated. -/
inductive Script where
  | calls (cs : List Call)
  | fetches (fs : List Fetch)

/-- The element of a script for a call, the last one if the script is shorter. -/
def scripted {α : Type} [Inhabited α] (script : List α) (call : Nat) : α :=
  script.getD (min call (script.length - 1)) default

end FeedPoller.Simulation
