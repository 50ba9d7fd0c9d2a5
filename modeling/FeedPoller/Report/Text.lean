/-
The status report as lines of text.

The first line tells about the backend and the session.  Then, behind an empty line, each
poll has a line of its own, and a second one if its feed's last fetch failed.  A poll that
is paused is called that whatever the scheduler has last done about it.
-/
import FeedPoller.Report.Basic
import FeedPoller.Text.Padding

namespace FeedPoller.StatusReport

/-- How long ago something was, in seconds, minutes, or hours and minutes. -/
def ageText (seconds : Nat) : String :=
  if seconds < 60 then toString seconds ++ "s ago"
  else if seconds < 3600 then toString (seconds / 60) ++ "m ago"
  else toString (seconds / 3600) ++ "h " ++ Text.zeroPadded 2 (seconds % 3600 / 60) ++ "m ago"

/-- How long before `now` a point was; a point to come was no time ago. -/
def age (now at_ : DateTime) : String := ageText (now.secondsSince at_).toNat

/-- The word for how a poll stands. -/
def stateLabel (p : PollStatus) : String :=
  if p.isPaused then "paused"
  else match p.state with
    | .running => "running"
    | .scheduled => "scheduled"
    | .paused => "paused"
    | .unscheduled => "idle"
    | .disposed => "disposed"

/-- What is added while a feed is being fetched. -/
def fetchNote : Option FeedState → String
  | some f => if f.isBusy then (if f.hasData then "  [refreshing]" else "  [loading]") else ""
  | none => ""

/-- The line of a poll. -/
def pollLine (now : DateTime) (p : PollStatus) (feed : Option FeedState) : String :=
  let last := match p.lastCompletedAt with
    | some t => " (last run " ++ age now t ++ ")"
    | none => ""
  "  " ++ Text.padRight 24 p.key ++ " " ++ Text.padRight 10 (stateLabel p) ++ " every " ++
    Text.padLeft ' ' 5 (toString (p.intervalMillis / 1000)) ++ "s  runs " ++
    Text.padLeft ' ' 4 (toString p.runs) ++ "  failures " ++
    Text.padLeft ' ' 3 (toString p.failures) ++ last ++ fetchNote feed

/-- The lines of a poll. -/
def pollLines (now : DateTime) (r : StatusReport) (p : PollStatus) : List String :=
  let feed := Fields.find? p.key r.feeds
  pollLine now p feed ::
    (match feed.bind (·.error) with
      | some e => ["  " ++ Text.padRight 24 "" ++ " Error: " ++ e]
      | none => [])

/-- The first line. -/
def headLine (r : StatusReport) : String :=
  "Backend: " ++ (if r.backendAvailable then "reachable" else "unreachable") ++
    "    Session: " ++ (if r.authenticated then "signed in" else "signed out")

/-- A report as lines of text. -/
def lines (now : DateTime) (r : StatusReport) : List String :=
  r.headLine ::
    (if r.polls.isEmpty then ["No polls registered"]
    else "" :: r.polls.flatMap (pollLines now r))

end FeedPoller.StatusReport
