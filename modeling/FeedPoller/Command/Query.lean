/-
Asking a running daemon.

Two commands talk to the daemon.  One asks for its status report and prints it, as data or
as lines of text; the other tells it that the user is back.  The daemon answers a call
with a value or not at all, so a command is a function from that answer to what it prints.
-/
import FeedPoller.Report.Decode
import FeedPoller.Report.Encode
import FeedPoller.Report.Text

namespace FeedPoller

/-- Why asking the daemon failed. -/
inductive QueryError where
  /-- There is no bus to ask on. -/
  | noBus
  /-- The daemon did not answer a call of this name. -/
  | noAnswer (call : String)
  /-- The answer is no status report. -/
  | unreadableReport
deriving DecidableEq, Repr

/-- The text of a failed query. -/
def QueryError.message : QueryError → String
  | .noBus => "Failed to connect to session D-Bus"
  | .noAnswer call => "Failed to call " ++ call ++ " - is the daemon running?"
  | .unreadableReport => "Failed to parse status report"

/-- The calls that a daemon answers. -/
def pollStatusCall : String := "PollStatus"
def foregroundRegainedCall : String := "ForegroundRegained"

/-- What the status command prints for the daemon's answer; each text is printed by itself. -/
def statusCommand (answer : Option String) (json : Bool) (now : DateTime) :
    Except QueryError (List String) :=
  match answer with
  | none => .error (.noAnswer pollStatusCall)
  | some body =>
    match StatusReport.read body with
    | none => .error .unreadableReport
    | some report => .ok (if json then [report.encode.pretty] else report.lines now)

/-- What the focus command prints; the daemon answers how many listeners it has told. -/
def focusCommand (answer : Option Nat) : Except QueryError (List String) :=
  match answer with
  | none => .error (.noAnswer foregroundRegainedCall)
  | some 0 => .ok ["Daemon has no active foreground listener"]
  | some _ => .ok ["Foreground refresh triggered"]

end FeedPoller
