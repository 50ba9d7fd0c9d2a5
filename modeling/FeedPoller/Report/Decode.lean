/-
The status report, read from text.

A client takes what a daemon sends only if it is a report in every part.  Every field has
to be there except the time of a poll's last run and a feed's data, error and time.  The
data of a feed may be anything that can be read as data at its depth; everything else is
taken literally, numbers in particular: a count is a whole number without a point.
-/
import FeedPoller.Json.Reader
import FeedPoller.Record
import FeedPoller.Report.Basic
import FeedPoller.Time.Rfc3339

namespace FeedPoller

open Json (Document Value)

namespace Decode

/-- What a record is read from, if the document is one. -/
def record? : Document → Option (RecordSource Document)
  | .object fields => some (.named fields)
  | .array items => some (.listed items)
  | _ => none

/-- The fields of a record. -/
def slots? (d : Document) (names : List String) : Option (List (Slot Document)) := do
  (← record? d).slots names false

def bool : Document → Option Bool
  | .bool b => some b
  | _ => none

def text : Document → Option String
  | .string s => s
  | _ => none

/-- A whole number. -/
def integer : Document → Option Int
  | .number l =>
    match Json.Number.ofLiteral l with
    | some (.integer n) => some n
    | _ => none
  | _ => none

/-- A count. -/
def count (d : Document) : Option Nat := do
  let n ← integer d
  if 0 ≤ n then some n.toNat else none

/-- A value that may be `null`. -/
def nullable {α : Type} (read : Document → Option α) : Document → Option (Option α)
  | .null => some none
  | d => (read d).map some

/-- A list. -/
def list {α : Type} (read : Document → Option α) : Document → Option (List α)
  | .array items => items.mapM read
  | _ => none

/-- Values by name; a name that is repeated keeps its last value. -/
def table {α : Type} (read : Document → Option α) : Document → Option (List (String × α))
  | .object fields =>
    (fields.mapM fun (field : Option String × Document) => do
      some (← field.1, ← read field.2)).map Fields.ofList
  | _ => none

/-- A date-time. -/
def dateTime (d : Document) : Option DateTime := do Rfc3339.read (← text d)

/-- The state of a poll: its name, or a field of that name with no value. -/
def pollState : Document → Option PollState
  | .string s => s.bind PollState.ofName?
  | .object [(name, .null)] => name.bind PollState.ofName?
  | _ => none

/-- The state of a feed; its data has `depth` levels of nesting to use. -/
def feedState (depth : Nat) (d : Document) : Option FeedState := do
  match ← slots? d ["data", "loading", "is_refreshing", "error", "updated_at"] with
  | [data, loading, isRefreshing, error, updatedAt] =>
    some {
      data := ← data.optional (nullable (Value.ofDocument depth))
      loading := ← loading.required bool
      isRefreshing := ← isRefreshing.required bool
      error := ← error.optional (nullable text)
      updatedAt := ← updatedAt.optional (nullable dateTime) }
  | _ => none

/-- The status of a poll. -/
def pollStatus (d : Document) : Option PollStatus := do
  match ← slots? d ["key", "state", "is_paused", "explicitly_paused", "requires_auth",
      "pause_when_backend_down", "interval_ms", "registration_order", "runs", "failures",
      "last_completed_at"] with
  | [key, state, isPaused, explicitlyPaused, requiresAuth, pauseWhenBackendDown,
      intervalMillis, registrationOrder, runs, failures, lastCompletedAt] =>
    some {
      key := ← key.required text
      state := ← state.required pollState
      isPaused := ← isPaused.required bool
      explicitlyPaused := ← explicitlyPaused.required bool
      requiresAuth := ← requiresAuth.required bool
      pauseWhenBackendDown := ← pauseWhenBackendDown.required bool
      intervalMillis := ← intervalMillis.required count
      registrationOrder := ← registrationOrder.required count
      runs := ← runs.required count
      failures := ← failures.required count
      lastCompletedAt := ← lastCompletedAt.defaulting none (nullable dateTime) }
  | _ => none

/-- A report.  The report, its feeds and each feed are three levels of nesting. -/
def statusReport (d : Document) : Option StatusReport := do
  match ← slots? d ["backend_available", "authenticated", "polls", "feeds", "generated_at"] with
  | [backendAvailable, authenticated, polls, feeds, generatedAt] =>
    some {
      backendAvailable := ← backendAvailable.required bool
      authenticated := ← authenticated.required bool
      polls := ← polls.required (list pollStatus)
      feeds := ← feeds.required (table (feedState (Json.depthLimit - 3)))
      generatedAt := ← generatedAt.required fun d => do DateTime.ofSeconds? (← integer d) }
  | _ => none

end Decode

/-- The state of a feed that a text holds. -/
def FeedState.read (s : String) : Option FeedState := do
  Decode.feedState (Json.depthLimit - 1) (← Document.ofText s)

/-- The report that a text holds. -/
def StatusReport.read (s : String) : Option StatusReport := do
  Decode.statusReport (← Document.ofText s)

end FeedPoller
