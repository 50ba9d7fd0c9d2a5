/-
The status report as data.

Fields come in a fixed order.  A feed writes all of its fields, `null` for those that
are missing; a poll leaves out the time of its last run if it has had none.  Times are
RFC 3339 texts, except that a report is dated in whole seconds since 1970.
-/
import FeedPoller.Json.Printer
import FeedPoller.Report.Basic
import FeedPoller.Time.Rfc3339

namespace FeedPoller

open Json (Value)

/-- A date-time as data. -/
def DateTime.encode (t : DateTime) : Value := .string (Rfc3339.write t)

/-- The state of a feed as data. -/
def FeedState.encode (f : FeedState) : Value := .object [
  ("data", f.data.getD .null),
  ("loading", .bool f.loading),
  ("is_refreshing", .bool f.isRefreshing),
  ("error", .ofOption .string f.error),
  ("updated_at", .ofOption DateTime.encode f.updatedAt)]

/-- The status of a poll as data. -/
def PollStatus.encode (p : PollStatus) : Value := .object ([
  ("key", .string p.key),
  ("state", .string p.state.name),
  ("is_paused", .bool p.isPaused),
  ("explicitly_paused", .bool p.explicitlyPaused),
  ("requires_auth", .bool p.requiresAuth),
  ("pause_when_backend_down", .bool p.pauseWhenBackendDown),
  ("interval_ms", .nat p.intervalMillis),
  ("registration_order", .nat p.registrationOrder),
  ("runs", .nat p.runs),
  ("failures", .nat p.failures)] ++
  (match p.lastCompletedAt with
    | none => []
    | some t => [("last_completed_at", t.encode)]))

/-- A report as data. -/
def StatusReport.encode (r : StatusReport) : Value := .object [
  ("backend_available", .bool r.backendAvailable),
  ("authenticated", .bool r.authenticated),
  ("polls", .array (r.polls.map PollStatus.encode)),
  ("feeds", .object (r.feeds.map fun (key, f) => (key, f.encode))),
  ("generated_at", .int r.generatedAt.seconds)]

end FeedPoller
