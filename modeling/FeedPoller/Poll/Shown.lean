/-
Poll options as they are shown to a person who looks for a fault.

The options are written as a record.  What a poll does when it is due cannot be shown, and
two dots stand in its place.
-/
import FeedPoller.Poll.Options
import FeedPoller.Text.Quoted
import FeedPoller.Time.Spelled

namespace FeedPoller.PollOptions

/-- The options as a record. -/
def shown (o : PollOptions) : String :=
  "PollOptions \x7b key: " ++ Text.quoted o.key ++
  ", interval: " ++ o.interval.spelled ++
  ", requires_auth: " ++ toString o.requiresAuth ++
  ", pause_when_backend_down: " ++ toString o.pauseWhenBackendDown ++
  ", .. \x7d"

end FeedPoller.PollOptions
