/-
The status report.

A report is a snapshot of a coordinator and of the feed store: the two gates, every
registered poll in the order of registration, every feed by key, and the time at which
it was made.
-/
import FeedPoller.Feed.State
import FeedPoller.Poll.Coordinator

namespace FeedPoller

/-- What a daemon tells about itself. -/
structure StatusReport where
  backendAvailable : Bool
  authenticated : Bool
  polls : List PollStatus
  feeds : List (String × FeedState)
  generatedAt : DateTime
deriving Repr

/-- The report on a coordinator and its feeds, at the time of the coordinator's wall clock. -/
def StatusReport.make (c : Coordinator) (store : FeedStore) : StatusReport where
  backendAvailable := c.gates.backendAvailable
  authenticated := c.gates.authGranted
  polls := c.statuses
  feeds := store.entries
  generatedAt := c.clock.wall

end FeedPoller
