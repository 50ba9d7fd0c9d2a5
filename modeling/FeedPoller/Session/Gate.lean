/-
Availability and sign-in, as a session passes them on.

A session tells its coordinator about a change only if it is one: a value equal to the
gate's present one touches nothing.  Polls that come back because the backend is up
again are spread out at random, those that come back because the user has signed in are
not.
-/
import FeedPoller.Poll.Coordinator

namespace FeedPoller.Coordinator

/-- The backend is up or down; tells whether that was a change. -/
def setBackendAvailable (c : Coordinator) (available : Bool) : Coordinator × Bool :=
  if c.gates.backendAvailable == available then (c, false)
  else if available then (c.resumeHealthAware true, true)
  else (c.pauseHealthAware, true)

/-- The user is signed in or out; tells whether that was a change. -/
def setAuthenticated (c : Coordinator) (authenticated : Bool) : Coordinator × Bool :=
  if c.gates.authGranted == authenticated then (c, false)
  else if authenticated then (c.resumeAuthenticated, true)
  else (c.pauseAuthenticated, true)

end FeedPoller.Coordinator
