/-
Probing the backend.

The backend is available if it answers a request with a status that means success.
-/
import FeedPoller.Http.Exchange

namespace FeedPoller

/-- Whether the backend at an address is available. -/
def probeBackend (url : String) (link : Http.Link) : Bool :=
  match Http.Request.make url none with
  | .error _ => false
  | .ok r => (link r).isSuccess

end FeedPoller
