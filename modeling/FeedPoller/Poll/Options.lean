/-
What a caller asks for when it registers a poll, and when it is refused.

Options say which refresh is meant, how long to wait between the end of one run and
the start of the next, and which of the two conditions of the process stop it: the
user being signed out and the backend being down.
-/
import FeedPoller.Text.Blank
import FeedPoller.Time.Duration

namespace FeedPoller

/-- Everything needed to register one periodic refresh. -/
structure PollOptions where
  key : String
  interval : Duration
  requiresAuth : Bool := false
  pauseWhenBackendDown : Bool := true
deriving DecidableEq, Repr

/-- Why a registration is refused. -/
inductive RegisterError where
  | emptyKey
  | invalidInterval (key : String)
  | disposed
  /-- The first run would be due at a point that the clock cannot name. -/
  | deadlineOutOfReach
deriving DecidableEq, Repr

/-- The text of a refusal. -/
def RegisterError.message : RegisterError → String
  | .emptyKey => "poll key must not be empty"
  | .invalidInterval key => "poll interval for '" ++ key ++ "' must be greater than zero"
  | .disposed => "coordinator has been disposed"
  | .deadlineOutOfReach => "overflow when adding duration to instant"

/-- The fault in the options themselves; a blank key is found before an empty interval. -/
def PollOptions.fault? (o : PollOptions) : Option RegisterError :=
  if Text.isBlank o.key then some .emptyKey
  else if o.interval.isZero then some (.invalidInterval o.key)
  else none

end FeedPoller
