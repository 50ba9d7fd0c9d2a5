/-
How a fetch ends, and what the store is told about it.

A fetch brings data, fails with a chain of causes, or panics.  Data and failures are
written to the store, a failure with its causes joined from the outermost to the
innermost.  A panic leaves the fetch before it can write anything.
-/
import FeedPoller.Feed.State

namespace FeedPoller

/-- The end of a fetch. -/
inductive FetchOutcome where
  | data (value : Json.Value)
  /-- The causes, from the outermost to the innermost. -/
  | failed (causes : List String)
  | panicked
deriving Repr, Inhabited

namespace FetchOutcome

/-- Whether the run that made the fetch counts as failed. -/
def isFailure : FetchOutcome → Bool
  | .data _ => false
  | .failed _ => true
  | .panicked => true

/-- The text of a chain of causes. -/
def errorText (causes : List String) : String := ": ".intercalate causes

end FetchOutcome

/-- The store after a fetch of a feed has ended. -/
def FeedStore.endFetch (s : FeedStore) (key : String) (o : FetchOutcome) (at_ : DateTime) :
    FeedStore :=
  match o with
  | .data value => s.completeFetch key value at_
  | .failed causes => s.failFetch key (FetchOutcome.errorText causes)
  | .panicked => s

end FeedPoller
