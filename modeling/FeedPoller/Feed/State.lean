/-
What is shown for one feed.

A feed has its last good data, the error of its last fetch if that one failed, and two
flags that say that a fetch is going on: one for the time before there is any data, one
for later.  The store that holds the feeds makes entries as they are written to.
-/
import FeedPoller.Json.Value
import FeedPoller.Time.DateTime

namespace FeedPoller

/-- The state of one feed. -/
structure FeedState where
  data : Option Json.Value := none
  /-- A first fetch is going on and there is nothing to show yet. -/
  loading : Bool := false
  /-- A later fetch is going on; `data` is the result of an earlier one. -/
  isRefreshing : Bool := false
  error : Option String := none
  updatedAt : Option DateTime := none
deriving Repr, Inhabited, BEq

namespace FeedState

def hasData (f : FeedState) : Bool := f.data.isSome

def isBusy (f : FeedState) : Bool := f.loading || f.isRefreshing

/-- A fetch begins. -/
def beginFetch (f : FeedState) : FeedState :=
  if f.hasData then { f with isRefreshing := true } else { f with loading := true }

/-- A fetch has brought data. -/
def completeFetch (_ : FeedState) (data : Json.Value) (at_ : DateTime) : FeedState :=
  { data := some data, updatedAt := some at_ }

/-- A fetch has failed; the last good data stays. -/
def failFetch (f : FeedState) (error : String) : FeedState :=
  { f with error := some error, loading := false, isRefreshing := false }

end FeedState

/-- The feeds, by key. -/
structure FeedStore where
  entries : List (String × FeedState) := []
deriving Repr, Inhabited

namespace FeedStore

/-- The state of a feed, if anything was ever written for it. -/
def get? (s : FeedStore) (key : String) : Option FeedState := Fields.find? key s.entries

/-- Change the state of a feed, which is idle and empty if it has none yet. -/
def update (s : FeedStore) (key : String) (f : FeedState → FeedState) : FeedStore :=
  ⟨Fields.insert key (f ((s.get? key).getD {})) s.entries⟩

/-- A fetch of a feed begins. -/
def beginFetch (s : FeedStore) (key : String) : FeedStore := s.update key FeedState.beginFetch

/-- A fetch of a feed has brought data. -/
def completeFetch (s : FeedStore) (key : String) (data : Json.Value) (at_ : DateTime) :
    FeedStore :=
  s.update key (·.completeFetch data at_)

/-- A fetch of a feed has failed. -/
def failFetch (s : FeedStore) (key : String) (error : String) : FeedStore :=
  s.update key (·.failFetch error)

/-- Forget a feed. -/
def remove (s : FeedStore) (key : String) : FeedStore := ⟨Fields.erase key s.entries⟩

end FeedStore

end FeedPoller
