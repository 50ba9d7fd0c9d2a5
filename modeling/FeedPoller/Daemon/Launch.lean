/-
How a daemon starts and ends.

The settings say which polls there are.  Before any of them is registered the session learns
whether somebody is signed in, so that polls for signed-in users begin paused where nobody
is.  Then the feeds are registered in the order of the settings, and the first refusal is the
end of the start.  At the end every poll is removed together with what is shown for its
feed, so that nothing is left of feeds that nobody fetches.
-/
import FeedPoller.Auth.Watcher
import FeedPoller.Feed.Http
import FeedPoller.Session.Gate
import FeedPoller.Settings.Load

namespace FeedPoller

/-- Why a daemon does not start. -/
inductive LaunchError where
  | settings (e : LoadError)
  | token (e : TokenWatchError)
  | register (key : String) (e : RegisterError)
deriving DecidableEq, Repr

/-- The text of a failed start. -/
def LaunchError.message : LaunchError → String
  | .settings e => e.message
  | .token e => e.message
  | .register key _ => "Failed to register feed '" ++ key ++ "'"

namespace Coordinator

/-- Register feeds in turn, up to the first that is refused. -/
def registerFeeds (c : Coordinator) :
    List FeedConfig → Coordinator × Except LaunchError (List PollHandle)
  | [] => (c, .ok [])
  | f :: rest =>
    match c.register f.pollOptions with
    | (c, .error e) => (c, .error (.register f.key e))
    | (c, .ok handle) =>
      let (c, handles) := c.registerFeeds rest
      (c, handles.map (handle :: ·))

/-- A session with the feeds of the settings. -/
def launch (settings : Settings) (authenticated : Bool) (clock : Clock) (draws : Draws) :
    Coordinator × Except LaunchError (List PollHandle) :=
  let c : Coordinator := { config := settings.polling.coordinatorConfig, clock, draws }
  let c := c.listen.1
  let c := (c.setAuthenticated authenticated).1
  c.registerFeeds settings.feeds

/-- Remove the registrations of some handles, and what is shown for their feeds. -/
def withdrawFeeds (c : Coordinator) (store : FeedStore) :
    List PollHandle → Coordinator × FeedStore
  | [] => (c, store)
  | h :: rest => (c.cleanup h).withdrawFeeds (store.remove h.key) rest

/-- The end of a session. -/
def shutdown (c : Coordinator) (store : FeedStore) (handles : List PollHandle) :
    Coordinator × FeedStore :=
  let (c, store) := c.withdrawFeeds store handles
  (c.dispose, store)

end Coordinator

/-- The feeds that a daemon fetches. -/
def Settings.httpFeeds (s : Settings) (configDirectory : Option String) : List HttpFeed :=
  s.feeds.map fun f => .ofConfig f (s.auth.resolvedTokenPath configDirectory)

end FeedPoller
