/-
Settings.

Everything has a default except what a feed is called, where it is found and how often it
is fetched.  Numbers are those that the settings file gives, in the units it gives them
in.  The file and the session token lie in a directory of their own below the user's
configuration directory, unless the settings say where the token is.
-/
import FeedPoller.Poll.Coordinator

namespace FeedPoller

/-- How polls are spread in time. -/
structure PollingSettings where
  staggerStepMillis : Nat := 1000
  jitterMaxMillis : Nat := 5000
deriving DecidableEq, Repr

/-- How the backend is reached, and how its health is watched if it is at all. -/
structure BackendSettings where
  healthUrl : Option String := none
  healthIntervalSeconds : Nat := 30
  timeoutSeconds : Nat := 10
deriving DecidableEq, Repr

/-- Where the session token is. -/
structure AuthSettings where
  tokenPath : Option String := none
deriving DecidableEq, Repr

/-- A feed to be fetched regularly. -/
structure FeedConfig where
  key : String
  url : String
  intervalSeconds : Nat
  requiresAuth : Bool := false
  pauseWhenBackendDown : Bool := true
deriving DecidableEq, Repr

/-- All settings. -/
structure Settings where
  polling : PollingSettings := {}
  backend : BackendSettings := {}
  auth : AuthSettings := {}
  feeds : List FeedConfig := []
deriving DecidableEq, Repr

/-- The coordinator's part of the settings. -/
def PollingSettings.coordinatorConfig (p : PollingSettings) : CoordinatorConfig where
  staggerStep := .ofMillis p.staggerStepMillis
  jitterMax := .ofMillis p.jitterMaxMillis

namespace FeedConfig

/-- The time between two fetches. -/
def interval (f : FeedConfig) : Duration := .ofSeconds f.intervalSeconds

/-- The poll that fetches the feed. -/
def pollOptions (f : FeedConfig) : PollOptions where
  key := f.key
  interval := f.interval
  requiresAuth := f.requiresAuth
  pauseWhenBackendDown := f.pauseWhenBackendDown

end FeedConfig

namespace Settings

/-- The program's directory below the user's configuration directory. -/
def directory (configDirectory : String) : String := configDirectory ++ "/disruption-poller"

/-- The settings file. -/
def path (configDirectory : String) : String := directory configDirectory ++ "/config.toml"

/-- The session token file that is used when the settings name none. -/
def defaultTokenPath (configDirectory : String) : String :=
  directory configDirectory ++ "/session-token"

end Settings

/-- Where the session token is, if there is a place for it at all. -/
def AuthSettings.resolvedTokenPath (a : AuthSettings) (configDirectory : Option String) :
    Option String :=
  match a.tokenPath with
  | some path => some path
  | none => configDirectory.map Settings.defaultTokenPath

end FeedPoller
