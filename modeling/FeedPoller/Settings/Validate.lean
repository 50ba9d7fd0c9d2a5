/-
Whether settings make sense.

Settings are judged from the front and the first fault found is the one that is told: the
backend's two intervals, and then each feed in turn, compared with the feeds before it.
-/
import FeedPoller.Settings.Basic

namespace FeedPoller

/-- What can be wrong with settings. -/
inductive SettingsError where
  | healthInterval
  | timeout
  | emptyKey (url : String)
  | duplicateKey (key : String)
  | emptyUrl (key : String)
  | interval (key : String)
deriving DecidableEq, Repr

/-- The text of a fault. -/
def SettingsError.message : SettingsError → String
  | .healthInterval => "backend.health_interval_secs must be greater than 0"
  | .timeout => "backend.timeout_secs must be greater than 0"
  | .emptyKey url => "feed key must not be empty (url: " ++ url ++ ")"
  | .duplicateKey key => "duplicate feed key: " ++ key
  | .emptyUrl key => "feed '" ++ key ++ "' has an empty url"
  | .interval key => "feed '" ++ key ++ "' must have interval_secs greater than 0"

/-- The fault of a feed that comes after feeds with the keys `seen`. -/
def FeedConfig.fault? (f : FeedConfig) (seen : List String) : Option SettingsError :=
  if Text.isBlank f.key then some (.emptyKey f.url)
  else if seen.contains f.key then some (.duplicateKey f.key)
  else if Text.isBlank f.url then some (.emptyUrl f.key)
  else if f.intervalSeconds == 0 then some (.interval f.key)
  else none

namespace Settings

/-- The first fault among feeds that come after feeds with the keys `seen`. -/
def feedFault? (seen : List String) : List FeedConfig → Option SettingsError
  | [] => none
  | f :: rest =>
    match f.fault? seen with
    | some e => some e
    | none => feedFault? (f.key :: seen) rest

/-- The first fault of the settings. -/
def fault? (s : Settings) : Option SettingsError :=
  if s.backend.healthIntervalSeconds == 0 then some .healthInterval
  else if s.backend.timeoutSeconds == 0 then some .timeout
  else feedFault? [] s.feeds

/-- Accept settings without a fault. -/
def validate (s : Settings) : Except SettingsError Unit :=
  match s.fault? with
  | some e => .error e
  | none => .ok ()

end Settings

end FeedPoller
