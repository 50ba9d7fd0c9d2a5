/-
Loading the settings.

Without a settings file everything has its default.  With one, the file has to be text, the
text has to be TOML that holds settings, and the settings have to make sense.
-/
import FeedPoller.FileContent
import FeedPoller.Settings.Decode
import FeedPoller.Settings.Validate

namespace FeedPoller

/-- Why settings could not be loaded. -/
inductive LoadError where
  /-- There is no place for a settings file. -/
  | noDirectory
  | unreadable (path : String)
  | unparsable (path : String)
  | invalid (e : SettingsError)
deriving DecidableEq, Repr

/-- The text of a failure to load. -/
def LoadError.message : LoadError → String
  | .noDirectory => "Could not determine config directory"
  | .unreadable path => "Failed to read config file: " ++ path
  | .unparsable path => "Failed to parse config file: " ++ path
  | .invalid e => e.message

/-- The settings in a file at a path. -/
def Settings.load (path : String) (file : FileContent) : Except LoadError Settings :=
  match file with
  | .missing => .ok {}
  | file =>
    match file.read with
    | .error _ => .error (.unreadable path)
    | .ok text =>
      match Settings.ofToml text with
      | none => .error (.unparsable path)
      | some s =>
        match s.fault? with
        | some e => .error (.invalid e)
        | none => .ok s

end FeedPoller
