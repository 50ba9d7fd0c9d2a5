/-
Settings in data.

Each part of the settings is a record.  A part may be missing, and so may any of its
fields; of a feed's fields only the last two may.  Fields that no part has are passed
over.  Settings written as data and settings written as TOML differ in one point only: in
TOML a record that is given as a list may have more items than the record has fields.
-/
import FeedPoller.Json.Value
import FeedPoller.Record
import FeedPoller.Settings.Basic
import FeedPoller.Toml.Document

namespace FeedPoller

open Json (Value)

namespace Settings.Decode

/-- The fields of a record. -/
def slots? (mayGoOn : Bool) (v : Value) (names : List String) : Option (List (Slot Value)) :=
  match v with
  | .object fields =>
    RecordSource.slots (.named (fields.map fun (name, v) => (some name, v))) names mayGoOn
  | .array items => RecordSource.slots (.listed items) names mayGoOn
  | _ => none

def bool : Value → Option Bool
  | .bool b => some b
  | _ => none

def text : Value → Option String
  | .string s => some s
  | _ => none

/-- A number that is not negative. -/
def count : Value → Option Nat
  | .number (.integer n) => if 0 ≤ n then some n.toNat else none
  | _ => none

/-- A text that may be `null`. -/
def textOrNull : Value → Option (Option String)
  | .null => some none
  | v => (text v).map some

def polling (mayGoOn : Bool) (v : Value) : Option PollingSettings := do
  let base : PollingSettings := {}
  match ← slots? mayGoOn v ["stagger_step_ms", "jitter_max_ms"] with
  | [staggerStep, jitterMax] =>
    some {
      staggerStepMillis := ← staggerStep.defaulting base.staggerStepMillis count
      jitterMaxMillis := ← jitterMax.defaulting base.jitterMaxMillis count }
  | _ => none

def backend (mayGoOn : Bool) (v : Value) : Option BackendSettings := do
  let base : BackendSettings := {}
  match ← slots? mayGoOn v ["health_url", "health_interval_secs", "timeout_secs"] with
  | [healthUrl, healthInterval, timeout] =>
    some {
      healthUrl := ← healthUrl.defaulting base.healthUrl textOrNull
      healthIntervalSeconds := ← healthInterval.defaulting base.healthIntervalSeconds count
      timeoutSeconds := ← timeout.defaulting base.timeoutSeconds count }
  | _ => none

def auth (mayGoOn : Bool) (v : Value) : Option AuthSettings := do
  match ← slots? mayGoOn v ["token_path"] with
  | [tokenPath] => some { tokenPath := ← tokenPath.defaulting none textOrNull }
  | _ => none

def feed (mayGoOn : Bool) (v : Value) : Option FeedConfig := do
  match ← slots? mayGoOn v
      ["key", "url", "interval_secs", "requires_auth", "pause_when_backend_down"] with
  | [key, url, interval, requiresAuth, pauseWhenBackendDown] =>
    some {
      key := ← key.required text
      url := ← url.required text
      intervalSeconds := ← interval.required count
      requiresAuth := ← requiresAuth.defaulting false bool
      pauseWhenBackendDown := ← pauseWhenBackendDown.defaulting true bool }
  | _ => none

def feeds (mayGoOn : Bool) : Value → Option (List FeedConfig)
  | .array items => items.mapM (feed mayGoOn)
  | _ => none

def settings (mayGoOn : Bool) (v : Value) : Option Settings := do
  match ← slots? mayGoOn v ["polling", "backend", "auth", "feeds"] with
  | [p, b, a, f] =>
    some {
      polling := ← p.defaulting {} (polling mayGoOn)
      backend := ← b.defaulting {} (backend mayGoOn)
      auth := ← a.defaulting {} (auth mayGoOn)
      feeds := ← f.defaulting [] (feeds mayGoOn) }
  | _ => none

end Settings.Decode

namespace Toml.Value

mutual

/--
A value as plain data.  A number with a point stays one, but not which; a date or a time is
a record with none of the fields that anybody asks for.
-/
def plain : Value → Json.Value
  | .string s => .string s
  | .integer n => .number (.integer n)
  | .float => .number (.float (.zero false))
  | .bool b => .bool b
  | .dateTime => .object []
  | .array items => .array (plainItems items)
  | .table fields => .object (plainFields fields)

def plainItems : List Value → List Json.Value
  | [] => []
  | v :: vs => v.plain :: plainItems vs

def plainFields : List (String × Value) → List (String × Json.Value)
  | [] => []
  | (name, v) :: fields => (name, v.plain) :: plainFields fields

end

end Toml.Value

namespace Settings

/-- The settings that data holds. -/
def ofData (v : Value) : Option Settings := Decode.settings false v

/-- The settings that a TOML text holds. -/
def ofToml (s : String) : Option Settings := do Decode.settings true (← Toml.read s).plain

end Settings

end FeedPoller
