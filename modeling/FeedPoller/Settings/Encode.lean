/-
Settings as data.

All fields are written, `null` for those that have no value.
-/
import FeedPoller.Json.Value
import FeedPoller.Settings.Basic

namespace FeedPoller

open Json (Value)

def PollingSettings.encode (p : PollingSettings) : Value := .object [
  ("stagger_step_ms", .nat p.staggerStepMillis),
  ("jitter_max_ms", .nat p.jitterMaxMillis)]

def BackendSettings.encode (b : BackendSettings) : Value := .object [
  ("health_url", .ofOption .string b.healthUrl),
  ("health_interval_secs", .nat b.healthIntervalSeconds),
  ("timeout_secs", .nat b.timeoutSeconds)]

def AuthSettings.encode (a : AuthSettings) : Value := .object [
  ("token_path", .ofOption .string a.tokenPath)]

def FeedConfig.encode (f : FeedConfig) : Value := .object [
  ("key", .string f.key),
  ("url", .string f.url),
  ("interval_secs", .nat f.intervalSeconds),
  ("requires_auth", .bool f.requiresAuth),
  ("pause_when_backend_down", .bool f.pauseWhenBackendDown)]

def Settings.encode (s : Settings) : Value := .object [
  ("polling", s.polling.encode),
  ("backend", s.backend.encode),
  ("auth", s.auth.encode),
  ("feeds", .array (s.feeds.map FeedConfig.encode))]

end FeedPoller
