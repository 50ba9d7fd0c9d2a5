/-
Feeds on the web.

A feed is fetched by asking for the document at its address.  A feed for signed-in users
sends the session token along and is not even asked for without one; other feeds never
look at the token.  A response is good if its status means success and its body is a JSON
text.
-/
import FeedPoller.Auth.Token
import FeedPoller.Feed.Fetch
import FeedPoller.Http.Exchange
import FeedPoller.Json.Reader
import FeedPoller.Settings.Basic
import FeedPoller.Text.Utf8

namespace FeedPoller

/-- A feed on the web. -/
structure HttpFeed where
  key : String
  url : String
  /-- Where the token is that has to be sent along. -/
  tokenPath : Option String := none
deriving DecidableEq, Repr

/-- Why a fetch brought nothing. -/
inductive FetchError where
  | token (e : TokenError)
  /-- There was no response, for these causes. -/
  | noResponse (key : String) (causes : List String)
  /-- The response does not mean success; it explains itself by its body. -/
  | refused (key : String) (status : Nat) (body : String)
  /-- The body is no JSON text. -/
  | unreadable (key : String)
deriving DecidableEq, Repr

namespace FetchError

/-- The text of a failed fetch. -/
def message : FetchError → String
  | .token e => e.message
  | .noResponse key _ => "Failed to fetch feed '" ++ key ++ "'"
  | .refused key status body =>
    "Feed '" ++ key ++ "' returned " ++ Http.statusText status ++ " - " ++ body
  | .unreadable key => "Failed to parse feed '" ++ key ++ "' as JSON"

/-- The text of a failed fetch, and behind it the causes that are known. -/
def causes (e : FetchError) : List String :=
  match e with
  | .token e => e.causes
  | .noResponse _ causes => e.message :: causes
  | _ => [e.message]

end FetchError

namespace HttpFeed

/-- The feed that settings describe; only one for signed-in users is told where the token is. -/
def ofConfig (f : FeedConfig) (tokenPath : Option String) : HttpFeed :=
  { key := f.key, url := f.url, tokenPath := if f.requiresAuth then tokenPath else none }

/-- The token to be sent along, if any is wanted. -/
def bearer (f : HttpFeed) (token : FileContent) : Except TokenError (Option String) :=
  match f.tokenPath with
  | none => .ok none
  | some path => (readToken path token).map some

/-- The request for the feed, given what is in the token's file. -/
def request (f : HttpFeed) (token : FileContent) : Except FetchError Http.Request :=
  match f.bearer token with
  | .error e => .error (.token e)
  | .ok bearer =>
    match Http.Request.make f.url bearer with
    | .error causes => .error (.noResponse f.key causes)
    | .ok r => .ok r

/-- What a reply brings; a body that has been cut short cannot explain anything. -/
def receive (f : HttpFeed) : Http.Reply → Except FetchError Json.Value
  | .failed causes => .error (.noResponse f.key causes)
  | .response status body =>
    if Http.isSuccess status then
      match (body.bind String.fromUTF8?).bind Json.Value.read with
      | none => .error (.unreadable f.key)
      | some v => .ok v
    else .error (.refused f.key status ((body.map Text.ofBytes).getD ""))

/-- Fetch the feed over a link. -/
def fetch (f : HttpFeed) (link : Http.Link) (token : FileContent) : Except FetchError Json.Value :=
  match f.request token with
  | .error e => .error e
  | .ok r => f.receive (link r)

/-- The end of a fetch, as the store is told about it. -/
def outcome (f : HttpFeed) (link : Http.Link) (token : FileContent) : FetchOutcome :=
  match f.fetch link token with
  | .ok v => .data v
  | .error e => .failed e.causes

end HttpFeed

end FeedPoller
