/-
Asking for a document on the web.

A request names an address and may carry a token.  It is sent over a link, which answers
with a response or fails; what a link does with a request, such as going where it is sent
on to, is its own business.  A request that cannot be written down is never sent.
-/
import FeedPoller.Http.Status
import FeedPoller.Http.Url

namespace FeedPoller.Http

/-- A request for a document. -/
structure Request where
  url : Url
  /-- The token that shows who asks. -/
  bearer : Option String := none
deriving DecidableEq, Repr

/-- What comes of a request. -/
inductive Reply where
  /-- There is no response, for these causes, from the outermost to the innermost. -/
  | failed (causes : List String)
  /-- A response, whose body is missing if it has not arrived as a whole. -/
  | response (status : Nat) (body : Option ByteArray)

/-- Whether a reply is a success. -/
def Reply.isSuccess : Reply → Bool
  | .failed _ => false
  | .response status _ => Http.isSuccess status

/-- What requests are sent over. -/
abbrev Link := Request → Reply

/-- Whether a text can stand in the head of a request: no control but the tab. -/
def fitsInHead (s : String) : Bool :=
  s.toList.all fun c => c == '\t' || (0x20 ≤ c.toNat && c.toNat != 0x7F)

/-- The request for a document, or why it cannot be written down. -/
def Request.make (url : String) (bearer : Option String) : Except (List String) Request :=
  match Url.read url with
  | .error e => .error ["builder error", e.message]
  | .ok url =>
    if bearer.all fitsInHead then .ok { url, bearer }
    else .error ["builder error", "failed to parse header value"]

/-- A link that leads nowhere. -/
def Link.unreachable : Link := fun r =>
  .failed ["error sending request for url (" ++ r.url.text ++ ")", "client error (Connect)",
    "tcp connect error", "Network is unreachable (os error 101)"]

end FeedPoller.Http
