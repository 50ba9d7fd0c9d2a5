/-
Addresses on the web.

An address is written down more loosely than it is sent.  Blanks around it and line breaks
in it are dropped, backslashes count as slashes, a name of a host is written in small
letters, the port that goes without saying is left out, steps up and down within the path
are taken, and what may not stand in an address is written as percent signs and numbers.
Only addresses of the two schemes that can be asked for documents are of any use.
-/
namespace FeedPoller

/-- What makes a text no address. -/
inductive UrlError where
  /-- It does not begin with a scheme. -/
  | relative
  | scheme
  | emptyHost
  | host
  | port
deriving DecidableEq, Repr

/-- The text of a fault in an address. -/
def UrlError.message : UrlError → String
  | .relative => "relative URL without a base"
  | .scheme => "URL scheme is not allowed"
  | .emptyHost => "empty host"
  | .host => "invalid domain character"
  | .port => "invalid port number"

/-- An address. -/
structure Url where
  /-- Whether the exchange is to be encrypted. -/
  secure : Bool
  host : String
  /-- The port, unless it is the scheme's own. -/
  port : Option Nat
  path : String
  query : Option String
  fragment : Option String
deriving DecidableEq, Repr

namespace Url

/-- A byte as a percent sign and two digits. -/
def percentEncoded (b : UInt8) : List Char :=
  let digit (n : Nat) : Char := (Nat.digitChar n).toUpper
  ['%', digit (b.toNat / 16), digit (b.toNat % 16)]

/-- A text in which the characters outside of ASCII's visible ones and some more are numbers. -/
def encoded (alsoNot : List Char) (cs : List Char) : String :=
  String.ofList (cs.flatMap fun c =>
    if c.toNat ≤ 0x20 || 0x7F ≤ c.toNat || alsoNot.contains c then
      c.toString.toUTF8.toList.flatMap percentEncoded
    else [c])

def pathEncoded : List Char → String := encoded ['"', '#', '<', '>', '?', '\x60', '\x7b', '\x7d']
def queryEncoded : List Char → String := encoded ['"', '#', '<', '>', '\'']
def fragmentEncoded : List Char → String := encoded ['"', '<', '>', '\x60']

/-- A text without the blanks and controls around it, and without line breaks and tabs. -/
def stripped (s : String) : List Char :=
  let isEdge (c : Char) : Bool := c.toNat ≤ 0x20
  let inner := ((s.toList.dropWhile isEdge).reverse.dropWhile isEdge).reverse
  inner.filter fun c => c != '\t' && c != '\n' && c != '\r'

/-- Split a text in front of the first character of some kind. -/
def splitAt (stop : Char → Bool) (cs : List Char) : List Char × List Char :=
  (cs.takeWhile fun c => !stop c, cs.dropWhile fun c => !stop c)

/-- The scheme in small letters, and what is behind its colon. -/
def scheme? (cs : List Char) : Option (String × List Char) :=
  match splitAt (· == ':') cs with
  | (c :: name, _ :: rest) =>
    let allowed (c : Char) : Bool := c.isAlphanum || c == '+' || c == '-' || c == '.'
    if c.isAlpha && name.all allowed then
      some (String.ofList ((c :: name).map Char.toLower), rest)
    else none
  | _ => none

def isSlash (c : Char) : Bool := c == '/' || c == '\\'

/-- Whether a character must not stand in the name of a host. -/
def isForbiddenInHost (c : Char) : Bool :=
  c.toNat ≤ 0x20 || c.toNat == 0x7F ||
  ['#', '/', ':', '<', '>', '?', '@', '[', '\\', ']', '^', '|', '%'].contains c

/-- The name of a host; an address in brackets is taken as it is. -/
def readHost (cs : List Char) : Except UrlError String :=
  if cs.isEmpty then .error .emptyHost
  else if cs.head? == some '[' && cs.getLast? == some ']' then .ok (String.ofList cs)
  else if cs.any isForbiddenInHost then .error .host
  else .ok (String.ofList (cs.map Char.toLower))

/-- The digits of a port; none of them, or the scheme's own port, say nothing. -/
def readPort (secure : Bool) (cs : List Char) : Except UrlError (Option Nat) :=
  let n := cs.foldl (fun n c => n * 10 + (c.toNat - '0'.toNat)) 0
  if !cs.all Char.isDigit || 65535 < n then .error .port
  else if cs.isEmpty || n == (if secure then 443 else 80) then .ok none
  else .ok (some n)

/-- Host and port; who asks may be named in front, which is of no interest here. -/
def readAuthority (secure : Bool) (cs : List Char) : Except UrlError (String × Option Nat) := do
  let cs := (cs.reverse.takeWhile (· != '@')).reverse
  let (portBack, rest) := splitAt (fun c => c == ':' || c == ']') cs.reverse
  match rest with
  | ':' :: hostBack => return (← readHost hostBack.reverse, ← readPort secure portBack.reverse)
  | _ => return (← readHost cs, none)

/-- Whether a name in a path stays where it is, in any spelling. -/
def isStay (name : String) : Bool := [".", "%2e"].contains name.toLower

/-- Whether a name in a path goes up, in any spelling. -/
def isUp (name : String) : Bool := ["..", ".%2e", "%2e.", "%2e%2e"].contains name.toLower

/-- The names between the slashes of a path. -/
def names : List Char → List (List Char)
  | [] => [[]]
  | c :: cs =>
    if isSlash c then [] :: names cs
    else
      match names cs with
      | [] => [[c]]
      | name :: rest => (c :: name) :: rest

/-- Take the steps of a path, `taken` being the names of those taken so far, last first. -/
def walk (taken : List String) : List String → List String
  | [] => taken.reverse
  | name :: rest =>
    let isLast := rest.isEmpty
    if isUp name then walk (if isLast then "" :: taken.tail else taken.tail) rest
    else if isStay name then walk (if isLast then "" :: taken else taken) rest
    else walk (name :: taken) rest

/-- A path, which begins with a slash. -/
def readPath (cs : List Char) : String :=
  let cs := match cs with
    | c :: rest => if isSlash c then rest else cs
    | [] => []
  "/" ++ "/".intercalate (walk [] ((names cs).map pathEncoded))

/-- An address. -/
def read (s : String) : Except UrlError Url := do
  match scheme? (stripped s) with
  | none => .error .relative
  | some (scheme, rest) =>
    if scheme != "http" && scheme != "https" then .error .scheme
    else
      let secure := scheme == "https"
      let (rest, fragment) := splitAt (· == '#') rest
      let (rest, query) := splitAt (· == '?') rest
      let (authority, path) := splitAt isSlash (rest.dropWhile isSlash)
      let (host, port) ← readAuthority secure authority
      let marked (encode : List Char → String) : List Char → Option String
        | [] => none
        | _ :: cs => some (encode cs)
      return {
        secure, host, port, path := readPath path
        query := marked queryEncoded query
        fragment := marked fragmentEncoded fragment }

/-- An address as it is written when it is to be exact. -/
def text (u : Url) : String :=
  let behind (mark : String) : Option String → String
    | none => ""
    | some s => mark ++ s
  (if u.secure then "https" else "http") ++ "://" ++ u.host ++ behind ":" (u.port.map toString) ++
    u.path ++ behind "?" u.query ++ behind "#" u.fragment

end Url

end FeedPoller
