/-
Watching the session token.

A watcher is told of every change to the token's file and publishes whether somebody is
signed in.  A change of a file comes as a burst of notices, so after the first one the
watcher pauses, throws away the notices that have come meanwhile, and only then looks at
the file.  Nothing is lost by that: a notice that is thrown away is older than the look,
and one that comes later starts another turn.
-/
import FeedPoller.Auth.Token
import FeedPoller.Path
import FeedPoller.Signal.Watch
import FeedPoller.Time.Duration

namespace FeedPoller

/-- Where a watcher is in its turn. -/
inductive TokenWatcherPhase where
  /-- It waits for a notice. -/
  | waiting
  /-- It lets a burst of notices pass. -/
  | pausing
  /-- It throws away the notices that have come. -/
  | draining
  /-- It is about to look at the file. -/
  | looking
deriving DecidableEq, Repr

/-- A watcher of the session token. -/
structure TokenWatcher where
  /-- What is published: whether somebody is signed in. -/
  watch : Watch
  /-- How many notices have not been dealt with. -/
  notices : Nat := 0
  phase : TokenWatcherPhase := .waiting
deriving DecidableEq, Repr

/-- Why a token cannot be watched. -/
inductive TokenWatchError where
  | noParent
  | noFileName
  /-- The token's directory does not exist and cannot be made. -/
  | noDirectory (path : String)
deriving DecidableEq, Repr

/-- The text of a failure to watch. -/
def TokenWatchError.message : TokenWatchError → String
  | .noParent => "Session token path has no parent directory"
  | .noFileName => "Session token path has no file name"
  | .noDirectory path => "Failed to create directory: " ++ path

namespace TokenWatcher

/-- How long a watcher pauses after the first notice of a burst. -/
def pause : Duration := .ofMillis 200

/-- A watcher of a file, which publishes at first what it finds. -/
def ofFile (file : FileContent) : TokenWatcher := { watch := .new file.holdsToken }

/--
Start to watch the file at a path.  The file has to be in a directory, which is made if it
does not exist.
-/
def start (path : String) (makeDirectory : String → Bool) (file : FileContent) :
    Except TokenWatchError TokenWatcher :=
  match Path.parent? path, Path.fileName? path with
  | none, _ => .error .noParent
  | _, none => .error .noFileName
  | some parent, some _ =>
    if makeDirectory parent then .ok (ofFile file) else .error (.noDirectory parent)

/-- A notice about the file has come. -/
def notify (t : TokenWatcher) : TokenWatcher := { t with notices := t.notices + 1 }

/-- Take up the first notice of a burst. -/
def receive (t : TokenWatcher) : TokenWatcher :=
  match t.phase, t.notices with
  | .waiting, n + 1 => { t with notices := n, phase := .pausing }
  | _, _ => t

/-- The pause is over. -/
def wake (t : TokenWatcher) : TokenWatcher :=
  match t.phase with
  | .pausing => { t with phase := .draining }
  | _ => t

/-- Throw away one notice, or go on if there is none left. -/
def drain (t : TokenWatcher) : TokenWatcher :=
  match t.phase, t.notices with
  | .draining, n + 1 => { t with notices := n }
  | .draining, 0 => { t with phase := .looking }
  | _, _ => t

/-- Publish what is found if it is news; tells whether it was. -/
def publish (t : TokenWatcher) (file : FileContent) : TokenWatcher × Bool :=
  let (watch, news) := t.watch.publish file.holdsToken
  ({ t with watch }, news)

/-- Look at the file, which ends the turn. -/
def look (t : TokenWatcher) (file : FileContent) : TokenWatcher :=
  match t.phase with
  | .looking => { (t.publish file).1 with phase := .waiting }
  | _ => t

/-- Throw away all notices. -/
def drainAll (t : TokenWatcher) : Nat → TokenWatcher
  | 0 => t
  | fuel + 1 => t.drain.drainAll fuel

/-- A whole turn, during which nothing happens to the file. -/
def turn (t : TokenWatcher) (file : FileContent) : TokenWatcher :=
  let t := t.receive.wake
  (t.drainAll (t.notices + 1)).look file

end TokenWatcher

end FeedPoller
