/-
Playing changes to the session token.

A script says what happens to the token's file, and after each of its steps there is a
look at the file and at what is published about it.  The file is either watched, and then
the watcher has caught up before every look, or the script says after which steps the
file's state is to be published.
-/
import FeedPoller.Auth.Watcher

namespace FeedPoller.Simulation

/-- A step of a script about the token. -/
structure TokenStep where
  /-- What happens to the file, if anything does. -/
  change : Option FileChange
  /-- Whether the state is published behind the step; a watcher does not ask. -/
  publishes : Bool := true

/-- What is seen of the token. -/
structure TokenLook where
  present : Bool
  value : Bool
  /-- Whether publishing the state changed the value, where it was published by hand. -/
  published : Option Bool := none

/-- The file at a path after a step; where no file can have a name nothing ever happens. -/
def TokenStep.apply (s : TokenStep) (path : String) (file : FileContent) : FileContent :=
  match s.change with
  | none => file
  | some c => if (Path.fileName? path).isSome then file.change c else file

/-- The token as it is seen. -/
def tokenLook (t : TokenWatcher) (file : FileContent) (published : Option Bool) : TokenLook :=
  { present := file.holdsToken, value := t.watch.value, published }

/-- One step with a watcher. -/
def watchedStep (path : String) (t : TokenWatcher) (file : FileContent) (s : TokenStep) :
    TokenWatcher × FileContent × TokenLook :=
  let file := s.apply path file
  let t := if s.change.isSome then t.notify.turn file else t
  (t, file, tokenLook t file none)

/-- One step without a watcher. -/
def unwatchedStep (path : String) (t : TokenWatcher) (file : FileContent) (s : TokenStep) :
    TokenWatcher × FileContent × TokenLook :=
  let file := s.apply path file
  if s.publishes then
    let (t, news) := t.publish file
    (t, file, tokenLook t file (some news))
  else (t, file, tokenLook t file none)

/-- The looks after the steps of a script. -/
def tokenLooks
    (step : TokenWatcher → FileContent → TokenStep → TokenWatcher × FileContent × TokenLook) :
    TokenWatcher → FileContent → List TokenStep → List TokenLook
  | _, _, [] => []
  | t, file, s :: steps =>
    let (t, file, look) := step t file s
    look :: tokenLooks step t file steps

/-- The state of the file before a script begins. -/
def fileBefore (path : String) (before : Option TokenStep) : FileContent :=
  match before with
  | none => .missing
  | some s => s.apply path .missing

/-- Play a script with a watcher. -/
def playWatched (path : String) (before : Option TokenStep) (steps : List TokenStep) :
    Except TokenWatchError (List TokenLook) :=
  let file := fileBefore path before
  match TokenWatcher.start path (fun _ => true) file with
  | .error e => .error e
  | .ok t => .ok (tokenLook t file none :: tokenLooks (watchedStep path) t file steps)

/-- Play a script without a watcher, with a value that is published at first. -/
def playUnwatched (path : String) (initial : Bool) (before : Option TokenStep)
    (steps : List TokenStep) : List TokenLook :=
  let file := fileBefore path before
  let t : TokenWatcher := { watch := .new initial }
  tokenLook t file none :: tokenLooks (unwatchedStep path) t file steps

end FeedPoller.Simulation
