/-
The session token among its changes.

The watcher of the token is a task of its own.  While it runs the file changes, and some
time behind a change there is an event of the file system, which names what it is about;
all of this happens in any order.  The steps of the watcher are taken one by one.  Even its
look at the file is not of a piece: what it finds is one thing, that it is published
another, and the file may change in between.
-/
import FeedPoller.Auth.Watcher

namespace FeedPoller

/-- A token's file and its watcher. -/
structure TokenSystem where
  path : String
  file : FileContent
  watcher : TokenWatcher
  /-- What has been found at a look and is not published yet. -/
  found : Option FileContent := none

/-- Something that happens to a token's file or its watcher. -/
inductive TokenEvent where
  | change (c : FileChange)
  /-- There is an event of the file system about these paths. -/
  | tell (paths : List String)
  | receive
  | wake
  | drain
  /-- The watcher finds out about the file. -/
  | look
  /-- The watcher publishes what it has found. -/
  | publish

/-- Whether an event about these paths is one about the file at a path: they are all in its
directory, so the last name tells. -/
def Path.isAmong (path : String) (paths : List String) : Bool :=
  match Path.fileName? path with
  | none => false
  | some name => paths.any fun other => Path.fileName? other == some name

/-- Every change in a history has an event about the file somewhere behind it. -/
def Reported (path : String) (events : List TokenEvent) : Prop :=
  ∀ before c after, events = before ++ .change c :: after →
    ∃ paths, .tell paths ∈ after ∧ Path.isAmong path paths = true

namespace TokenSystem

/-- A system whose watcher has just been started; nothing happens to the file meanwhile. -/
def start (path : String) (makeDirectory : String → Bool) (file : FileContent) :
    Except TokenWatchError TokenSystem :=
  (TokenWatcher.start path makeDirectory file).map fun watcher => { path, file, watcher }

/-- The system after an event.  The watcher looks once, and publishes only what it has found. -/
def step (s : TokenSystem) : TokenEvent → TokenSystem
  | .change c => { s with file := s.file.change c }
  | .tell paths =>
      if Path.isAmong s.path paths then { s with watcher := s.watcher.notify } else s
  | .receive => { s with watcher := s.watcher.receive }
  | .wake => { s with watcher := s.watcher.wake }
  | .drain => { s with watcher := s.watcher.drain }
  | .look =>
      match s.watcher.phase, s.found with
      | .looking, none => { s with found := some s.file }
      | _, _ => s
  | .publish =>
      match s.found with
      | none => s
      | some file => { s with watcher := s.watcher.look file, found := none }

/-- The system after a history. -/
def run (s : TokenSystem) (events : List TokenEvent) : TokenSystem := events.foldl step s

/-- The watcher waits, and there is no notice for it. -/
def Resting (s : TokenSystem) : Prop := s.watcher.phase = .waiting ∧ s.watcher.notices = 0

/-- The steps of one turn of the watcher, when nothing else happens. -/
def lap (s : TokenSystem) : List TokenEvent :=
  .receive :: .wake :: List.replicate (s.watcher.notices + 1) .drain ++ [.look, .publish]

/-- The system after a turn of its watcher, when nothing else happens. -/
def turned (s : TokenSystem) : TokenSystem := s.run s.lap

end TokenSystem

end FeedPoller
