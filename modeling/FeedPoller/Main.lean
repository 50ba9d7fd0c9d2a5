/-
The command line.

There is no bus to meet a daemon on from here.  So what needs no bus is done, which includes
everything that can go wrong before there is need of one, and everything else fails for want
of it.
-/
import FeedPoller.Command.Completion
import FeedPoller.Command.Query
import FeedPoller.Command.Usage
import FeedPoller.Daemon.Launch

namespace FeedPoller.Program

/-- The user's configuration directory, which has to be given by an absolute path. -/
def configDirectory? : IO (Option String) := do
  match ← IO.getEnv "XDG_CONFIG_HOME" with
  | some path =>
    if path.startsWith "/" then return some path
    else return (← IO.getEnv "HOME").map (· ++ "/.config")
  | none => return (← IO.getEnv "HOME").map (· ++ "/.config")

/-- What is found at a path. -/
def readFile (path : String) : IO FileContent := do
  try
    return .bytes (← IO.FS.readBinFile path)
  catch e =>
    match e with
    | .noFileOrDirectory .. => return .missing
    | _ => return .directory

/-- Make a directory; tells whether it is there afterwards. -/
def makeDirectory (path : String) : IO Bool := do
  if path.isEmpty then return true
  try
    IO.FS.createDirAll path
    return true
  catch _ => return false

/-- Start to watch the token, if there is a place for one. -/
def watchToken (path : Option String) : IO (Except TokenWatchError Unit) := do
  match path with
  | none => return .ok ()
  | some path =>
    let made ← match Path.parent? path with
      | none => pure true
      | some parent => makeDirectory parent
    let file ← readFile path
    return (TokenWatcher.start path (fun _ => made) file).map fun _ => ()

/-- Start the daemon, which fails at the latest when it wants to be found on a bus. -/
def runDaemon : IO String := do
  match ← configDirectory? with
  | none => return (LaunchError.settings .noDirectory).message
  | some directory =>
    let path := Settings.path directory
    match Settings.load path (← readFile path) with
    | .error e => return (LaunchError.settings e).message
    | .ok settings =>
      match ← watchToken (settings.auth.resolvedTokenPath (some directory)) with
      | .error e => return (LaunchError.token e).message
      | .ok () =>
        let clock : Clock := ⟨⟨0⟩, ⟨0, 0⟩⟩
        match (Coordinator.launch settings false clock ⟨[], []⟩).2 with
        | .error e => return e.message
        | .ok _ => return QueryError.noBus.message

/-- Tell about a failure. -/
def fail (message : String) : IO UInt32 := do
  IO.eprintln ("Error: " ++ message)
  return 1

/-- Answer arguments that do not tell the program what to do. -/
def answer (e : ArgumentError) : IO UInt32 := do
  match e, e.message? with
  | .version, _ => IO.println Usage.version
  | .help, _ => IO.println ("\n".intercalate Usage.lines)
  | _, none => IO.eprintln ("\n".intercalate Usage.lines)
  | _, some message => IO.eprintln ("error: " ++ message)
  return UInt32.ofNat e.exitCode

/-- Do what the arguments say. -/
def run (arguments : List String) : IO UInt32 := do
  match Command.read arguments with
  | .error e => answer e
  | .ok (.completions shell) =>
    IO.print (Completion.script shell)
    return 0
  | .ok .daemon => fail (← runDaemon)
  | .ok (.status _) => fail QueryError.noBus.message
  | .ok .focus => fail QueryError.noBus.message

end FeedPoller.Program

def main (arguments : List String) : IO UInt32 := FeedPoller.Program.run arguments
