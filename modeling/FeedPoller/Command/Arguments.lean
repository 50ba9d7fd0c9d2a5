/-
The arguments of the program.

The first argument says what to do and the others belong to it.  Arguments are read from the
front and the first one that does not fit is the one that is told, also if a later one
asks for help.  Flags have a long name and perhaps a letter, and letters can be put together.
A flag that is there takes no value and may not be there twice.  Behind two dashes nothing is a
flag any longer.
-/
namespace FeedPoller

/-- The shells that completions can be made for. -/
inductive Shell where
  | bash
  | elvish
  | fish
  | powershell
  | zsh
deriving DecidableEq, Repr

namespace Shell

def name : Shell → String
  | .bash => "bash"
  | .elvish => "elvish"
  | .fish => "fish"
  | .powershell => "powershell"
  | .zsh => "zsh"

def all : List Shell := [.bash, .elvish, .fish, .powershell, .zsh]

/-- The shell of a name, which is written in small letters. -/
def ofName? (s : String) : Option Shell := all.find? fun shell => shell.name == s

end Shell

/-- What the program is told to do. -/
inductive Command where
  | daemon
  | status (json : Bool)
  | focus
  | completions (shell : Shell)
deriving DecidableEq, Repr

/-- Why the arguments do not tell the program what to do. -/
inductive ArgumentError where
  /-- There is no command. -/
  | noCommand
  /-- They ask for help, or for the version. -/
  | help
  | version
  | unknownCommand (argument : String)
  | unknownArgument (argument : String)
  /-- A flag comes with a value. -/
  | needlessValue (flag : String)
  /-- A flag comes twice. -/
  | repeated (flag : String)
  | missingShell
  | unknownShell (argument : String)
deriving DecidableEq, Repr

namespace ArgumentError

/-- The program's exit code; a question that is answered is no failure. -/
def exitCode : ArgumentError → Nat
  | .help => 0
  | .version => 0
  | _ => 2

/-- The text of a failure, where there is one. -/
def message? : ArgumentError → Option String
  | .noCommand => none
  | .help => none
  | .version => none
  | .unknownCommand a => some ("unrecognized subcommand '" ++ a ++ "'")
  | .unknownArgument a => some ("unexpected argument '" ++ a ++ "' found")
  | .needlessValue flag =>
    some ("unexpected value for '" ++ flag ++ "' found; no more were expected")
  | .repeated flag => some ("the argument '" ++ flag ++ "' cannot be used multiple times")
  | .missingShell => some "the following required arguments were not provided:\n  <SHELL>"
  | .unknownShell a => some ("invalid value '" ++ a ++ "' for '<SHELL>'")

end ArgumentError

/-- A flag. -/
inductive Flag where
  | help
  | version
  | json
deriving DecidableEq, Repr

namespace Flag

/-- The long name, without its dashes. -/
def name : Flag → String
  | .help => "help"
  | .version => "version"
  | .json => "json"

def letter? : Flag → Option Char
  | .help => some 'h'
  | .version => some 'V'
  | .json => none

def about : Flag → String
  | .help => "Print help"
  | .version => "Print version"
  | .json => "Output as JSON"

end Flag

/-- A command's name, what it is good for, and what it can be given. -/
structure CommandForm where
  name : String
  about : String
  flags : List Flag := [.help]
  takesShell : Bool := false
deriving DecidableEq, Repr

namespace CommandForm

def daemon : CommandForm := { name := "daemon", about := "Start the polling daemon" }

def status : CommandForm := {
  name := "status"
  about := "Show registered polls and feed state"
  flags := [.json, .help] }

def focus : CommandForm := {
  name := "focus"
  about := "Tell the daemon the user is back, refreshing every active poll" }

def completions : CommandForm := {
  name := "completions"
  about := "Generate shell completions"
  takesShell := true }

/-- The command that shows the help of another one, or of all. -/
def help : CommandForm := {
  name := "help"
  about := "Print this message or the help of the given subcommand(s)"
  flags := [] }

/-- The program itself, which can be given flags instead of a command. -/
def program : CommandForm := {
  name := "disruption-poller"
  about := "Polling coordinator daemon for transit-disruption dashboards"
  flags := [.help, .version] }

/-- All commands. -/
def all : List CommandForm := [daemon, status, focus, completions, help]

/-- Whether there is a command of some name. -/
def isName (s : String) : Bool := all.any fun form => form.name == s

end CommandForm

/-- What has been read of a command's arguments. -/
structure Arguments where
  json : Bool := false
  /-- The name of a shell, which is not looked at before something else is read. -/
  shell : Option String := none
deriving DecidableEq, Repr

namespace Arguments

/-- The fault in the name of the shell that has been read. -/
def shellFault? (a : Arguments) : Option ArgumentError :=
  match a.shell with
  | none => none
  | some s => if (Shell.ofName? s).isNone then some (.unknownShell s) else none

/-- One flag more; before it the name of the shell is looked at. -/
def raise (a : Arguments) (f : Flag) : Except ArgumentError Arguments :=
  match a.shellFault?, f with
  | some e, _ => .error e
  | none, .help => .error .help
  | none, .version => .error .version
  | none, .json => if a.json then .error (.repeated "--json") else .ok { a with json := true }

end Arguments

/-- An argument that is written as flags. -/
inductive FlagArgument where
  | long (name : String) (value : Option String)
  | letters (cs : List Char)

/-- The flags that an argument is written as; a dash alone is none. -/
def FlagArgument.of? (argument : String) : Option FlagArgument :=
  match argument.toList with
  | '-' :: '-' :: cs =>
    let name := String.ofList (cs.takeWhile (· != '='))
    match cs.dropWhile (· != '=') with
    | [] => some (.long name none)
    | _ :: value => some (.long name (some (String.ofList value)))
  | '-' :: c :: cs => some (.letters (c :: cs))
  | _ => none

namespace CommandForm

/-- Read flags that are given by letters. -/
def readLetters (form : CommandForm) (a : Arguments) : List Char → Except ArgumentError Arguments
  | [] => .ok a
  | c :: cs =>
    match form.flags.find? fun f => f.letter? == some c with
    | none => .error (.unknownArgument ("-" ++ c.toString))
    | some f => do form.readLetters (← a.raise f) cs

/-- Read an argument that is written as flags. -/
def readFlags (form : CommandForm) (a : Arguments) : FlagArgument → Except ArgumentError Arguments
  | .letters cs => form.readLetters a cs
  | .long name value =>
    match form.flags.find? fun f => f.name == name with
    | none => .error (.unknownArgument ("--" ++ name))
    | some f => if value.isSome then .error (.needlessValue ("--" ++ name)) else a.raise f

/-- Read arguments, `literal` telling whether two dashes have been read. -/
def read (form : CommandForm) (literal : Bool) (a : Arguments) :
    List String → Except ArgumentError Arguments
  | [] => .ok a
  | argument :: rest =>
    if !literal && argument == "--" then form.read true a rest
    else
      match if literal then none else FlagArgument.of? argument with
      | some flags => do form.read literal (← form.readFlags a flags) rest
      | none =>
        if form.takesShell && a.shell.isNone then
          form.read literal { a with shell := some argument } rest
        else .error (.unknownArgument argument)

end CommandForm

namespace Command

/-- The completions that are asked for. -/
def ofShell (a : Arguments) : Except ArgumentError Command :=
  match a.shell with
  | none => .error .missingShell
  | some s =>
    match Shell.ofName? s with
    | none => .error (.unknownShell s)
    | some shell => .ok (.completions shell)

/-- A question for the help of a command, which has to be one and has none below itself. -/
def helpFor : List String → ArgumentError
  | [] => .help
  | [name] => if CommandForm.isName name then .help else .unknownCommand name
  | name :: next :: _ => .unknownCommand (if CommandForm.isName name then next else name)

/-- Read the arguments behind two dashes that stand in the place of a command. -/
def behindDashes : List String → ArgumentError
  | [] => .noCommand
  | argument :: _ =>
    if CommandForm.isName argument then .unknownArgument argument else .unknownCommand argument

/-- What the program is told to do by its arguments. -/
def read (arguments : List String) : Except ArgumentError Command :=
  match arguments with
  | [] => .error .noCommand
  | "daemon" :: rest => do
    let _ ← CommandForm.daemon.read false {} rest
    return .daemon
  | "status" :: rest => do return .status (← CommandForm.status.read false {} rest).json
  | "focus" :: rest => do
    let _ ← CommandForm.focus.read false {} rest
    return .focus
  | "completions" :: rest => do ofShell (← CommandForm.completions.read false {} rest)
  | "help" :: rest => .error (helpFor rest)
  | "--" :: rest => .error (behindDashes rest)
  | argument :: _ =>
    match FlagArgument.of? argument with
    | none => .error (.unknownCommand argument)
    | some flags =>
      match CommandForm.program.readFlags {} flags with
      | .error e => .error e
      | .ok _ => .error .noCommand

end Command

end FeedPoller
