/-
Completions for shells.

A shell that has loaded a script from here offers the commands of the program, and behind a
command the flags and values it takes.  All scripts are made from the same table of commands.
-/
import FeedPoller.Command.Arguments

namespace FeedPoller.Completion

/-- One line out of its parts. -/
def line (parts : List String) : String := String.join parts ++ "\n"

/-- A text between single quotes. -/
def single (s : String) : String := "'" ++ s ++ "'"

/-- The ways to write a flag, the short one first. -/
def spellings (f : Flag) : List String :=
  (f.letter?.toList.map fun c => "-" ++ c.toString) ++ ["--" ++ f.name]

/-- The values that a command takes. -/
def values (form : CommandForm) : List String :=
  if form.takesShell then Shell.all.map Shell.name else []

/-- Everything that can stand behind a command. -/
def words (form : CommandForm) : List String := form.flags.flatMap spellings ++ values form

/-- The names of all commands. -/
def names : List String := CommandForm.all.map (·.name)

/-! ### The scripts -/

/-- The words that are offered, command by command. -/
def bash : String :=
  let offer (form : CommandForm) (more : List String) : String :=
    line ["        ", form.name, ") opts=\"", " ".intercalate (words form ++ more), "\" ;;"]
  line ["_disruption__poller() \x7b"] ++
  line ["    local cur=\"$2\" command=disruption-poller opts=\"\""] ++
  line ["    [[ $\x7bCOMP_CWORD\x7d -gt 1 ]] && command=\"$\x7bCOMP_WORDS[1]\x7d\""] ++
  line ["    case \"$command\" in"] ++
  offer .program names ++
  String.join (CommandForm.all.map fun form => offer form []) ++
  line ["    esac"] ++
  line ["    COMPREPLY=( $(compgen -W \"$opts\" -- \"$cur\") )"] ++
  line ["\x7d"] ++
  line ["complete -F _disruption__poller -o bashdefault -o default disruption-poller"]

def zsh : String :=
  let flag (f : Flag) : String :=
    String.join ((spellings f).map fun s => " " ++ single (s ++ "[" ++ f.about ++ "]"))
  let value (form : CommandForm) : String :=
    if form.takesShell then " ':shell:(" ++ " ".intercalate (values form) ++ ")'" else ""
  let offer (form : CommandForm) : String :=
    line ["        ", form.name, ") _arguments", String.join (form.flags.map flag),
      value form, " ;;"]
  line ["#compdef disruption-poller"] ++
  line ["_disruption-poller() \x7b"] ++
  line ["    local -a commands"] ++
  line ["    commands=("] ++
  String.join (CommandForm.all.map fun form =>
    line ["        ", single (form.name ++ ":" ++ form.about)]) ++
  line ["    )"] ++
  line ["    if (( CURRENT == 2 )); then"] ++
  line ["        _describe -t commands 'disruption-poller commands' commands"] ++
  line ["        _arguments", String.join (CommandForm.program.flags.map flag)] ++
  line ["        return"] ++
  line ["    fi"] ++
  line ["    case $words[2] in"] ++
  String.join (CommandForm.all.map offer) ++
  line ["    esac"] ++
  line ["\x7d"] ++
  line ["compdef _disruption-poller disruption-poller"]

def fish : String :=
  let complete (condition rest : String) : String :=
    line ["complete -c disruption-poller -n \"", condition, "\" ", rest]
  let flag (f : Flag) : String :=
    String.join (f.letter?.toList.map fun c => "-s " ++ c.toString ++ " ") ++
      "-l " ++ f.name ++ " -d " ++ single f.about
  let atFirst := "__fish_disruption_poller_needs_command"
  let behind (form : CommandForm) : String :=
    "__fish_disruption_poller_using_subcommand " ++ form.name
  line ["# Print an optspec for argparse to handle cmd's options",
    " that are independent of any subcommand."] ++
  line ["function __fish_disruption_poller_global_optspecs"] ++
  line ["\tstring join \\n h/help V/version"] ++
  line ["end"] ++
  line ["function __fish_disruption_poller_needs_command"] ++
  line ["\tset -l cmd (commandline -opc)"] ++
  line ["\tset -e cmd[1]"] ++
  line ["\targparse -s (__fish_disruption_poller_global_optspecs) -- $cmd 2>/dev/null"] ++
  line ["\tor return"] ++
  line ["\tif set -q argv[1]"] ++
  line ["\t\techo $argv[1]"] ++
  line ["\t\treturn 1"] ++
  line ["\tend"] ++
  line ["\treturn 0"] ++
  line ["end"] ++
  line ["function __fish_disruption_poller_using_subcommand"] ++
  line ["\tset -l cmd (__fish_disruption_poller_needs_command)"] ++
  line ["\ttest -z \"$cmd\""] ++
  line ["\tand return 1"] ++
  line ["\tcontains -- $cmd[1] $argv"] ++
  line ["end"] ++
  String.join (CommandForm.program.flags.map fun f => complete atFirst (flag f)) ++
  String.join (CommandForm.all.map fun form =>
    complete atFirst ("-f -a \"" ++ form.name ++ "\" -d " ++ single form.about)) ++
  String.join (CommandForm.all.map fun form =>
    String.join (form.flags.map fun f => complete (behind form) (flag f)) ++
    String.join ((values form).map fun v => complete (behind form) ("-f -a \"" ++ v ++ "\"")))

def elvish : String :=
  let flag (f : Flag) : String :=
    String.join ((spellings f).map fun s => line ["            cand ", s, " ", single f.about])
  let offer (path : String) (form : CommandForm) (more : String) : String :=
    line ["        &", single path, "= \x7b"] ++
    String.join (form.flags.map flag) ++
    String.join ((values form).map fun v => line ["            cand ", v, " ''"]) ++
    more ++ line ["        \x7d"]
  line ["use builtin;"] ++
  line ["use str;"] ++
  line ["set edit:completion:arg-completer[disruption-poller] = \x7b|@words|"] ++
  line ["    fn cand \x7b|text desc|"] ++
  line ["        edit:complex-candidate $text &display=$text' '$desc"] ++
  line ["    \x7d"] ++
  line ["    var command = 'disruption-poller'"] ++
  line ["    for word $words[1..-1] \x7b"] ++
  line ["        if (str:has-prefix $word '-') \x7b"] ++
  line ["            break"] ++
  line ["        \x7d"] ++
  line ["        set command = $command';'$word"] ++
  line ["    \x7d"] ++
  line ["    var completions = ["] ++
  offer "disruption-poller" .program
    (String.join (CommandForm.all.map fun form =>
      line ["            cand ", form.name, " ", single form.about])) ++
  String.join (CommandForm.all.map fun form => offer ("disruption-poller;" ++ form.name) form "") ++
  line ["    ]"] ++
  line ["    $completions[$command]"] ++
  line ["\x7d"]

def powershell : String :=
  let result (word kind about : String) : String :=
    line ["            [CompletionResult]::new('", word, "', '", word,
      "', [CompletionResultType]::", kind, ", '", about, "')"]
  let flag (f : Flag) : String :=
    String.join ((spellings f).map fun s => result s "ParameterName" f.about)
  let offer (path : String) (form : CommandForm) (more : String) : String :=
    line ["        ", single path, " \x7b"] ++
    String.join (form.flags.map flag) ++
    String.join ((values form).map fun v => result v "ParameterValue" v) ++
    more ++ line ["            break"] ++ line ["        \x7d"]
  line ["using namespace System.Management.Automation"] ++
  line ["using namespace System.Management.Automation.Language"] ++
  line ["Register-ArgumentCompleter -Native -CommandName 'disruption-poller' -ScriptBlock \x7b"] ++
  line ["    param($wordToComplete, $commandAst, $cursorPosition)"] ++
  line ["    $command = 'disruption-poller'"] ++
  line ["    foreach ($element in $commandAst.CommandElements | Select-Object -Skip 1) \x7b"] ++
  line ["        $word = $element.Extent.Text"] ++
  line ["        if ($word.StartsWith('-') -or $word -eq $wordToComplete) \x7b break \x7d"] ++
  line ["        $command = $command + ';' + $word"] ++
  line ["    \x7d"] ++
  line ["    $completions = @(switch ($command) \x7b"] ++
  offer "disruption-poller" .program
    (String.join (CommandForm.all.map fun form => result form.name "ParameterValue" form.about)) ++
  String.join (CommandForm.all.map fun form => offer ("disruption-poller;" ++ form.name) form "") ++
  line ["    \x7d)"] ++
  line ["    $completions.Where\x7b $_.CompletionText -like \"$wordToComplete*\" \x7d |"] ++
  line ["        Sort-Object -Property ListItemText"] ++
  line ["\x7d"]

/-- The script for a shell. -/
def script : Shell → String
  | .bash => bash
  | .elvish => elvish
  | .fish => fish
  | .powershell => powershell
  | .zsh => zsh

end FeedPoller.Completion
