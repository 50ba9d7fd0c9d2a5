/-
What the program says about itself.

Asked for help, or given no command, the program lists its commands and its own flags.
-/
import FeedPoller.Command.Arguments
import FeedPoller.Text.Padding

namespace FeedPoller.Usage

/-- The version of the program. -/
def version : String := "disruption-poller 0.1.0"

/-- The ways to write a flag. -/
def spelling (f : Flag) : String :=
  match f.letter? with
  | none => "    --" ++ f.name
  | some c => "-" ++ c.toString ++ ", --" ++ f.name

/-- A line of a list of things and what they are about. -/
def row (thing about : String) : String := "  " ++ Text.padRight 13 thing ++ about

/-- How to use the program, line by line. -/
def lines : List String :=
  [CommandForm.program.about, "", "Usage: disruption-poller <COMMAND>", "", "Commands:"] ++
  CommandForm.all.map (fun form => row form.name form.about) ++
  ["", "Options:"] ++
  CommandForm.program.flags.map fun f => row (spelling f) f.about

end FeedPoller.Usage
