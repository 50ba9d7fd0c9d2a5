/-
A text between quotes.

A text that is shown to a person who looks for a fault stands between double quotes, and
every character of it can be told.  The quote and the backslash get a backslash in front,
a few controls have a letter each, and what cannot be seen is written as a number.
-/
import FeedPoller.Text.Invisible

namespace FeedPoller.Text

/-- A character by its number. -/
def numberedChar (c : Char) : List Char :=
  ['\\', 'u', '\x7b'] ++ Nat.toDigits 16 c.toNat ++ ['\x7d']

/-- A character as it stands between quotes. -/
def quotedChar : Char → List Char
  | '\x00' => ['\\', '0']
  | '\t' => ['\\', 't']
  | '\r' => ['\\', 'r']
  | '\n' => ['\\', 'n']
  | '\\' => ['\\', '\\']
  | '"' => ['\\', '"']
  | c => if isInvisibleChar c then numberedChar c else [c]

/-- A text between quotes. -/
def quoted (s : String) : String :=
  String.ofList ('"' :: s.toList.flatMap quotedChar ++ ['"'])

end FeedPoller.Text
