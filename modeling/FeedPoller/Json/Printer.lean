/-
JSON data as text.

There are two layouts.  The compact one has no white space at all.  The indented one
puts every item and every field on a line of its own, two spaces deeper than what
holds it, with one space behind the colon of a field; empty arrays and objects stay on
one line.  In both, a string escapes the quote, the backslash and the control
characters below U+0020 and nothing else, the common controls by a letter and the
others by four hexadecimal digits in lower case.

Texts are built as lists of characters, so that the reader can be compared with them
character by character.
-/
import FeedPoller.Json.Value

namespace FeedPoller.Json

/-- A hexadecimal digit in lower case. -/
def hexDigit (n : Nat) : Char := Nat.digitChar n

/-- One character inside a string. -/
def escapeChar (c : Char) : List Char :=
  if c = '"' then ['\\', '"']
  else if c = '\\' then ['\\', '\\']
  else if c = '\x08' then ['\\', 'b']
  else if c = '\x0c' then ['\\', 'f']
  else if c = '\n' then ['\\', 'n']
  else if c = '\r' then ['\\', 'r']
  else if c = '\t' then ['\\', 't']
  else if c.toNat < 0x20 then
    ['\\', 'u', '0', '0', hexDigit (c.toNat / 16), hexDigit (c.toNat % 16)]
  else [c]

/-- A string between its quotes. -/
def stringChars (s : String) : List Char :=
  '"' :: (s.toList.flatMap escapeChar ++ ['"'])

namespace Value

mutual

/-- The compact text of a value. -/
def chars : Value → List Char
  | .null => ['n', 'u', 'l', 'l']
  | .bool true => ['t', 'r', 'u', 'e']
  | .bool false => ['f', 'a', 'l', 's', 'e']
  | .number n => n.chars
  | .string s => stringChars s
  | .array [] => ['[', ']']
  | .array (v :: vs) => '[' :: (v.chars ++ itemChars vs)
  | .object [] => ['{', '}']
  | .object ((name, v) :: fields) =>
    '{' :: (stringChars name ++ ':' :: (v.chars ++ fieldChars fields))

/-- The items of an array behind the first one, and its end. -/
def itemChars : List Value → List Char
  | [] => [']']
  | v :: vs => ',' :: (v.chars ++ itemChars vs)

/-- The fields of an object behind the first one, and its end. -/
def fieldChars : List (String × Value) → List Char
  | [] => ['}']
  | (name, v) :: fields => ',' :: (stringChars name ++ ':' :: (v.chars ++ fieldChars fields))

end

/-- A new line, indented. -/
def newLine (depth : Nat) : List Char := '\n' :: List.replicate (2 * depth) ' '

mutual

/-- The indented text of a value that stands `depth` levels deep. -/
def indented (depth : Nat) : Value → List Char
  | .null => ['n', 'u', 'l', 'l']
  | .bool true => ['t', 'r', 'u', 'e']
  | .bool false => ['f', 'a', 'l', 's', 'e']
  | .number n => n.chars
  | .string s => stringChars s
  | .array [] => ['[', ']']
  | .array (v :: vs) =>
    '[' :: (newLine (depth + 1) ++ (v.indented (depth + 1) ++ indentedItems depth vs))
  | .object [] => ['{', '}']
  | .object ((name, v) :: fields) =>
    '{' :: (newLine (depth + 1) ++ (stringChars name ++ ':' :: ' ' ::
      (v.indented (depth + 1) ++ indentedFields depth fields)))

/-- The items of an indented array behind the first one, and its end. -/
def indentedItems (depth : Nat) : List Value → List Char
  | [] => newLine depth ++ [']']
  | v :: vs =>
    ',' :: (newLine (depth + 1) ++ (v.indented (depth + 1) ++ indentedItems depth vs))

/-- The fields of an indented object behind the first one, and its end. -/
def indentedFields (depth : Nat) : List (String × Value) → List Char
  | [] => newLine depth ++ ['}']
  | (name, v) :: fields =>
    ',' :: (newLine (depth + 1) ++ (stringChars name ++ ':' :: ' ' ::
      (v.indented (depth + 1) ++ indentedFields depth fields)))

end

/-- The compact text of a value. -/
def compact (v : Value) : String := String.ofList v.chars

/-- The indented text of a value. -/
def pretty (v : Value) : String := String.ofList (v.indented 0)

end Value

end FeedPoller.Json
