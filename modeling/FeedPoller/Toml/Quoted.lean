/-
Strings in TOML.

There are four kinds.  Basic strings stand between double quotes and know escapes, literal
strings between single quotes and do not.  Each kind may be written with its quote
tripled; then it may go over several lines, a line break right behind the opening quotes
is dropped, and it may end in up to two quotes of its own.  A backslash at the end of a
line swallows the line break and all white space behind it.
-/
import FeedPoller.Toml.Number

namespace FeedPoller.Toml

/-- The white space within a line. -/
def isSpace (c : Char) : Bool := c == ' ' || c == '\t'

/-- Whether a character may stand in a comment: no control character but the tab. -/
def isCommentChar (c : Char) : Bool :=
  c == '\t' || (0x20 ≤ c.toNat && c.toNat ≠ 0x7F)

/-- Whether a character may stand for itself in a basic string. -/
def isBasicChar (c : Char) : Bool := isCommentChar c && c != '"' && c != '\\'

/-- Whether a character may stand in a literal string. -/
def isLiteralChar (c : Char) : Bool := isCommentChar c && c != '\''

/-- What is left behind a line break at the front. -/
def lineBreak? : List Char → Option (List Char)
  | '\n' :: rest => some rest
  | '\r' :: '\n' :: rest => some rest
  | _ => none

/-- The character that a code point names, if it is one. -/
def charOf? (n : Nat) : Option Char :=
  if n < 0xD800 ∨ (0xDFFF < n ∧ n < 0x110000) then some (Char.ofNat n) else none

/-- The character that `n` hexadecimal digits name, and what is left. -/
def hexEscape (n : Nat) (cs : List Char) : Option (Char × List Char) :=
  let ds := cs.take n
  let digit (c : Char) : Nat :=
    if c.isDigit then digitOf c else c.toLower.toNat - 'a'.toNat + 10
  if ds.length == n && ds.all isHexDigit then
    (charOf? (ds.foldl (fun n c => n * 16 + digit c) 0)).map fun c => (c, cs.drop n)
  else none

/-- An escape behind its backslash. -/
def escape : List Char → Option (Char × List Char)
  | 'b' :: rest => some ('\x08', rest)
  | 'f' :: rest => some ('\x0c', rest)
  | 'n' :: rest => some ('\n', rest)
  | 'r' :: rest => some ('\r', rest)
  | 't' :: rest => some ('\t', rest)
  | '\\' :: rest => some ('\\', rest)
  | '"' :: rest => some ('"', rest)
  | 'u' :: rest => hexEscape 4 rest
  | 'U' :: rest => hexEscape 8 rest
  | _ => none

/-- A basic string behind its quote; the fuel bounds its length. -/
def basicString : Nat → List Char → Option (List Char × List Char)
  | 0, _ => none
  | fuel + 1, cs =>
    match cs with
    | '"' :: rest => some ([], rest)
    | '\\' :: rest => do
      let (c, rest) ← escape rest
      let (s, rest) ← basicString fuel rest
      some (c :: s, rest)
    | c :: rest =>
      if isBasicChar c then (basicString fuel rest).map fun (s, rest) => (c :: s, rest) else none
    | [] => none

/-- A literal string behind its quote. -/
def literalString : List Char → Option (List Char × List Char)
  | '\'' :: rest => some ([], rest)
  | c :: rest =>
    if isLiteralChar c then (literalString rest).map fun (s, rest) => (c :: s, rest) else none
  | [] => none

/-- What is left behind the white space and the line breaks at the front. -/
def skipLines : List Char → List Char
  | '\r' :: '\n' :: rest => skipLines rest
  | c :: rest => if c == '\n' || isSpace c then skipLines rest else c :: rest
  | [] => []

/-- What is left behind a backslash that ends a line, and behind all that it swallows. -/
def continued? (cs : List Char) : Option (List Char) :=
  (lineBreak? (cs.dropWhile isSpace)).map skipLines

/-- A basic string of several lines behind its quotes; the fuel bounds its length. -/
def longBasicString : Nat → List Char → Option (List Char × List Char)
  | 0, _ => none
  | fuel + 1, cs =>
    let more (c : Char) (rest : List Char) : Option (List Char × List Char) :=
      (longBasicString fuel rest).map fun (s, rest) => (c :: s, rest)
    match cs with
    | '"' :: '"' :: '"' :: '"' :: '"' :: rest => some (['"', '"'], rest)
    | '"' :: '"' :: '"' :: '"' :: rest => some (['"'], rest)
    | '"' :: '"' :: '"' :: rest => some ([], rest)
    | '"' :: rest => more '"' rest
    | '\\' :: rest =>
      match continued? rest with
      | some rest => longBasicString fuel rest
      | none => do
        let (c, rest) ← escape rest
        more c rest
    | '\r' :: '\n' :: rest => more '\n' rest
    | '\n' :: rest => more '\n' rest
    | c :: rest => if isBasicChar c then more c rest else none
    | [] => none

/-- A literal string of several lines behind its quotes. -/
def longLiteralString : List Char → Option (List Char × List Char)
  | '\'' :: '\'' :: '\'' :: '\'' :: '\'' :: rest => some (['\'', '\''], rest)
  | '\'' :: '\'' :: '\'' :: '\'' :: rest => some (['\''], rest)
  | '\'' :: '\'' :: '\'' :: rest => some ([], rest)
  | '\'' :: rest => (longLiteralString rest).map fun (s, rest) => ('\'' :: s, rest)
  | '\r' :: '\n' :: rest => (longLiteralString rest).map fun (s, rest) => ('\n' :: s, rest)
  | c :: rest =>
    if c == '\n' || isLiteralChar c then
      (longLiteralString rest).map fun (s, rest) => (c :: s, rest)
    else none
  | [] => none

/-- What is left behind the line break that may follow the opening quotes. -/
def dropLineBreak (cs : List Char) : List Char := (lineBreak? cs).getD cs

/-- A string of any kind. -/
def quoted (cs : List Char) : Option (List Char × List Char) :=
  match cs with
  | '"' :: '"' :: '"' :: rest => longBasicString (rest.length + 1) (dropLineBreak rest)
  | '"' :: rest => basicString (rest.length + 1) rest
  | '\'' :: '\'' :: '\'' :: rest => longLiteralString (dropLineBreak rest)
  | '\'' :: rest => literalString rest
  | _ => none

end FeedPoller.Toml
