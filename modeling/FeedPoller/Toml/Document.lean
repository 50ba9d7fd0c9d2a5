/-
TOML documents.

A document is a row of lines.  Values may nest arrays and inline tables up to 79 levels
deep, and a dotted name may have up to 79 parts.  Arrays may go over several lines, with
comments in between and a comma behind the last item; inline tables stay on one line and
allow neither.  An inline table is closed once it is written.
-/
import FeedPoller.Toml.Quoted
import FeedPoller.Toml.Table

namespace FeedPoller.Toml

/-- The first level of nesting, and the first length of a name, that is too much. -/
def nestingLimit : Nat := 80

/-- What is left behind white space and a comment, where a line may end. -/
def lineRest (cs : List Char) : List Char :=
  match cs.dropWhile isSpace with
  | '#' :: rest => rest.dropWhile isCommentChar
  | rest => rest

/-- What is left behind the end of a line. -/
def lineEnd (cs : List Char) : Option (List Char) :=
  match lineRest cs with
  | [] => some []
  | rest => lineBreak? rest

/-- What is left behind white space, line breaks and comments; the fuel bounds them. -/
def skipBetween : Nat → List Char → List Char
  | 0, cs => cs
  | fuel + 1, cs =>
    match skipLines cs with
    | '#' :: rest => skipBetween fuel (rest.dropWhile isCommentChar)
    | rest => rest

/-- Whether a character may stand in a name without quotes. -/
def isBareChar (c : Char) : Bool := c.isAlphanum || c == '-' || c == '_'

/-- One part of a name. -/
def namePart (cs : List Char) : Option (String × List Char) :=
  match cs with
  | '"' :: rest => (basicString (rest.length + 1) rest).map fun (s, rest) => (String.ofList s, rest)
  | '\'' :: rest => (literalString rest).map fun (s, rest) => (String.ofList s, rest)
  | cs =>
    let part := cs.takeWhile isBareChar
    if part.isEmpty then none else some (String.ofList part, cs.dropWhile isBareChar)

/-- A name with white space around its parts; the fuel bounds their number. -/
def nameParts : Nat → List Char → Option (List String × List Char)
  | 0, _ => none
  | fuel + 1, cs => do
    let (part, rest) ← namePart (cs.dropWhile isSpace)
    match rest.dropWhile isSpace with
    | '.' :: rest => do
      let (parts, rest) ← nameParts fuel rest
      some (part :: parts, rest)
    | rest => some ([part], rest)

/-- A name, dotted or not. -/
def name (cs : List Char) : Option (List String × List Char) := do
  let (parts, rest) ← nameParts (cs.length + 1) cs
  if nestingLimit ≤ parts.length then none else some (parts, rest)

mutual

/-- A value that stands `depth` levels deep. -/
def value : Nat → Nat → List Char → Option (Value × List Char)
  | 0, _, _ => none
  | fuel + 1, depth, cs =>
    match cs with
    | '"' :: _ => (quoted cs).map fun (s, rest) => (.string (String.ofList s), rest)
    | '\'' :: _ => (quoted cs).map fun (s, rest) => (.string (String.ofList s), rest)
    | '[' :: rest =>
      if nestingLimit ≤ depth + 1 then none
      else (items fuel (depth + 1) rest).map fun (vs, rest) => (.array vs, rest)
    | '\x7b' :: rest =>
      if nestingLimit ≤ depth + 1 then none
      else
        match rest.dropWhile isSpace with
        | '\x7d' :: rest => some (.table [], rest)
        | rest => do
          let (t, rest) ← assignments fuel (depth + 1) .empty rest
          some (t.finish, rest)
    | 't' :: 'r' :: 'u' :: 'e' :: rest => some (.bool true, rest)
    | 'f' :: 'a' :: 'l' :: 's' :: 'e' :: rest => some (.bool false, rest)
    | 'i' :: 'n' :: 'f' :: rest => some (.float, rest)
    | 'n' :: 'a' :: 'n' :: rest => some (.float, rest)
    | c :: _ => if c == '+' || c == '-' || c.isDigit then number cs else none
    | [] => none

/-- The items of an array from one of them on, and its end. -/
def items : Nat → Nat → List Char → Option (List Value × List Char)
  | 0, _, _ => none
  | fuel + 1, depth, cs =>
    match skipBetween (cs.length + 1) cs with
    | ']' :: rest => some ([], rest)
    | rest => do
      let (v, rest) ← value fuel depth rest
      match skipBetween (rest.length + 1) rest with
      | ',' :: rest => do
        let (vs, rest) ← items fuel depth rest
        some (v :: vs, rest)
      | ']' :: rest => some ([v], rest)
      | _ => none

/-- The assignments of an inline table from one of them on, and its end. -/
def assignments : Nat → Nat → Table → List Char → Option (Table × List Char)
  | 0, _, _, _ => none
  | fuel + 1, depth, t, cs => do
    let (path, rest) ← name cs
    let (v, rest) ← value fuel depth ((← expect '=' rest).dropWhile isSpace)
    let t ← t.assign path v
    match rest.dropWhile isSpace with
    | ',' :: rest => assignments fuel depth t rest
    | '\x7d' :: rest => some (t, rest)
    | _ => none

end

/-- The line at the front of a text, if it says something, and what is left behind it. -/
def line (cs : List Char) : Option (Option Line × List Char) :=
  match cs with
  | '#' :: _ => (lineEnd cs).map fun rest => (none, rest)
  | '\n' :: rest => some (none, rest)
  | '\r' :: rest => (expect '\n' rest).map fun rest => (none, rest)
  | '[' :: '[' :: rest => do
    let (path, rest) ← name rest
    let rest ← lineEnd (← expect ']' (← expect ']' rest))
    some (some (.listHeader path), rest)
  | '[' :: rest => do
    let (path, rest) ← name rest
    let rest ← lineEnd (← expect ']' rest)
    some (some (.header path), rest)
  | cs => do
    let (path, rest) ← name cs
    let rest := (← expect '=' rest).dropWhile isSpace
    let (v, rest) ← value (2 * rest.length + 2) 0 rest
    let rest ← lineEnd rest
    some (some (.assignment path v), rest)

/-- The lines of a text; the fuel bounds their number. -/
def lines : Nat → List Char → Option (List Line)
  | 0, _ => none
  | fuel + 1, cs =>
    match cs.dropWhile isSpace with
    | [] => some []
    | cs => do
      let (l, rest) ← line cs
      let ls ← lines fuel rest
      some (l.toList ++ ls)

/-- The table that a text describes; a byte order mark at its beginning is no part of it. -/
def read (s : String) : Option Value :=
  let cs := match s.toList with
    | '\ufeff' :: rest => rest
    | cs => cs
  (lines (cs.length + 1) cs).bind buildTable

end FeedPoller.Toml
