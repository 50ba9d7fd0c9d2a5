/-
JSON text, read for its structure alone.

A document is what the grammar of JSON finds in a text before anybody asks what it
means: fields keep their order and their repetitions, a number keeps its spelling and
may be too large to have a value, and a string may hold an escape that names only half
of a surrogate pair, in which case it has no text.  Readers of records need this much.
A field that they do not know has to be well formed, but its numbers and strings need
no meaning and it may be nested to any depth.

The reader works on a list of characters and gives back what it has read and what is
left.  Every call strictly shortens the text or is followed by one that does, so twice
the length of the text is fuel enough.
-/
import FeedPoller.Json.Value

namespace FeedPoller.Json

/-- The structure of a JSON text. -/
inductive Document where
  | null
  | bool (b : Bool)
  | number (l : Literal)
  /-- A string; one with half a surrogate pair in it has no text. -/
  | string (text : Option String)
  | array (items : List Document)
  | object (fields : List (Option String × Document))
deriving Repr, Inhabited

namespace Grammar

/-- The white space of JSON. -/
def isSpace (c : Char) : Bool := c == ' ' || c == '\n' || c == '\t' || c == '\r'

/-- What is left behind the white space at the front. -/
def skipSpace (cs : List Char) : List Char := cs.dropWhile isSpace

/-- The value of a decimal digit. -/
def digitValue (c : Char) : Nat := c.toNat - '0'.toNat

/-- The digits at the front, and what is left. -/
def digits (cs : List Char) : List Nat × List Char :=
  ((cs.takeWhile Char.isDigit).map digitValue, cs.dropWhile Char.isDigit)

/-- The digits at the front, of which there has to be one. -/
def someDigits (cs : List Char) : Option (List Nat × List Char) :=
  let (ds, rest) := digits cs
  if ds.isEmpty then none else some (ds, rest)

/-- The digits before the point: a zero stands alone. -/
def wholeDigits (cs : List Char) : Option (List Nat × List Char) := do
  let (ds, rest) ← someDigits cs
  if ds.length ≠ 1 ∧ ds.head? = some 0 then none else some (ds, rest)

/-- The fraction of a number, if there is one. -/
def fraction : List Char → Option (Option (List Nat) × List Char)
  | '.' :: rest => (someDigits rest).map fun (ds, rest) => (some ds, rest)
  | rest => some (none, rest)

/-- The digits of an exponent behind its sign. -/
def exponentDigits (cs : List Char) : Option (Bool × List Nat × List Char) :=
  match cs with
  | '-' :: rest => (someDigits rest).map fun (ds, rest) => (true, ds, rest)
  | '+' :: rest => (someDigits rest).map fun (ds, rest) => (false, ds, rest)
  | rest => (someDigits rest).map fun (ds, rest) => (false, ds, rest)

/-- The exponent of a number, if there is one. -/
def exponent (cs : List Char) : Option (Option (Bool × List Nat) × List Char) :=
  match cs with
  | 'e' :: rest => (exponentDigits rest).map fun (neg, ds, rest) => (some (neg, ds), rest)
  | 'E' :: rest => (exponentDigits rest).map fun (neg, ds, rest) => (some (neg, ds), rest)
  | rest => some (none, rest)

/-- A number behind its sign. -/
def unsignedNumber (negative : Bool) (cs : List Char) : Option (Literal × List Char) := do
  let (whole, rest) ← wholeDigits cs
  let (fraction, rest) ← fraction rest
  let (exponent, rest) ← exponent rest
  some (⟨negative, whole, fraction, exponent⟩, rest)

/-- A number. -/
def number : List Char → Option (Literal × List Char)
  | '-' :: rest => unsignedNumber true rest
  | rest => unsignedNumber false rest

/-- The value of a hexadecimal digit of either case. -/
def hexValue (c : Char) : Option Nat :=
  if c.isDigit then some (c.toNat - '0'.toNat)
  else if 'a' ≤ c ∧ c ≤ 'f' then some (c.toNat - 'a'.toNat + 10)
  else if 'A' ≤ c ∧ c ≤ 'F' then some (c.toNat - 'A'.toNat + 10)
  else none

/-- The number that four hexadecimal digits write. -/
def hexValue4 (a b c d : Char) : Option Nat := do
  some (((← hexValue a) * 16 + (← hexValue b)) * 256 + (← hexValue c) * 16 + (← hexValue d))

/-- A part of a string: a character, or a 16-bit unit written as an escape. -/
inductive Piece where
  | char (c : Char)
  | unit (n : Nat)
deriving DecidableEq, Repr

/-- The character that an escape of one letter stands for. -/
def escapeValue (c : Char) : Option Char :=
  if c = '"' then some '"'
  else if c = '\\' then some '\\'
  else if c = '/' then some '/'
  else if c = 'b' then some '\x08'
  else if c = 'f' then some '\x0c'
  else if c = 'n' then some '\n'
  else if c = 'r' then some '\r'
  else if c = 't' then some '\t'
  else none

/-- The parts of a string up to its closing quote, and what is left behind it. -/
def pieces : List Char → Option (List Piece × List Char)
  | [] => none
  | '"' :: rest => some ([], rest)
  | '\\' :: 'u' :: a :: b :: c :: d :: rest => do
    let n ← hexValue4 a b c d
    let (ps, rest) ← pieces rest
    some (.unit n :: ps, rest)
  | '\\' :: c :: rest => do
    let e ← escapeValue c
    let (ps, rest) ← pieces rest
    some (.char e :: ps, rest)
  | c :: rest => do
    if c.toNat < 0x20 then none
    else
      let (ps, rest) ← pieces rest
      some (.char c :: ps, rest)

def isHighSurrogate (n : Nat) : Bool := 0xD800 ≤ n && n ≤ 0xDBFF
def isLowSurrogate (n : Nat) : Bool := 0xDC00 ≤ n && n ≤ 0xDFFF

/-- The characters of a string: two halves of a surrogate pair have to meet. -/
def pieceChars : List Piece → Option (List Char)
  | [] => some []
  | .char c :: rest => (pieceChars rest).map (c :: ·)
  | .unit n :: .unit m :: rest =>
    if isHighSurrogate n then
      if isLowSurrogate m then
        (pieceChars rest).map (Char.ofNat (0x10000 + (n - 0xD800) * 0x400 + (m - 0xDC00)) :: ·)
      else none
    else if isLowSurrogate n then none
    else (pieceChars (.unit m :: rest)).map (Char.ofNat n :: ·)
  | .unit n :: rest =>
    if isHighSurrogate n || isLowSurrogate n then none
    else (pieceChars rest).map (Char.ofNat n :: ·)

/-- A string behind its opening quote, and what is left. -/
def quoted (cs : List Char) : Option (Option String × List Char) := do
  let (ps, rest) ← pieces cs
  some ((pieceChars ps).map String.ofList, rest)

mutual

/-- A value at the front of the text, and what is left. -/
def value : Nat → List Char → Option (Document × List Char)
  | 0, _ => none
  | fuel + 1, cs =>
    match cs with
    | 'n' :: 'u' :: 'l' :: 'l' :: rest => some (.null, rest)
    | 't' :: 'r' :: 'u' :: 'e' :: rest => some (.bool true, rest)
    | 'f' :: 'a' :: 'l' :: 's' :: 'e' :: rest => some (.bool false, rest)
    | '"' :: rest => (quoted rest).map fun (s, rest) => (.string s, rest)
    | '[' :: rest =>
      match skipSpace rest with
      | ']' :: rest => some (.array [], rest)
      | rest => do
        let (v, rest) ← value fuel rest
        let (vs, rest) ← items fuel rest
        some (.array (v :: vs), rest)
    | '\x7b' :: rest =>
      match skipSpace rest with
      | '\x7d' :: rest => some (.object [], rest)
      | rest => do
        let (f, rest) ← field fuel rest
        let (fs, rest) ← fields fuel rest
        some (.object (f :: fs), rest)
    | rest => (number rest).map fun (l, rest) => (.number l, rest)

/-- The items of an array behind one of them, up to its end. -/
def items : Nat → List Char → Option (List Document × List Char)
  | 0, _ => none
  | fuel + 1, cs =>
    match skipSpace cs with
    | ']' :: rest => some ([], rest)
    | ',' :: rest => do
      let (v, rest) ← value fuel (skipSpace rest)
      let (vs, rest) ← items fuel rest
      some (v :: vs, rest)
    | _ => none

/-- A field of an object. -/
def field : Nat → List Char → Option ((Option String × Document) × List Char)
  | 0, _ => none
  | fuel + 1, cs =>
    match cs with
    | '"' :: rest => do
      let (name, rest) ← quoted rest
      match skipSpace rest with
      | ':' :: rest =>
        let (v, rest) ← value fuel (skipSpace rest)
        some ((name, v), rest)
      | _ => none
    | _ => none

/-- The fields of an object behind one of them, up to its end. -/
def fields : Nat → List Char → Option (List (Option String × Document) × List Char)
  | 0, _ => none
  | fuel + 1, cs =>
    match skipSpace cs with
    | '\x7d' :: rest => some ([], rest)
    | ',' :: rest => do
      let (f, rest) ← field fuel (skipSpace rest)
      let (fs, rest) ← fields fuel rest
      some (f :: fs, rest)
    | _ => none

end

end Grammar

namespace Document

/-- The document that a row of characters is, with nothing but white space around it. -/
def ofChars (cs : List Char) : Option Document := do
  let (d, rest) ← Grammar.value (2 * cs.length + 2) (Grammar.skipSpace cs)
  if (Grammar.skipSpace rest).isEmpty then some d else none

/-- The document that a text is. -/
def ofText (s : String) : Option Document := ofChars s.toList

end Document

end FeedPoller.Json
