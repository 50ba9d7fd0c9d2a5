/-
Numbers, dates and times in TOML.

These share their first characters, so the reader looks a little further before it makes
up its mind.  Four digits and a hyphen begin a date; two digits that can be an hour, and a
colon, begin a time; anything else is a number, and a point or an exponent makes it a
floating-point number.  Once the mind is made up there is no way back: a date with a
thirteenth month is a fault and not a subtraction.

Underscores may stand between digits.  Whole numbers fit 64 bits with a sign, and only a
lone zero begins with one.  A floating-point number must not be too large, unless it is
negative.
-/
import FeedPoller.Decimal.Binary64
import FeedPoller.Time.Calendar
import FeedPoller.Toml.Value

namespace FeedPoller.Toml

/-- The value of a digit. -/
def digitOf (c : Char) : Nat := c.toNat - '0'.toNat

/-- The value of a row of decimal digits. -/
def decimalOf (cs : List Char) : Nat := cs.foldl (fun n c => n * 10 + digitOf c) 0

/-- Exactly `n` digits, and what is left. -/
def exactDigits (n : Nat) (cs : List Char) : Option (Nat × List Char) :=
  let ds := cs.take n
  if ds.length == n && ds.all Char.isDigit then some (decimalOf ds, cs.drop n) else none

/-- Two digits between two bounds. -/
def twoDigits (low high : Nat) (cs : List Char) : Option (Nat × List Char) := do
  let (n, rest) ← exactDigits 2 cs
  if low ≤ n ∧ n ≤ high then some (n, rest) else none

/-- One given character. -/
def expect (c : Char) : List Char → Option (List Char)
  | d :: rest => if c = d then some rest else none
  | [] => none

/-! ### Dates and times -/

/-- Whether the text begins like a date. -/
def beginsDate (cs : List Char) : Bool :=
  match exactDigits 4 cs with
  | some (_, '-' :: _) => true
  | _ => false

/-- Whether the text begins like a time of day. -/
def beginsTime (cs : List Char) : Bool :=
  match twoDigits 0 23 cs with
  | some (_, ':' :: _) => true
  | _ => false

/-- What is left behind a date. -/
def date (cs : List Char) : Option (List Char) := do
  let (year, rest) ← exactDigits 4 cs
  let (month, rest) ← twoDigits 1 12 (← expect '-' rest)
  let (day, rest) ← twoDigits 1 31 (← expect '-' rest)
  if day ≤ CivilDate.daysInMonth year month then some rest else none

/-- What is left behind the part of a second, if there is one. -/
def secondFraction : List Char → List Char
  | '.' :: c :: rest => if c.isDigit then rest.dropWhile Char.isDigit else '.' :: c :: rest
  | rest => rest

/-- What is left behind a time of day. -/
def time (cs : List Char) : Option (List Char) := do
  let (_, rest) ← twoDigits 0 23 cs
  let (_, rest) ← twoDigits 0 59 (← expect ':' rest)
  let (_, rest) ← twoDigits 0 60 (← expect ':' rest)
  some (secondFraction rest)

/-- What is left behind an offset from UTC, if there is one. -/
def zone : List Char → Option (List Char)
  | 'Z' :: rest => some rest
  | 'z' :: rest => some rest
  | c :: rest =>
    if c == '+' || c == '-' then do
      let (_, rest) ← twoDigits 0 23 rest
      let (_, rest) ← twoDigits 0 59 (← expect ':' rest)
      some rest
    else some (c :: rest)
  | [] => some []

/-- What is left behind a date and the time that may follow it. -/
def dateAndTime (cs : List Char) : Option (List Char) := do
  match ← date cs with
  | c :: rest =>
    if (c == 'T' || c == 't' || c == ' ') && beginsTime rest then zone (← time rest)
    else some (c :: rest)
  | [] => some []

/-! ### Numbers -/

/-- Digits with single underscores between them: the digits, and what is left. -/
def separatedDigits (isDigit : Char → Bool) : List Char → Option (List Char × List Char)
  | c :: rest => if isDigit c then go [c] rest else none
  | [] => none
where
  go (taken : List Char) : List Char → Option (List Char × List Char)
    | '_' :: c :: rest => if isDigit c then go (c :: taken) rest else none
    | ['_'] => none
    | c :: rest => if isDigit c then go (c :: taken) rest else some (taken.reverse, c :: rest)
    | [] => some (taken.reverse, [])

/-- The digits of a whole number: a zero stands alone. -/
def wholeDigits : List Char → Option (List Char × List Char)
  | '0' :: rest => some (['0'], rest)
  | rest => separatedDigits Char.isDigit rest

/-- A sign, if there is one: whether it is a minus, and what is left. -/
def sign : List Char → Bool × List Char
  | '-' :: rest => (true, rest)
  | '+' :: rest => (false, rest)
  | rest => (false, rest)

/-- An exponent, if there is one. -/
def exponent : List Char → Option (Int × List Char)
  | c :: rest =>
    if c == 'e' || c == 'E' then do
      let (negative, rest) := sign rest
      let (ds, rest) ← separatedDigits Char.isDigit rest
      let n : Int := decimalOf ds
      some (if negative then -n else n, rest)
    else some (0, c :: rest)
  | [] => some (0, [])

/-- Whether `digits` times ten to the power `e` is too large for a double. -/
def isTooLarge (digits : Nat) (e : Int) : Bool :=
  let size : Int := (toString digits).length + e
  if digits == 0 || size < 300 then false
  else if 400 < size then true
  else if 0 ≤ e then (Binary64.ofFraction false (digits * Nat.pow 10 e.toNat) 1).isNone
  else (Binary64.ofFraction false digits (Nat.pow 10 (-e).toNat)).isNone

/-- A whole number in another base than ten. -/
def basedInteger (base : Nat) (isDigit : Char → Bool) (cs : List Char) :
    Option (Value × List Char) := do
  let (ds, rest) ← separatedDigits isDigit cs
  let digit (c : Char) : Nat :=
    if c.isDigit then digitOf c else c.toLower.toNat - 'a'.toNat + 10
  let n : Int := ds.foldl (fun n c => n * base + digit c) 0
  if isInteger64 n then some (.integer n, rest) else none

/-- Whether a character is a hexadecimal digit. -/
def isHexDigit (c : Char) : Bool :=
  c.isDigit || ('a' ≤ c && c ≤ 'f') || ('A' ≤ c && c ≤ 'F')

/-- A number in base ten, behind its sign. -/
def decimalNumber (negative : Bool) (cs : List Char) : Option (Value × List Char) := do
  let (whole, rest) ← wholeDigits cs
  let float (fraction : List Char) (rest : List Char) : Option (Value × List Char) := do
    let (e, rest) ← exponent rest
    if !negative && isTooLarge (decimalOf (whole ++ fraction)) (e - fraction.length) then none
    else some (.float, rest)
  match rest with
  | '.' :: rest => do
    let (fraction, rest) ← separatedDigits Char.isDigit rest
    float fraction rest
  | c :: rest' =>
    if c == 'e' || c == 'E' then float [] (c :: rest')
    else integer whole (c :: rest')
  | [] => integer whole []
where
  integer (ds rest : List Char) : Option (Value × List Char) :=
    let n : Int := decimalOf ds
    let n := if negative then -n else n
    if isInteger64 n then some (.integer n, rest) else none

/-- A number, a date or a time. -/
def number (cs : List Char) : Option (Value × List Char) :=
  if beginsDate cs then (dateAndTime cs).map fun rest => (.dateTime, rest)
  else if beginsTime cs then (time cs).map fun rest => (.dateTime, rest)
  else
    match cs with
    | '0' :: 'x' :: rest => basedInteger 16 isHexDigit rest
    | '0' :: 'o' :: rest => basedInteger 8 (fun c => '0' ≤ c && c ≤ '7') rest
    | '0' :: 'b' :: rest => basedInteger 2 (fun c => c == '0' || c == '1') rest
    | _ =>
      let (negative, rest) := sign cs
      match rest with
      | 'i' :: 'n' :: 'f' :: rest => some (.float, rest)
      | 'n' :: 'a' :: 'n' :: rest => some (.float, rest)
      | _ => decimalNumber negative rest

end FeedPoller.Toml
