/-
Date-times as text, after RFC 3339.

Writing is strict: UTC with a `Z`, and zero, three, six or nine digits of a second,
the fewest that lose nothing.  A year outside 0 to 9999 carries a sign and at least
four digits.

Reading is lenient about layout.  White space may stand around every number, numbers
may have fewer digits than their usual width, the separator between date and time
may be a space or a lower-case letter, the zone may be `Z`, `UTC` in any case, or an
offset with or without a colon.  It is strict about values: every field has to be in
its range, the date has to exist and the offset has to be shorter than a day.
Digits of a second beyond the ninth are dropped.
-/
import FeedPoller.Text.Blank
import FeedPoller.Text.Padding
import FeedPoller.Time.DateTime

namespace FeedPoller.Rfc3339

open Text (zeroPadded)

/-- Four digits for the years 0 to 9999, otherwise a sign and at least four digits. -/
def writeYear (year : Int) : String :=
  if 0 ≤ year ∧ year ≤ 9999 then zeroPadded 4 year.toNat
  else (if year < 0 then "-" else "+") ++ zeroPadded 4 year.natAbs

/-- The part of a second, in the fewest of 0, 3, 6 or 9 digits that lose nothing. -/
def writeFraction (nanos : Nat) : String :=
  if nanos == 0 then ""
  else if nanos % 1000000 == 0 then "." ++ zeroPadded 3 (nanos / 1000000)
  else if nanos % 1000 == 0 then "." ++ zeroPadded 6 (nanos / 1000)
  else "." ++ zeroPadded 9 nanos

/-- The text of a date-time, in UTC. -/
def write (t : DateTime) : String :=
  let date := CivilDate.ofDayNumber t.dayNumber
  let second := t.secondOfDay
  let leap := if 1000000000 ≤ t.nanos then 1 else 0
  writeYear date.year ++ "-" ++ zeroPadded 2 date.month ++ "-" ++ zeroPadded 2 date.day ++ "T" ++
    zeroPadded 2 (second / 3600) ++ ":" ++ zeroPadded 2 (second / 60 % 60) ++ ":" ++
    zeroPadded 2 (second % 60 + leap) ++ writeFraction (t.nanos % 1000000000) ++ "Z"

/-- Up to `limit` digits and what follows them; at least one digit has to be there. -/
def number (limit : Nat) (cs : List Char) : Option (Nat × List Char) :=
  let digits := (cs.takeWhile Char.isDigit).take limit
  if digits.isEmpty then none
  else some (digits.foldl (fun n c => n * 10 + (c.toNat - '0'.toNat)) 0, cs.drop digits.length)

/-- A field of up to two digits between two bounds, white space in front of it skipped. -/
def field (low high : Nat) (cs : List Char) : Option (Nat × List Char) := do
  let (n, rest) ← number 2 (cs.dropWhile Text.isBlankChar)
  if low ≤ n ∧ n ≤ high then some (n, rest) else none

/-- A year: up to four digits, or a sign and any number of them. -/
def readYear (cs : List Char) : Option (Int × List Char) :=
  match cs.dropWhile Text.isBlankChar with
  | '-' :: rest => (number rest.length rest).map fun (n, rest) => (-(n : Int), rest)
  | '+' :: rest => (number rest.length rest).map fun (n, rest) => ((n : Int), rest)
  | rest => (number 4 rest).map fun (n, rest) => ((n : Int), rest)

/-- One given character, white space in front of it skipped. -/
def mark (c : Char) (cs : List Char) : Option (List Char) :=
  match cs.dropWhile Text.isBlankChar with
  | d :: rest => if c = d then some rest else none
  | [] => none

/-- The part of a second behind a point, in nanoseconds; nothing if there is no point. -/
def readFraction : List Char → Option (Nat × List Char)
  | '.' :: rest =>
    let digits := rest.takeWhile Char.isDigit
    (number 9 rest).map fun (n, _) =>
      (n * Nat.pow 10 (9 - min 9 digits.length), rest.dropWhile Char.isDigit)
  | rest => some (0, rest)

/-- Two digits, in the hundreds of the first one. -/
def twoDigits : List Char → Option (Nat × List Char)
  | a :: b :: rest =>
    if a.isDigit && b.isDigit then
      some ((a.toNat - '0'.toNat) * 10 + (b.toNat - '0'.toNat), rest)
    else none
  | _ => none

/-- An offset from UTC in seconds, without its sign. -/
def readOffsetSize (cs : List Char) : Option (Nat × List Char) := do
  let (hours, rest) ← twoDigits cs
  let (minutes, rest) ← twoDigits (rest.dropWhile fun c => c == ':' || Text.isBlankChar c)
  if minutes < 60 then some (hours * 3600 + minutes * 60, rest) else none

/-- A zone: how many seconds its clocks are ahead of UTC. -/
def readZone : List Char → Option (Int × List Char)
  | 'Z' :: rest => some (0, rest)
  | 'z' :: rest => some (0, rest)
  | '+' :: rest => (readOffsetSize rest).map fun (n, rest) => ((n : Int), rest)
  | '-' :: rest => (readOffsetSize rest).map fun (n, rest) => (-(n : Int), rest)
  | '\u2212' :: rest => (readOffsetSize rest).map fun (n, rest) => (-(n : Int), rest)
  | u :: t :: c :: rest =>
    if u.toLower == 'u' && t.toLower == 't' && c.toLower == 'c' then some (0, rest) else none
  | _ => none

/-- The point that a date, a time of day and a zone name together. -/
def assemble (date : CivilDate) (hour minute second nanos : Nat) (offset : Int) :
    Option DateTime :=
  if date.isValid && decide (offset.natAbs < 86400) then
    let leap := if second == 60 then 1 else 0
    let local_ := date.dayNumber * 86400 + (hour * 3600 + minute * 60 + second - leap : Nat)
    (DateTime.ofSeconds? (local_ - offset)).map fun t => ⟨t.seconds, nanos + leap * 1000000000⟩
  else none

/-- The date-time that a text names. -/
def read (s : String) : Option DateTime := do
  let (year, rest) ← readYear s.toList
  let (month, rest) ← field 1 12 (← mark '-' rest)
  let (day, rest) ← field 1 31 (← mark '-' rest)
  let rest ← match rest with
    | c :: rest => if c == 'T' || c == 't' || c == ' ' then some rest else none
    | [] => none
  let (hour, rest) ← field 0 23 rest
  let (minute, rest) ← field 0 59 (← mark ':' rest)
  let (second, rest) ← field 0 60 (← mark ':' rest)
  let (nanos, rest) ← readFraction rest
  let (offset, rest) ← readZone (rest.dropWhile Text.isBlankChar)
  if rest.all Text.isBlankChar then assemble ⟨year, month, day⟩ hour minute second nanos offset
  else none

end FeedPoller.Rfc3339
