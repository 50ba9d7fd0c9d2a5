/-
Lengths of time in words of one unit.

A duration is given in the largest of the units from nanoseconds to seconds of which it
has at least one.  What is left over stands behind a point, with as many digits as it takes
and no more.
-/
import FeedPoller.Text.Padding
import FeedPoller.Time.Duration

namespace FeedPoller

/-- A unit of time. -/
structure TimeUnit where
  name : String
  /-- How many decimal places a nanosecond is away from the unit. -/
  places : Nat
deriving DecidableEq, Repr

namespace TimeUnit

def seconds : TimeUnit := ⟨"s", 9⟩
def millis : TimeUnit := ⟨"ms", 6⟩
def micros : TimeUnit := ⟨"µs", 3⟩
def nanos : TimeUnit := ⟨"ns", 0⟩

/-- The unit's length in nanoseconds. -/
def length (u : TimeUnit) : Nat := Nat.pow 10 u.places

end TimeUnit

namespace Duration

/-- The unit in which a duration is given. -/
def unit (d : Duration) : TimeUnit :=
  if TimeUnit.seconds.length ≤ d.nanos then .seconds
  else if TimeUnit.millis.length ≤ d.nanos then .millis
  else if TimeUnit.micros.length ≤ d.nanos then .micros
  else .nanos

/-- The digits behind the point, without the zeros at their end. -/
def fraction (rest places : Nat) : List Char :=
  ((Text.zeroPadded places rest).toList.reverse.dropWhile (· == '0')).reverse

/-- A duration in words. -/
def spelled (d : Duration) : String :=
  let u := d.unit
  let rest := d.nanos % u.length
  let behindPoint := if rest == 0 then "" else "." ++ String.ofList (fraction rest u.places)
  toString (d.nanos / u.length) ++ behindPoint ++ u.name

end Duration

end FeedPoller
