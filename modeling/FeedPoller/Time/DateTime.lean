/-
Points in calendar time, in UTC.

A date-time is a number of seconds from the beginning of 1970 and a part of a second
in nanoseconds.  A leap second is written as the 60th second of its minute; it is
kept as the second before it with a part of a second of one second or more, so that
date-times still order by their two numbers and every minute boundary is a multiple
of sixty.
-/
import FeedPoller.Time.Calendar
import FeedPoller.Time.Duration

namespace FeedPoller

/-- A point in calendar time. -/
structure DateTime where
  seconds : Int
  nanos : Nat
deriving DecidableEq, Repr, Inhabited

namespace DateTime

def secondsPerDay : Int := 86400

/-- The day the point lies in. -/
def dayNumber (t : DateTime) : Int := t.seconds.fdiv secondsPerDay

/-- The second of that day. -/
def secondOfDay (t : DateTime) : Nat := (t.seconds - t.dayNumber * secondsPerDay).toNat

/-- The first and the last second of the years that dates are kept for. -/
def firstSecond : Int := (CivilDate.dayNumber ⟨CivilDate.firstYear, 1, 1⟩) * secondsPerDay
def lastSecond : Int := (CivilDate.dayNumber ⟨CivilDate.lastYear, 12, 31⟩) * secondsPerDay + 86399

/-- The beginning of a second, if its year is one that dates are kept for. -/
def ofSeconds? (s : Int) : Option DateTime :=
  if firstSecond ≤ s ∧ s ≤ lastSecond then some ⟨s, 0⟩ else none

/-- The point `d` later; a leap second counts as its ordinary neighbour. -/
def later (t : DateTime) (d : Duration) : DateTime :=
  let total := t.nanos + d.nanos
  ⟨t.seconds + (total / 1000000000 : Nat), total % 1000000000⟩

/--
Whole seconds from `u` to `t`, cut towards zero.  A leap second that lies within the
day's stretch between the two times of day is counted as a second of its own.
-/
def secondsSince (t u : DateTime) : Int :=
  let adjust : Int :=
    if u.secondOfDay < t.secondOfDay then (if 1000000000 ≤ u.nanos then 1 else 0)
    else if t.secondOfDay < u.secondOfDay then (if 1000000000 ≤ t.nanos then -1 else 0)
    else 0
  let nanos : Int :=
    (t.seconds - u.seconds + adjust) * 1000000000 + ((t.nanos : Int) - (u.nanos : Int))
  nanos.tdiv 1000000000

end DateTime

end FeedPoller
