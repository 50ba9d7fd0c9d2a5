/-
Points on the scheduler's own clock.

The clock only ever moves forward and has nothing to do with the calendar.  It can
tell points apart up to the end of second 2^63 - 1; beyond that there is no point
to name, so adding a duration is partial and every caller has to say what becomes
of a deadline that cannot be named.
-/
import FeedPoller.Time.Duration

namespace FeedPoller

/-- A point on the scheduler's clock, in nanoseconds from its origin. -/
structure Instant where
  nanos : Nat
deriving DecidableEq, Repr, Inhabited

namespace Instant

/-- The first point that the clock cannot name. -/
def horizon : Nat := Nat.pow 2 63 * 1000000000

instance : LE Instant := ⟨fun a b => a.nanos ≤ b.nanos⟩
instance : LT Instant := ⟨fun a b => a.nanos < b.nanos⟩

instance (a b : Instant) : Decidable (a ≤ b) := inferInstanceAs (Decidable (a.nanos ≤ b.nanos))
instance (a b : Instant) : Decidable (a < b) := inferInstanceAs (Decidable (a.nanos < b.nanos))

/-- The point `d` later, if the clock can name it. -/
def after? (t : Instant) (d : Duration) : Option Instant :=
  if t.nanos + d.nanos < horizon then some ⟨t.nanos + d.nanos⟩ else none

/-- The point `d` later, whether or not the clock can name it. -/
def later (t : Instant) (d : Duration) : Instant := ⟨t.nanos + d.nanos⟩

/-- Whole milliseconds from the origin. -/
def millis (t : Instant) : Nat := t.nanos / 1000000

/-- The first of some points. -/
def earliest? : List Instant → Option Instant
  | [] => none
  | t :: rest =>
    match earliest? rest with
    | none => some t
    | some s => if s < t then some s else some t

end Instant

end FeedPoller
