/-
Time and chance, as the scheduler meets them.

The scheduler reads two clocks: its own, which deadlines are set on, and the wall
clock, which completed runs are dated by.  It draws random delays from a source that
is a list of numbers here, so that a run of the scheduler is a function of its inputs.
Every draw is recorded together with the bound it was made under.
-/
import FeedPoller.Time.DateTime
import FeedPoller.Time.Instant

namespace FeedPoller

/-- The two clocks. -/
structure Clock where
  now : Instant
  wall : DateTime
deriving DecidableEq, Repr, Inhabited

/-- Both clocks, `d` later. -/
def Clock.advance (c : Clock) (d : Duration) : Clock := ⟨c.now.later d, c.wall.later d⟩

/-- A source of random numbers. -/
structure Draws where
  /-- The numbers to come; when they run out every draw is zero. -/
  upcoming : List Nat
  /-- The draws made, latest first, each with its bound. -/
  made : List (Nat × Nat) := []
deriving DecidableEq, Repr, Inhabited

/-- Draw a number below a bound. -/
def Draws.below (d : Draws) (bound : Nat) : Nat × Draws :=
  let value := d.upcoming.headD 0 % bound
  (value, ⟨d.upcoming.tail, (bound, value) :: d.made⟩)

end FeedPoller
