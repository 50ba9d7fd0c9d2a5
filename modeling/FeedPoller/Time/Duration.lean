/-
Lengths of time.

A duration is a whole number of nanoseconds.  Multiplying a stagger step by a
position saturates at the longest duration, which is one nanosecond short of
2^64 seconds; nothing else in the scheduler computes with durations.
-/
namespace FeedPoller

/-- A length of time in nanoseconds. -/
structure Duration where
  nanos : Nat
deriving DecidableEq, Repr, Inhabited

namespace Duration

/-- No time at all. -/
def zero : Duration := ⟨0⟩

/-- A number of whole milliseconds. -/
def ofMillis (ms : Nat) : Duration := ⟨ms * 1000000⟩

/-- A number of whole seconds. -/
def ofSeconds (s : Nat) : Duration := ⟨s * 1000000000⟩

/-- The longest duration. -/
def longest : Duration := ⟨Nat.pow 2 64 * 1000000000 - 1⟩

/-- Whole milliseconds, the rest cut off. -/
def millis (d : Duration) : Nat := d.nanos / 1000000

/-- Whole seconds, the rest cut off. -/
def seconds (d : Duration) : Nat := d.nanos / 1000000000

/-- Whether the duration is empty. -/
def isZero (d : Duration) : Bool := d.nanos == 0

/-- Whole milliseconds, held to what 64 bits can say. -/
def millis64 (d : Duration) : Nat := min d.millis (Nat.pow 2 64 - 1)

/-- The duration taken `n` times, but never more than the longest one. -/
def times (d : Duration) (n : Nat) : Duration := ⟨min (d.nanos * n) longest.nanos⟩

end Duration

end FeedPoller
