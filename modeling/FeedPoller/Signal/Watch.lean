/-
A value that is watched.

One side publishes values, the other side wants to know the latest one and whether it
has changed since it last looked.  Values in between may be missed; what must not be
missed is that there is a newer one.  The publisher numbers its values, and a watcher
remembers the number of the value it has seen.  When the publisher is gone a watcher
first hears of the last value it has not seen and only then of the end.
-/
namespace FeedPoller

/-- A published value and who is there to publish and to see it. -/
structure Watch where
  value : Bool
  /-- How many times a value has been published. -/
  version : Nat := 0
  /-- Whether the publisher is still there. -/
  published : Bool := true
  /-- How many watchers are there. -/
  watchers : Nat := 0
deriving DecidableEq, Repr, Inhabited

namespace Watch

/-- A watch that nobody has published to yet, with one watcher. -/
def new (value : Bool) : Watch := { value, watchers := 1 }

/-- Whether a watcher who has seen a version can see a newer one. -/
def hasNews (w : Watch) (seen : Nat) : Bool := w.version != seen

/-- Publish a value, even one that is no news; it needs somebody to see it. -/
def send (w : Watch) (value : Bool) : Watch × Bool :=
  if w.watchers == 0 then (w, false)
  else ({ w with value, version := w.version + 1 }, true)

/-- Publish a value only if it differs from the present one. -/
def publish (w : Watch) (value : Bool) : Watch × Bool :=
  if w.value == value then (w, false)
  else ({ w with value, version := w.version + 1 }, true)

/-- One watcher more, or one less. -/
def join (w : Watch) : Watch := { w with watchers := w.watchers + 1 }
def leave (w : Watch) : Watch := { w with watchers := w.watchers - 1 }

/-- The publisher is gone. -/
def close (w : Watch) : Watch := { w with published := false }

end Watch

end FeedPoller
