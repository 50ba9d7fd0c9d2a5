/-
Configuration data.

The values of a TOML document.  A date or a time is checked when it is read, but nothing
in the settings is one, so nothing of it is kept; the same holds for floating-point
numbers.
-/
namespace FeedPoller.Toml

/-- A value. -/
inductive Value where
  | string (s : String)
  | integer (n : Int)
  | float
  | bool (b : Bool)
  | dateTime
  | array (items : List Value)
  | table (fields : List (String × Value))
deriving Repr, Inhabited

/-- Whether a 64-bit signed integer holds the number. -/
def isInteger64 (n : Int) : Bool :=
  decide (-(Nat.pow 2 63 : Int) ≤ n) && decide (n < (Nat.pow 2 63 : Int))

end FeedPoller.Toml
