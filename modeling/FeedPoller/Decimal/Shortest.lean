/-
The shortest decimal for a double.

Every double is the nearest one to a whole interval of reals.  Its decimal is the one
with the fewest digits in that interval, and of those the nearest to the double itself.
For each number of digits only two decimals can matter, the neighbours of the value on
the grid with that many digits, and all comparisons are between exact products of
natural numbers.  Seventeen digits always suffice.
-/
import FeedPoller.Decimal.Binary64

namespace FeedPoller

/-- A decimal number without a sign: `digits` times ten to the power `exponent`. -/
structure Decimal where
  digits : Nat
  exponent : Int
deriving DecidableEq, Repr

namespace Decimal

/-- Ten to a power, as a quotient. -/
def power (k : Int) : Nat × Nat :=
  if 0 ≤ k then (Nat.pow 10 k.toNat, 1) else (1, Nat.pow 10 (-k).toNat)

/-- The number as a quotient of natural numbers. -/
def fraction (d : Decimal) : Nat × Nat :=
  let (p, q) := power d.exponent
  (d.digits * p, q)

/-- Whether one quotient is less than another. -/
def less (a b : Nat × Nat) : Bool := a.1 * b.2 < b.1 * a.2

/-- Drop the zeros at the end of the digits; the fuel bounds how many. -/
def stripped : Nat → Decimal → Decimal
  | 0, d => d
  | fuel + 1, d =>
    if d.digits ≠ 0 ∧ d.digits % 10 = 0 then stripped fuel ⟨d.digits / 10, d.exponent + 1⟩ else d

end Decimal

namespace Binary64

/-- The ends of the interval of reals that round to a value other than zero. -/
def interval (x : Binary64) : (Nat × Nat) × (Nat × Nat) :=
  let quarter (n : Nat) : Nat × Nat :=
    if 0 ≤ x.exponent - 2 then (n * Nat.pow 2 (x.exponent - 2).toNat, 1)
    else (n, Nat.pow 2 (2 - x.exponent).toNat)
  let below := if x.mantissa == Nat.pow 2 52 && lowestExponent < x.exponent then 1 else 2
  (quarter (4 * x.mantissa - below), quarter (4 * x.mantissa + 2))

/-- Whether a decimal rounds to the value: the ends belong to an even mantissa. -/
def holds (x : Binary64) (d : Decimal) : Bool :=
  let (low, high) := x.interval
  if x.mantissa % 2 == 0 then !Decimal.less d.fraction low && !Decimal.less high d.fraction
  else Decimal.less low d.fraction && Decimal.less d.fraction high

/-- The largest power of ten that is not above the value, searched downwards. -/
def decimalExponent (x : Binary64) : Nat → Int → Int
  | 0, k => k
  | fuel + 1, k =>
    if Decimal.less x.fraction (Decimal.power k) then decimalExponent x fuel (k - 1) else k

/-- The two neighbours of the value on the grid of multiples of ten to the power `k`. -/
def neighbours (x : Binary64) (k : Int) : Decimal × Decimal :=
  let (n, d) := x.fraction
  let (p, q) := Decimal.power k
  let floor := n * q / (d * p)
  (⟨floor, k⟩, ⟨floor + 1, k⟩)

/-- Of two neighbours the nearer one, and the one with the even last digit from halfway. -/
def nearer (x : Binary64) (low high : Decimal) : Decimal :=
  let (n, d) := x.fraction
  let (p, q) := Decimal.power low.exponent
  let twice := 2 * n * q
  let middle := (2 * low.digits + 1) * p * d
  if twice < middle then low
  else if middle < twice then high
  else if low.digits % 2 == 0 then low else high

/-- The decimal with `digits` digits, or the first number of digits above it that does. -/
def shortestFrom (x : Binary64) (top : Int) : Nat → Nat → Decimal
  | 0, digits => (x.neighbours (top - digits + 1)).1
  | fuel + 1, digits =>
    let (low, high) := x.neighbours (top - digits + 1)
    match x.holds low, x.holds high with
    | true, true => x.nearer low high
    | true, false => low
    | false, true => high
    | false, false => shortestFrom x top fuel (digits + 1)

/-- The decimal with the fewest digits that rounds to the value, and of those the nearest. -/
def shortest (x : Binary64) : Decimal :=
  if x.isZero then ⟨0, 0⟩
  else
    let guess : Int := ((x.mantissa.log2 : Int) + x.exponent + 1) * 30103 / 100000 + 1
    let top := x.decimalExponent 4 guess
    Decimal.stripped 20 (x.shortestFrom top 17 1)

end Binary64

end FeedPoller
