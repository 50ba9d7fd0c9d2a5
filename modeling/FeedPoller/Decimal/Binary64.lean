/-
Numbers in binary floating point.

A finite double is a sign, a mantissa below 2^53 and a power of two no smaller than
2^-1074.  The mantissa is at least 2^52 unless the power is that smallest one, so
every value but zero is written in one way.  Nothing here needs machine arithmetic:
a quotient of two natural numbers is rounded exactly, to the nearest value and to the
even mantissa when it lies halfway, and products and quotients of doubles are rounded
quotients of their exact results.
-/
namespace FeedPoller

/-- A finite double: `mantissa` times two to the power `exponent`, with a sign. -/
structure Binary64 where
  negative : Bool
  mantissa : Nat
  exponent : Int
deriving DecidableEq, Repr

namespace Binary64

/-- The smallest power of two that a double can have. -/
def lowestExponent : Int := -1074

/-- The largest power of two that a double can have. -/
def highestExponent : Int := 971

/-- Zero, with a sign. -/
def zero (negative : Bool) : Binary64 := ⟨negative, 0, lowestExponent⟩

instance : Inhabited Binary64 := ⟨zero false⟩

/-- Whether the value is zero, of either sign. -/
def isZero (x : Binary64) : Bool := x.mantissa == 0

/-- The magnitude as a quotient of natural numbers. -/
def fraction (x : Binary64) : Nat × Nat :=
  if 0 ≤ x.exponent then (x.mantissa * Nat.pow 2 x.exponent.toNat, 1)
  else (x.mantissa, Nat.pow 2 (-x.exponent).toNat)

/-- The quotient rounded to the nearest whole number, and to the even one from halfway. -/
def roundDiv (num den : Nat) : Nat :=
  let q := num / den
  let r := num % den
  if 2 * r < den then q else if den < 2 * r then q + 1 else q + q % 2

/-- `num / den` as a multiple of two to the power `e`, as a quotient. -/
def scaled (num den : Nat) (e : Int) : Nat × Nat :=
  if 0 ≤ e then (num, den * Nat.pow 2 e.toNat) else (num * Nat.pow 2 (-e).toNat, den)

/-- The power of two that leaves a mantissa of 53 bits, as far as powers go. -/
def exponentFor (num den : Nat) : Int :=
  let guess : Int := (num.log2 : Int) - (den.log2 : Int) - 52
  let (n, d) := scaled num den guess
  let e := if n < Nat.pow 2 52 * d then guess - 1 else guess
  max e lowestExponent

/-- The double nearest to `num / den`; nothing if that is beyond the largest one. -/
def ofFraction (negative : Bool) (num den : Nat) : Option Binary64 :=
  if num == 0 then some (zero negative)
  else
    let e := exponentFor num den
    let (n, d) := scaled num den e
    let m := roundDiv n d
    let (m, e) := if m == Nat.pow 2 53 then (Nat.pow 2 52, e + 1) else (m, e)
    if highestExponent < e then none else some ⟨negative, m, e⟩

/-- The double nearest to a natural number. -/
def ofNat (n : Nat) : Option Binary64 := ofFraction false n 1

/-- The rounded product of two magnitudes. -/
def mul (x y : Binary64) : Option Binary64 :=
  let (a, b) := x.fraction
  let (c, d) := y.fraction
  ofFraction false (a * c) (b * d)

/-- The rounded quotient of two magnitudes; the divisor must not be zero. -/
def div (x y : Binary64) : Option Binary64 :=
  let (a, b) := x.fraction
  let (c, d) := y.fraction
  ofFraction false (a * d) (b * c)

/-- The value with a sign given. -/
def withSign (x : Binary64) (negative : Bool) : Binary64 := { x with negative }

end Binary64

end FeedPoller
