/-
Numbers in JSON.

A number without fraction and exponent that fits 64 bits, signed or unsigned, stays an
integer.  Every other number is a double.  Its value is found in two roundings, not in
one: as many leading digits as 64 bits hold are taken as a whole number and rounded to
a double, and that is multiplied or divided by the double nearest to the power of ten
that is left.  Digits beyond those are worth their place but not their value, and
below 10^-308 the division is done in two steps.  A number beyond the largest double
has no value.

A double is written with the fewest digits that read back, always with a point or an
exponent, so that it is never mistaken for an integer: positional from 10^-5 up to
below 10^16, and otherwise with an exponent that carries its sign.
-/
import FeedPoller.Decimal.Shortest

namespace FeedPoller.Json

/-- A number as data. -/
inductive Number where
  | integer (value : Int)
  | float (value : Binary64)
deriving DecidableEq, Repr

/-- A number as it is spelled. -/
structure Literal where
  negative : Bool
  /-- The digits before the point. -/
  whole : List Nat
  /-- The digits after the point, if there is one. -/
  fraction : Option (List Nat)
  /-- The exponent's sign, and its digits. -/
  exponent : Option (Bool × List Nat)
deriving DecidableEq, Repr

namespace Number

/-- The largest number that 64 bits hold. -/
def largest64 : Nat := Nat.pow 2 64 - 1

/-- The value of a row of decimal digits. -/
def ofDigits (ds : List Nat) : Nat := ds.foldl (fun n d => n * 10 + d) 0

/-- Take digits into `n` while 64 bits hold the result; what is left is not taken. -/
def takeDigits (n : Nat) : List Nat → Nat × List Nat
  | [] => (n, [])
  | d :: rest => if n * 10 + d ≤ largest64 then takeDigits (n * 10 + d) rest else (n, d :: rest)

/-- The double nearest to ten to the power `k`. -/
def powerOfTen (k : Nat) : Option Binary64 := Binary64.ofNat (Nat.pow 10 k)

/-- `x` times ten to the power `exponent`; the fuel bounds the steps below 10^-308. -/
def scale (x : Binary64) (exponent : Int) : Nat → Option Binary64
  | 0 => some (Binary64.zero false)
  | fuel + 1 =>
    if exponent.natAbs ≤ 308 then do
      let p ← powerOfTen exponent.natAbs
      if 0 ≤ exponent then x.mul p else x.div p
    else if x.isZero then some x
    else if 0 ≤ exponent then none
    else do
      let y ← x.div (← powerOfTen 308)
      scale y (exponent + 308) fuel

/-- The double for a significand, a power of ten and a sign. -/
def ofParts (negative : Bool) (significand : Nat) (exponent : Int) : Option Number := do
  let x ← scale (← Binary64.ofNat significand) exponent 4
  some (.float (x.withSign negative))

/-- The largest exponent that is computed with. -/
def exponentLimit : Nat := Nat.pow 2 31 - 1

/-- The value of a number that has a fraction, an exponent or too many digits. -/
def ofLongLiteral (l : Literal) : Option Number :=
  let (significand, left) := takeDigits 0 l.whole
  let (significand, taken) :=
    match l.fraction with
    | none => (significand, 0)
    | some ds => let (n, rest) := takeDigits significand ds; (n, ds.length - rest.length)
  let shift : Int := (left.length : Int) - (taken : Int)
  match l.exponent with
  | none => ofParts l.negative significand shift
  | some (below, ds) =>
    let e := ofDigits ds
    if exponentLimit < e then
      if significand ≠ 0 ∧ !below then none else some (.float (.zero l.negative))
    else ofParts l.negative significand (if below then shift - e else shift + e)

/-- The value that a spelling has, if it has one. -/
def ofLiteral (l : Literal) : Option Number :=
  if l.fraction.isNone && l.exponent.isNone && (takeDigits 0 l.whole).2.isEmpty then
    let n := ofDigits l.whole
    if !l.negative then some (.integer n)
    else if 1 ≤ n ∧ n ≤ Nat.pow 2 63 then some (.integer (-(n : Int)))
    else ofParts true n 0
  else ofLongLiteral l

/-- Zeros, as characters. -/
def zeros (n : Nat) : List Char := List.replicate n '0'

/-- The characters of a decimal: positional for moderate powers, else with an exponent. -/
def decimalChars (d : Decimal) : List Char :=
  let digits := (toString d.digits).toList
  let point : Int := digits.length + d.exponent
  if 0 ≤ d.exponent ∧ point ≤ 16 then digits ++ zeros d.exponent.toNat ++ ['.', '0']
  else if 0 < point ∧ point ≤ 16 then
    digits.take point.toNat ++ '.' :: digits.drop point.toNat
  else if -5 < point ∧ point ≤ 0 then '0' :: '.' :: (zeros point.natAbs ++ digits)
  else
    let mantissa :=
      match digits with
      | [c] => [c]
      | c :: rest => c :: '.' :: rest
      | [] => []
    let power := point - 1
    mantissa ++ 'e' :: (if power < 0 then '-' else '+') :: (toString power.natAbs).toList

/-- The characters of a double. -/
def floatChars (x : Binary64) : List Char :=
  (if x.negative then ['-'] else []) ++ decimalChars x.shortest

/-- The characters of a number. -/
def chars : Number → List Char
  | .integer n => (toString n).toList
  | .float x => floatChars x

end Number

end FeedPoller.Json
