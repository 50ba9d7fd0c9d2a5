/-
Rounding to doubles.

Doubles and decimals are quotients of natural numbers, so what rounding does to them is told in
rational numbers.  The power of two for a quotient leaves it between 2^52 and 2^53 unless the
power is the lowest one.  So a quotient is rounded to a double that there is, or to none, and to
none only if it lies at least half a step above the largest double.
-/
import FeedPoller.Decimal.Binary64
import Mathlib.Algebra.Order.Field.Power
import Mathlib.Data.Nat.Log
import Mathlib.Data.Rat.Cast.Order
import Mathlib.Tactic.FieldSimp
import Mathlib.Tactic.Linarith
import Mathlib.Tactic.Positivity
import Mathlib.Tactic.Ring
import Mathlib.Tactic.NormNum

namespace FeedPoller

/-- The rational number that a pair of natural numbers stands for. -/
def quotient (p : Nat × Nat) : ℚ := (p.1 : ℚ) / (p.2 : ℚ)

theorem cast_pow (b k : Nat) : ((Nat.pow b k : Nat) : ℚ) = (b : ℚ) ^ (k : ℤ) := by
  rw [zpow_natCast]
  exact Nat.cast_pow b k

theorem cast_pow_toNat {b : Nat} {e : ℤ} (h : 0 ≤ e) :
    ((Nat.pow b e.toNat : Nat) : ℚ) = (b : ℚ) ^ e := by
  rw [cast_pow, Int.toNat_of_nonneg h]

namespace Binary64

/-- A double that there is. -/
structure InRange (x : Binary64) : Prop where
  mantissa : x.mantissa < Nat.pow 2 53
  low : lowestExponent ≤ x.exponent
  high : x.exponent ≤ highestExponent

/-- The value without its sign. -/
def magnitude (x : Binary64) : ℚ := (x.mantissa : ℚ) * (2 : ℚ) ^ x.exponent

variable {x y : Binary64} {num den : Nat} {e : ℤ} {negative : Bool}

theorem magnitude_nonneg (x : Binary64) : 0 ≤ x.magnitude := by
  unfold magnitude
  positivity

theorem fraction_pos (x : Binary64) : 0 < x.fraction.2 := by
  unfold fraction
  split
  · exact Nat.one_pos
  · exact Nat.pow_pos (by decide)

theorem quotient_fraction (x : Binary64) : quotient x.fraction = x.magnitude := by
  unfold fraction quotient magnitude
  split
  · next h => simp only [Nat.cast_mul, cast_pow_toNat h, Nat.cast_ofNat, Nat.cast_one, div_one]
  · next h =>
      rw [cast_pow_toNat (by omega), zpow_neg, div_inv_eq_mul]
      rfl

theorem scaled_pos (hden : 0 < den) (e : ℤ) : 0 < (scaled num den e).2 := by
  unfold scaled
  split
  · exact Nat.mul_pos hden (Nat.pow_pos (by decide))
  · exact hden

theorem quotient_scaled (num den : Nat) (e : ℤ) :
    quotient (scaled num den e) = quotient (num, den) / (2 : ℚ) ^ e := by
  unfold scaled quotient
  split
  · next h => simp only [Nat.cast_mul, cast_pow_toNat h, Nat.cast_ofNat, div_div]
  · next h =>
      have hpow : ((Nat.pow 2 (-e).toNat : Nat) : ℚ) = ((2 : ℚ) ^ e)⁻¹ := by
        rw [cast_pow_toNat (by omega), zpow_neg]
        rfl
      simp only [Nat.cast_mul, hpow]
      ring

/-! ### Rounding a quotient to a whole number -/

theorem roundDiv_bounds (num : Nat) (hden : 0 < den) :
    2 * (roundDiv num den * den) ≤ 2 * num + den ∧
      2 * num ≤ 2 * (roundDiv num den * den) + den := by
  have hsplit : num / den * den + num % den = num := Nat.div_add_mod' num den
  have hlt : num % den < den := Nat.mod_lt _ hden
  have hhigher (k : Nat) : (num / den + k) * den = num / den * den + k * den := Nat.add_mul _ _ _
  unfold roundDiv
  dsimp only
  split
  · omega
  · split
    · rw [hhigher]
      omega
    · rw [hhigher]
      rcases Nat.mod_two_eq_zero_or_one (num / den) with hparity | hparity <;> rw [hparity] <;>
        omega

/-- Rounding moves a quotient by half a unit at most. -/
theorem roundDiv_near (hden : 0 < den) : (roundDiv num den : ℚ) ≤ quotient (num, den) + 1 / 2 ∧
    quotient (num, den) ≤ (roundDiv num den : ℚ) + 1 / 2 := by
  obtain ⟨hle, hge⟩ := roundDiv_bounds num hden
  have hpos : (0 : ℚ) < den := by exact_mod_cast hden
  have hle' : 2 * ((roundDiv num den : ℚ) * den) ≤ 2 * num + den := by exact_mod_cast hle
  have hge' : 2 * (num : ℚ) ≤ 2 * ((roundDiv num den : ℚ) * den) + den := by exact_mod_cast hge
  have hnum : quotient (num, den) * den = num := div_mul_cancel₀ _ (ne_of_gt hpos)
  constructor
  · refine le_of_mul_le_mul_right ?_ hpos
    rw [add_mul, hnum]
    linarith
  · refine le_of_mul_le_mul_right ?_ hpos
    rw [add_mul, hnum]
    linarith

/-- A larger quotient is not rounded to a smaller number. -/
theorem roundDiv_mono {m n : Nat} (hden : 0 < den) (h : m ≤ n) :
    roundDiv m den ≤ roundDiv n den := by
  by_contra hlt
  have hm := (roundDiv_bounds m hden).1
  have hn := (roundDiv_bounds n hden).2
  have hstep : (roundDiv n den + 1) * den ≤ roundDiv m den * den :=
    Nat.mul_le_mul_right den (by omega)
  rw [Nat.add_mul] at hstep
  -- both lie halfway between the two results, and are the same
  obtain rfl : m = n := by omega
  omega

theorem roundDiv_mul (k : Nat) (hden : 0 < den) : roundDiv (k * den) den = k := by
  obtain ⟨hle, hge⟩ := roundDiv_bounds (k * den) hden
  by_contra hne
  rcases Nat.lt_or_gt_of_ne hne with hlt | hgt
  · have hstep := Nat.mul_le_mul_right den (Nat.succ_le_of_lt hlt)
    rw [Nat.succ_mul] at hstep
    omega
  · have hstep := Nat.mul_le_mul_right den (Nat.succ_le_of_lt hgt)
    rw [Nat.succ_mul] at hstep
    omega

/-! ### The power of two -/

theorem log2_bounds {n : Nat} (h : n ≠ 0) :
    (2 : ℚ) ^ (n.log2 : ℤ) ≤ n ∧ (n : ℚ) < (2 : ℚ) ^ (n.log2 + 1 : ℤ) := by
  constructor
  · have hle : 2 ^ n.log2 ≤ n := Nat.log2_self_le h
    rw [zpow_natCast]
    exact_mod_cast hle
  · have hlt : n < 2 ^ (n.log2 + 1) := Nat.lt_log2_self
    have hcast : (2 : ℚ) ^ (n.log2 + 1 : ℤ) = ((2 ^ (n.log2 + 1) : Nat) : ℚ) := by
      rw [Nat.cast_pow, ← zpow_natCast]
      simp
    rw [hcast]
    exact_mod_cast hlt

theorem quotient_lt_iff {p : Nat × Nat} {k : Nat} (h : 0 < p.2) :
    quotient p < (k : ℚ) ↔ p.1 < k * p.2 := by
  have hpos : (0 : ℚ) < p.2 := by exact_mod_cast h
  rw [quotient, div_lt_iff₀ hpos]
  exact_mod_cast Iff.rfl

/-- Before the lowest power comes in, the quotient is brought to 53 bits. -/
theorem exponentFor_eq (hnum : num ≠ 0) (hden : 0 < den) :
    ∃ e : ℤ, exponentFor num den = max e lowestExponent ∧
      (2 : ℚ) ^ (e + 52) ≤ quotient (num, den) ∧ quotient (num, den) < (2 : ℚ) ^ (e + 53) := by
  have hpos : (0 : ℚ) < den := by exact_mod_cast hden
  obtain ⟨hnumle, hnumlt⟩ := log2_bounds hnum
  obtain ⟨hdenle, hdenlt⟩ := log2_bounds (Nat.ne_of_gt hden)
  obtain ⟨guess, hguess⟩ : ∃ guess : ℤ, guess = (num.log2 : ℤ) - (den.log2 : ℤ) - 52 := ⟨_, rfl⟩
  -- the lengths of the two numbers leave the quotient within two powers of two
  have hlt : quotient (num, den) < (2 : ℚ) ^ (guess + 53) := by
    have hsum : (2 : ℚ) ^ (num.log2 + 1 : ℤ) =
        (2 : ℚ) ^ (guess + 53) * (2 : ℚ) ^ (den.log2 : ℤ) := by
      rw [← zpow_add₀ (by norm_num)]
      congr 1
      omega
    refine (div_lt_iff₀ hpos).mpr (lt_of_lt_of_le hnumlt ?_)
    rw [hsum]
    exact mul_le_mul_of_nonneg_left hdenle (by positivity)
  have hgt : (2 : ℚ) ^ (guess + 51) < quotient (num, den) := by
    have hsum : (2 : ℚ) ^ (num.log2 : ℤ) =
        (2 : ℚ) ^ (guess + 51) * (2 : ℚ) ^ (den.log2 + 1 : ℤ) := by
      rw [← zpow_add₀ (by norm_num)]
      congr 1
      omega
    refine (lt_div_iff₀ hpos).mpr (lt_of_lt_of_le ?_ hnumle)
    rw [hsum]
    exact mul_lt_mul_of_pos_left hdenlt (by positivity)
  have hscaled : (scaled num den guess).1 < Nat.pow 2 52 * (scaled num den guess).2 ↔
      quotient (num, den) < (2 : ℚ) ^ (guess + 52) := by
    rw [← quotient_lt_iff (scaled_pos hden guess), quotient_scaled, div_lt_iff₀ (by positivity),
      cast_pow, Nat.cast_ofNat, Nat.cast_ofNat, ← zpow_add₀ (by norm_num), add_comm]
  unfold exponentFor
  dsimp only
  rw [← hguess]
  by_cases hsmall : (scaled num den guess).1 < Nat.pow 2 52 * (scaled num den guess).2
  · refine ⟨guess - 1, by rw [if_pos hsmall], ?_, ?_⟩
    · rw [show guess - 1 + 52 = guess + 51 by omega]
      exact le_of_lt hgt
    · rw [show guess - 1 + 53 = guess + 52 by omega]
      exact hscaled.mp hsmall
  · exact ⟨guess, by rw [if_neg hsmall], not_lt.mp fun h => hsmall (hscaled.mpr h), hlt⟩

/-- The power leaves less than 2^53, and unless it is the lowest one not less than 2^52. -/
theorem exponentFor_spec (hnum : num ≠ 0) (hden : 0 < den) :
    lowestExponent ≤ exponentFor num den ∧
      quotient (num, den) < (2 : ℚ) ^ (exponentFor num den + 53) ∧
      (lowestExponent < exponentFor num den →
        (2 : ℚ) ^ (exponentFor num den + 52) ≤ quotient (num, den)) := by
  obtain ⟨e, he, hlow, hhigh⟩ := exponentFor_eq hnum hden
  rw [he]
  refine ⟨le_max_right _ _, lt_of_lt_of_le hhigh ?_, fun hlt => ?_⟩
  · exact zpow_le_zpow_right₀ (by norm_num) (Int.add_le_add_right (le_max_left _ _) _)
  · rw [max_eq_left (by omega)]
    exact hlow

/-! ### The rounded quotient -/

/-- The largest magnitude that is not rounded to a double. -/
def ceiling : ℚ := ((2 : ℚ) ^ (54 : ℤ) - 1) * (2 : ℚ) ^ (970 : ℤ)

/-- A mantissa of 54 bits is the next power of two. -/
def carried (negative : Bool) (m : Nat) (e : Int) : Binary64 :=
  if m == Nat.pow 2 53 then ⟨negative, Nat.pow 2 52, e + 1⟩ else ⟨negative, m, e⟩

theorem magnitude_carried (negative : Bool) (m : Nat) (e : ℤ) :
    (carried negative m e).magnitude = (m : ℚ) * (2 : ℚ) ^ e := by
  unfold carried magnitude
  split
  · next h =>
      have hm : m = Nat.pow 2 53 := by simpa using h
      rw [hm, cast_pow, cast_pow, zpow_add₀ (by norm_num)]
      norm_num
      ring
  · rfl

/-- The quotient at the power that it is given, rounded. -/
def mantissaFor (num den : Nat) : Nat :=
  roundDiv (scaled num den (exponentFor num den)).1 (scaled num den (exponentFor num den)).2

theorem ofFraction_eq (negative : Bool) (hnum : num ≠ 0) (den : Nat) :
    ofFraction negative num den =
      if highestExponent < (carried negative (mantissaFor num den) (exponentFor num den)).exponent
      then none else some (carried negative (mantissaFor num den) (exponentFor num den)) := by
  unfold ofFraction
  rw [if_neg (by simpa using hnum)]
  by_cases hfull : (mantissaFor num den == Nat.pow 2 53) = true
  · have hcarried : carried negative (mantissaFor num den) (exponentFor num den) =
        ⟨negative, Nat.pow 2 52, exponentFor num den + 1⟩ := if_pos hfull
    rw [hcarried]
    rw [mantissaFor] at hfull
    dsimp only
    rw [if_pos hfull]
  · have hcarried : carried negative (mantissaFor num den) (exponentFor num den) =
        ⟨negative, mantissaFor num den, exponentFor num den⟩ := if_neg hfull
    rw [hcarried]
    rw [mantissaFor] at hfull
    dsimp only
    rw [if_neg hfull]
    rfl

theorem mantissaFor_spec (hnum : num ≠ 0) (hden : 0 < den) : mantissaFor num den ≤ Nat.pow 2 53 ∧
    (mantissaFor num den : ℚ) ≤ quotient (num, den) / (2 : ℚ) ^ exponentFor num den + 1 / 2 := by
  obtain ⟨-, hlt, -⟩ := exponentFor_spec hnum hden
  have hpos : 0 < (scaled num den (exponentFor num den)).2 := scaled_pos hden _
  have hquotient : quotient (scaled num den (exponentFor num den)) <
      ((Nat.pow 2 53 : Nat) : ℚ) := by
    rw [quotient_scaled, div_lt_iff₀ (by positivity), cast_pow, Nat.cast_ofNat, Nat.cast_ofNat,
      ← zpow_add₀ (by norm_num), add_comm]
    exact hlt
  refine ⟨?_, ?_⟩
  · have hle := (roundDiv_bounds (scaled num den (exponentFor num den)).1 hpos).1
    have hlt' := (quotient_lt_iff hpos).mp hquotient
    by_contra hgt
    have hstep := Nat.mul_le_mul_right (scaled num den (exponentFor num den)).2
      (Nat.succ_le_of_lt (not_le.mp hgt))
    rw [Nat.succ_mul, mantissaFor] at hstep
    omega
  · rw [← quotient_scaled]
    exact (roundDiv_near hpos).1

theorem inRange_zero (negative : Bool) : (zero negative).InRange where
  mantissa := Nat.pow_pos (by decide)
  low := Int.le_refl _
  high := by show lowestExponent ≤ highestExponent; decide

theorem inRange_ofFraction (hden : 0 < den) (h : ofFraction negative num den = some x) :
    x.InRange := by
  by_cases hnum : num = 0
  · rw [ofFraction, if_pos (by simpa using hnum)] at h
    exact Option.some.inj h ▸ inRange_zero negative
  · obtain ⟨hm, -⟩ := mantissaFor_spec hnum hden
    obtain ⟨hlow, -⟩ := exponentFor_spec hnum hden
    rw [ofFraction_eq negative hnum] at h
    split at h
    · exact absurd h (by simp)
    · next hhigh =>
        obtain rfl := Option.some.inj h
        unfold carried at hhigh ⊢
        split
        · next hfull =>
            rw [if_pos hfull] at hhigh
            exact ⟨show Nat.pow 2 52 < Nat.pow 2 53 by decide, by show _ ≤ _ + 1; omega,
              not_lt.mp hhigh⟩
        · next hfull =>
            rw [if_neg hfull] at hhigh
            have hne : mantissaFor num den ≠ Nat.pow 2 53 := by simpa using hfull
            exact ⟨Nat.lt_of_le_of_ne hm hne, hlow, not_lt.mp hhigh⟩

/-- A quotient below the ceiling is rounded to a double. -/
theorem ofFraction_isSome (hden : 0 < den) (h : quotient (num, den) < ceiling) :
    (ofFraction negative num den).isSome := by
  by_cases hnum : num = 0
  · rw [ofFraction, if_pos (by simpa using hnum)]
    rfl
  · obtain ⟨-, hnear⟩ := mantissaFor_spec hnum hden
    obtain ⟨-, -, hnormal⟩ := exponentFor_spec hnum hden
    have heq := ofFraction_eq negative hnum den
    generalize exponentFor num den = e, mantissaFor num den = m at hnear heq hnormal
    rw [heq, if_neg]
    · rfl
    intro hhigh
    unfold carried at hhigh
    refine absurd h (not_lt.mpr ?_)
    split at hhigh
    · next hfull =>
        have hm : m = Nat.pow 2 53 := by simpa using hfull
        have he : (971 : ℤ) ≤ e := Int.le_of_lt_add_one hhigh
        have hhalf : (2 : ℚ) ^ (53 : ℤ) - 1 / 2 ≤ quotient (num, den) / (2 : ℚ) ^ e := by
          rw [hm, cast_pow] at hnear
          push_cast at hnear
          linarith
        rw [le_div_iff₀ (by positivity)] at hhalf
        refine le_trans (le_of_eq_of_le ?_ (mul_le_mul_of_nonneg_left
          (zpow_le_zpow_right₀ (by norm_num) he) (by norm_num))) hhalf
        rw [ceiling, show (971 : ℤ) = 970 + 1 from rfl, zpow_add₀ (by norm_num)]
        generalize (2 : ℚ) ^ (970 : ℤ) = power
        norm_num
        ring
    · have he : (971 : ℤ) < e := hhigh
      refine le_trans ?_ (hnormal (lt_trans (by decide) he))
      refine le_trans (le_of_lt ?_) (zpow_le_zpow_right₀ (m := 1024) (by norm_num) (by omega))
      rw [ceiling, show (1024 : ℤ) = 54 + 970 from rfl, zpow_add₀ (by norm_num)]
      exact mul_lt_mul_of_pos_right (by linarith) (by positivity)

/-! ### Products and quotients -/

theorem InRange.lt_ceiling (h : x.InRange) : x.magnitude < ceiling := by
  have hm : (x.mantissa : ℚ) ≤ (2 : ℚ) ^ (53 : ℤ) - 1 := by
    have hle : x.mantissa + 1 ≤ Nat.pow 2 53 := h.mantissa
    have hcast : ((x.mantissa + 1 : Nat) : ℚ) ≤ ((Nat.pow 2 53 : Nat) : ℚ) := by exact_mod_cast hle
    rw [cast_pow] at hcast
    push_cast at hcast
    linarith
  have hp : (2 : ℚ) ^ x.exponent ≤ (2 : ℚ) ^ (971 : ℤ) := zpow_le_zpow_right₀ (by norm_num) h.high
  have hle : x.magnitude ≤ ((2 : ℚ) ^ (53 : ℤ) - 1) * (2 : ℚ) ^ (971 : ℤ) :=
    mul_le_mul hm hp (by positivity) (by norm_num)
  refine lt_of_le_of_lt hle ?_
  rw [ceiling, show (971 : ℤ) = 1 + 970 from rfl, zpow_add₀ (by norm_num), ← mul_assoc]
  exact mul_lt_mul_of_pos_right (by norm_num) (by positivity)

theorem mul_eq (x y : Binary64) : x.mul y =
    ofFraction false (x.fraction.1 * y.fraction.1) (x.fraction.2 * y.fraction.2) := rfl

theorem div_eq (x y : Binary64) : x.div y =
    ofFraction false (x.fraction.1 * y.fraction.2) (x.fraction.2 * y.fraction.1) := rfl

theorem mul_isSome (h : x.magnitude * y.magnitude < ceiling) : (x.mul y).isSome := by
  rw [mul_eq]
  refine ofFraction_isSome (Nat.mul_pos x.fraction_pos y.fraction_pos) ?_
  have hproduct : quotient (x.fraction.1 * y.fraction.1, x.fraction.2 * y.fraction.2) =
      quotient x.fraction * quotient y.fraction := by
    simp only [quotient, Nat.cast_mul]
    exact (div_mul_div_comm _ _ _ _).symm
  rw [hproduct, quotient_fraction, quotient_fraction]
  exact h

theorem inRange_mul {z : Binary64} (h : x.mul y = some z) : z.InRange :=
  inRange_ofFraction (Nat.mul_pos x.fraction_pos y.fraction_pos) h

theorem fraction_ne_zero (h : 1 ≤ y.magnitude) : 0 < y.fraction.1 := by
  by_contra hzero
  have hfraction := y.quotient_fraction
  rw [quotient, Nat.eq_zero_of_not_pos hzero, Nat.cast_zero, zero_div] at hfraction
  rw [← hfraction] at h
  exact absurd h (by norm_num)

theorem div_isSome (hx : x.InRange) (hy : 1 ≤ y.magnitude) : (x.div y).isSome := by
  rw [div_eq]
  refine ofFraction_isSome (Nat.mul_pos x.fraction_pos (fraction_ne_zero hy)) ?_
  have hratio : quotient (x.fraction.1 * y.fraction.2, x.fraction.2 * y.fraction.1) =
      quotient x.fraction / quotient y.fraction := by
    simp only [quotient, Nat.cast_mul]
    exact (div_div_div_eq _ _ _ _).symm
  rw [hratio, quotient_fraction, quotient_fraction]
  exact lt_of_le_of_lt (div_le_self x.magnitude_nonneg hy) hx.lt_ceiling

theorem inRange_div {z : Binary64} (hy : 1 ≤ y.magnitude) (h : x.div y = some z) : z.InRange :=
  inRange_ofFraction (Nat.mul_pos x.fraction_pos (fraction_ne_zero hy)) h

/-! ### Whole numbers -/

/-- The whole number that a whole number is rounded to. -/
def wholeRounded (n : Nat) : Nat :=
  roundDiv n (Nat.pow 2 (n.log2 - 52)) * Nat.pow 2 (n.log2 - 52)

theorem wholeRounded_le {n k : Nat} (h : n ≤ k * Nat.pow 2 (n.log2 - 52)) :
    wholeRounded n ≤ k * Nat.pow 2 (n.log2 - 52) := by
  have hpos : 0 < Nat.pow 2 (n.log2 - 52) := Nat.pow_pos (by decide)
  refine Nat.mul_le_mul_right _ ?_
  rw [← roundDiv_mul k hpos]
  exact roundDiv_mono hpos h

theorem le_wholeRounded {n k : Nat} (h : k * Nat.pow 2 (n.log2 - 52) ≤ n) :
    k * Nat.pow 2 (n.log2 - 52) ≤ wholeRounded n := by
  have hpos : 0 < Nat.pow 2 (n.log2 - 52) := Nat.pow_pos (by decide)
  refine Nat.mul_le_mul_right _ ?_
  rw [← roundDiv_mul k hpos]
  exact roundDiv_mono hpos h

theorem pow_mul_pow (a b : Nat) : Nat.pow 2 a * Nat.pow 2 b = Nat.pow 2 (a + b) :=
  (Nat.pow_add 2 a b).symm

/-- A larger number is not rounded to a smaller one. -/
theorem wholeRounded_mono {m n : Nat} (h : m ≤ n) : wholeRounded m ≤ wholeRounded n := by
  by_cases hsame : m.log2 = n.log2
  · have hpos : 0 < Nat.pow 2 (n.log2 - 52) := Nat.pow_pos (by decide)
    unfold wholeRounded
    rw [hsame]
    exact Nat.mul_le_mul_right _ (roundDiv_mono hpos h)
  · by_cases hzero : m = 0
    · rw [hzero]
      exact Nat.zero_le _
    · -- a power of two lies between the two numbers
      have hmlt : m < Nat.pow 2 (m.log2 + 1) := Nat.lt_log2_self
      have hnle : Nat.pow 2 n.log2 ≤ n := Nat.log2_self_le (by omega)
      have hlog : m.log2 < n.log2 + 1 := (Nat.log2_lt hzero).mpr (lt_of_le_of_lt h Nat.lt_log2_self)
      have hm : wholeRounded m ≤ Nat.pow 2 (m.log2 + 1 - (m.log2 - 52) + (m.log2 - 52)) := by
        rw [← pow_mul_pow]
        refine wholeRounded_le ?_
        rw [pow_mul_pow, Nat.sub_add_cancel (by omega)]
        exact Nat.le_of_lt hmlt
      have hn : Nat.pow 2 (n.log2 - (n.log2 - 52) + (n.log2 - 52)) ≤ wholeRounded n := by
        rw [← pow_mul_pow]
        refine le_wholeRounded ?_
        rw [pow_mul_pow, Nat.sub_add_cancel (by omega)]
        exact hnle
      refine Nat.le_trans hm (Nat.le_trans (Nat.pow_le_pow_right (by decide) ?_) hn)
      omega

theorem exponentFor_one {n : Nat} (h : n ≠ 0) : exponentFor n 1 = (n.log2 : ℤ) - 52 := by
  obtain ⟨e, he, hlow, hhigh⟩ := exponentFor_eq h Nat.one_pos
  obtain ⟨hle, hlt⟩ := log2_bounds h
  have hq : quotient (n, 1) = (n : ℚ) := by simp [quotient]
  rw [hq] at hlow hhigh
  have hup : (e + 52 : ℤ) < n.log2 + 1 :=
    (zpow_lt_zpow_iff_right₀ (by norm_num)).mp (lt_of_le_of_lt hlow hlt)
  have hdown : (n.log2 : ℤ) < e + 53 :=
    (zpow_lt_zpow_iff_right₀ (by norm_num)).mp (lt_of_le_of_lt hle hhigh)
  rw [he, lowestExponent]
  omega

theorem roundDiv_one (n : Nat) : roundDiv n 1 = n := by
  have h := roundDiv_mul n Nat.one_pos
  rwa [Nat.mul_one] at h

theorem wholeRounded_of_short {n : Nat} (h : n.log2 < 52) : wholeRounded n = n := by
  have hzero : n.log2 - 52 = 0 := by omega
  unfold wholeRounded
  rw [hzero]
  exact (Nat.mul_one _).trans (roundDiv_one n)

theorem magnitude_ofNat {n : Nat} (h : ofNat n = some x) : x.magnitude = wholeRounded n := by
  by_cases hzero : n = 0
  · subst hzero
    obtain rfl : zero false = x := Option.some.inj h
    simp [magnitude, zero, wholeRounded, roundDiv]
  · rw [ofNat, ofFraction_eq false hzero] at h
    split at h
    · exact absurd h (by simp)
    · rw [← Option.some.inj h, magnitude_carried, mantissaFor, exponentFor_one hzero]
      by_cases hlong : 52 ≤ n.log2
      · have hpow : (2 : ℚ) ^ ((n.log2 : ℤ) - 52) = ((Nat.pow 2 (n.log2 - 52) : Nat) : ℚ) := by
          rw [cast_pow, Nat.cast_ofNat, Nat.cast_sub hlong, Nat.cast_ofNat]
        have hscaled : scaled n 1 ((n.log2 : ℤ) - 52) = (n, Nat.pow 2 (n.log2 - 52)) := by
          rw [scaled, if_pos (by omega), Nat.one_mul]
          congr 2
          omega
        rw [hscaled, hpow, ← Nat.cast_mul]
        rfl
      · have hscaled : scaled n 1 ((n.log2 : ℤ) - 52) =
            (n * Nat.pow 2 (-((n.log2 : ℤ) - 52)).toNat, 1) := by
          rw [scaled, if_neg (by omega)]
        have hpow : ((Nat.pow 2 (-((n.log2 : ℤ) - 52)).toNat : Nat) : ℚ) *
            (2 : ℚ) ^ ((n.log2 : ℤ) - 52) = 1 := by
          rw [cast_pow_toNat (by omega), Nat.cast_ofNat, ← zpow_add₀ (by norm_num)]
          simp
        rw [hscaled, roundDiv_one, Nat.cast_mul, mul_assoc, hpow, mul_one,
          wholeRounded_of_short (by omega)]

end Binary64

end FeedPoller
