/-
The size of the shortest decimal.

What a decimal is searched for is told here only by its size: it has at most eighteen digits, it
is not zero unless the double is, its power of ten is not far from the one
that the length of the double suggests, and it lies at most half a step above the double.  The
search tries one number of digits after the other, and whatever it ends with is a neighbour of the
double on some grid.
-/
import FeedPoller.Decimal.Shortest
import FeedPoller.Proofs.Decimal.Rounding

namespace FeedPoller

namespace Decimal

variable {a b : Nat × Nat} {d : Decimal}

/-- The rational number that a decimal stands for. -/
def value (d : Decimal) : ℚ := (d.digits : ℚ) * (10 : ℚ) ^ d.exponent

theorem power_pos (k : ℤ) : 0 < (power k).1 ∧ 0 < (power k).2 := by
  unfold power
  split
  · exact ⟨Nat.pow_pos (by decide), Nat.one_pos⟩
  · exact ⟨Nat.one_pos, Nat.pow_pos (by decide)⟩

theorem quotient_power (k : ℤ) : quotient (power k) = (10 : ℚ) ^ k := by
  unfold power quotient
  split
  · next h => simp only [cast_pow_toNat h, Nat.cast_ofNat, Nat.cast_one, div_one]
  · next h =>
      simp only [Nat.cast_one]
      rw [cast_pow_toNat (by omega), zpow_neg, one_div, inv_inv]
      rfl

theorem quotient_fraction (d : Decimal) : quotient d.fraction = d.value := by
  rw [value, ← quotient_power, quotient, quotient]
  simp only [fraction, Nat.cast_mul, mul_div_assoc]

theorem less_iff (ha : 0 < a.2) (hb : 0 < b.2) : less a b = true ↔ quotient a < quotient b := by
  have ha' : (0 : ℚ) < a.2 := by exact_mod_cast ha
  have hb' : (0 : ℚ) < b.2 := by exact_mod_cast hb
  rw [quotient, quotient, div_lt_div_iff₀ ha' hb', less, decide_eq_true_eq]
  exact_mod_cast Iff.rfl

theorem not_less_iff (ha : 0 < a.2) (hb : 0 < b.2) :
    less a b = false ↔ quotient b ≤ quotient a := by
  rw [← not_lt, ← less_iff ha hb, Bool.not_eq_true]

/-- Zeros at the end of the digits are worth their place. -/
theorem stripped_spec (fuel : Nat) (d : Decimal) : (stripped fuel d).value = d.value ∧
    (stripped fuel d).digits ≤ d.digits ∧ (d.digits ≠ 0 → (stripped fuel d).digits ≠ 0) ∧
    d.exponent ≤ (stripped fuel d).exponent := by
  induction fuel generalizing d with
  | zero => exact ⟨rfl, Nat.le_refl _, id, Int.le_refl _⟩
  | succ fuel ih =>
      unfold stripped
      by_cases h : d.digits ≠ 0 ∧ d.digits % 10 = 0
      · rw [if_pos h]
        obtain ⟨hvalue, hle, hne, hexponent⟩ := ih ⟨d.digits / 10, d.exponent + 1⟩
        have hten : (d.digits : ℚ) = ((d.digits / 10 : Nat) : ℚ) * 10 := by
          have hdiv : d.digits = d.digits / 10 * 10 := by omega
          exact_mod_cast hdiv
        refine ⟨hvalue.trans ?_, Nat.le_trans hle (Nat.div_le_self _ _), fun _ => hne ?_, ?_⟩
        · rw [value, value, hten, zpow_add₀ (by norm_num)]
          ring
        · show d.digits / 10 ≠ 0
          omega
        · have hlater : d.exponent + 1 ≤ (stripped fuel ⟨d.digits / 10, d.exponent + 1⟩).exponent :=
            hexponent
          omega
      · rw [if_neg h]
        exact ⟨rfl, Nat.le_refl _, id, Int.le_refl _⟩

end Decimal

namespace Binary64

variable {x : Binary64} {d : Decimal} {top k : ℤ}

/-! ### The interval of a double -/

/-- The upper end of the reals that are rounded to the value. -/
def upperEnd (x : Binary64) : ℚ := ((x.mantissa : ℚ) + 1 / 2) * (2 : ℚ) ^ x.exponent

/-- A quarter of the value of a mantissa's last bit, so many times. -/
def quarters (x : Binary64) (n : Nat) : Nat × Nat :=
  if 0 ≤ x.exponent - 2 then (n * Nat.pow 2 (x.exponent - 2).toNat, 1)
  else (n, Nat.pow 2 (2 - x.exponent).toNat)

theorem quotient_quarters (x : Binary64) (n : Nat) :
    0 < (x.quarters n).2 ∧ quotient (x.quarters n) = (n : ℚ) * (2 : ℚ) ^ (x.exponent - 2) := by
  unfold quarters quotient
  split
  · next h =>
      refine ⟨Nat.one_pos, ?_⟩
      simp only [Nat.cast_mul, cast_pow_toNat h, Nat.cast_ofNat, Nat.cast_one, div_one]
  · next h =>
      refine ⟨Nat.pow_pos (by decide), ?_⟩
      have hneg : (2 : ℤ) - x.exponent = -(x.exponent - 2) := by omega
      rw [hneg, cast_pow_toNat (by omega), zpow_neg, div_inv_eq_mul]
      rfl

theorem interval_eq (x : Binary64) :
    ∃ below, below ≤ 2 ∧
      x.interval = (x.quarters (4 * x.mantissa - below), x.quarters (4 * x.mantissa + 2)) := by
  refine ⟨if x.mantissa == Nat.pow 2 52 && lowestExponent < x.exponent then 1 else 2, ?_, rfl⟩
  split <;> omega

/-- A decimal that rounds to the value is not zero, and not above the interval. -/
theorem holds_spec (hm : x.mantissa ≠ 0) (h : x.holds d = true) :
    d.digits ≠ 0 ∧ d.value ≤ x.upperEnd := by
  obtain ⟨below, hbelow, hinterval⟩ := interval_eq x
  obtain ⟨hlowpos, hlow⟩ := x.quotient_quarters (4 * x.mantissa - below)
  obtain ⟨hhighpos, hhigh⟩ := x.quotient_quarters (4 * x.mantissa + 2)
  have hpos : 0 < d.fraction.2 := (Decimal.power_pos d.exponent).2
  have hbetween : quotient (x.quarters (4 * x.mantissa - below)) ≤ d.value ∧
      d.value ≤ quotient (x.quarters (4 * x.mantissa + 2)) := by
    rw [← Decimal.quotient_fraction]
    unfold holds at h
    rw [hinterval] at h
    dsimp only at h
    split at h
    · simp only [Bool.and_eq_true, Bool.not_eq_true'] at h
      exact ⟨(Decimal.not_less_iff hpos hlowpos).mp h.1,
        (Decimal.not_less_iff hhighpos hpos).mp h.2⟩
    · simp only [Bool.and_eq_true] at h
      exact ⟨le_of_lt ((Decimal.less_iff hlowpos hpos).mp h.1),
        le_of_lt ((Decimal.less_iff hpos hhighpos).mp h.2)⟩
  constructor
  · intro hzero
    have hsome : 0 < 4 * x.mantissa - below := by omega
    have hcast : (0 : ℚ) < ((4 * x.mantissa - below : Nat) : ℚ) := by exact_mod_cast hsome
    have hlowval : 0 < quotient (x.quarters (4 * x.mantissa - below)) := by
      rw [hlow]
      positivity
    have hval : d.value = 0 := by rw [Decimal.value, hzero, Nat.cast_zero, zero_mul]
    exact absurd (hval ▸ hbetween.1) (not_le.mpr hlowval)
  · refine le_trans hbetween.2 (le_of_eq ?_)
    rw [hhigh, upperEnd, zpow_sub₀ (by norm_num)]
    push_cast
    ring

/-! ### The search -/

/-- The power of ten that is found is near the one that was tried first, and not too small. -/
theorem decimalExponent_spec (fuel : Nat) (h : x.magnitude < (10 : ℚ) ^ (k + 1)) :
    x.magnitude < (10 : ℚ) ^ (x.decimalExponent fuel k + 1) ∧
      k - fuel ≤ x.decimalExponent fuel k ∧ x.decimalExponent fuel k ≤ k := by
  induction fuel generalizing k with
  | zero => exact ⟨h, by show k - ((0 : Nat) : ℤ) ≤ k; omega, Int.le_refl _⟩
  | succ fuel ih =>
      unfold decimalExponent
      by_cases hless : Decimal.less x.fraction (Decimal.power k) = true
      · rw [if_pos hless]
        rw [Decimal.less_iff x.fraction_pos (Decimal.power_pos k).2, quotient_fraction,
          Decimal.quotient_power] at hless
        obtain ⟨hlt, hlow, hhigh⟩ := ih (k := k - 1) (by rwa [Int.sub_add_cancel])
        exact ⟨hlt, by push_cast; omega, by omega⟩
      · rw [if_neg hless]
        exact ⟨h, by omega, Int.le_refl _⟩

/-- The neighbours of the value are whole multiples, one below it and one above. -/
theorem neighbours_spec (x : Binary64) (k : ℤ) :
    ∃ floor : Nat, x.neighbours k = (⟨floor, k⟩, ⟨floor + 1, k⟩) ∧
      (floor : ℚ) * (10 : ℚ) ^ k ≤ x.magnitude ∧
      x.magnitude < ((floor : ℚ) + 1) * (10 : ℚ) ^ k := by
  obtain ⟨hp, hq⟩ := Decimal.power_pos k
  have hd := x.fraction_pos
  have hq' : (0 : ℚ) < ((Decimal.power k).2 : ℚ) := by exact_mod_cast hq
  have hd' : (0 : ℚ) < (x.fraction.2 : ℚ) := by exact_mod_cast hd
  have hgrid : 0 < x.fraction.2 * (Decimal.power k).1 := Nat.mul_pos hd hp
  have hle := Nat.div_mul_le_self (x.fraction.1 * (Decimal.power k).2)
    (x.fraction.2 * (Decimal.power k).1)
  have hlt := Nat.lt_div_mul_add (a := x.fraction.1 * (Decimal.power k).2) hgrid
  refine ⟨x.fraction.1 * (Decimal.power k).2 / (x.fraction.2 * (Decimal.power k).1), rfl, ?_⟩
  generalize x.fraction.1 * (Decimal.power k).2 / (x.fraction.2 * (Decimal.power k).1) = floor
    at hle hlt
  rw [← quotient_fraction, ← Decimal.quotient_power, quotient, quotient, ← mul_div_assoc,
    ← mul_div_assoc]
  constructor
  · rw [div_le_div_iff₀ hq' hd']
    have hcast : (floor : ℚ) * (x.fraction.2 * (Decimal.power k).1) ≤
        x.fraction.1 * (Decimal.power k).2 := by exact_mod_cast hle
    linarith
  · rw [div_lt_div_iff₀ hd' hq']
    have hcast : (x.fraction.1 : ℚ) * (Decimal.power k).2 <
        floor * (x.fraction.2 * (Decimal.power k).1) + x.fraction.2 * (Decimal.power k).1 := by
      exact_mod_cast hlt
    linarith

/-- What the search may end with. -/
structure Found (x : Binary64) (top : ℤ) (d : Decimal) : Prop where
  exponent : top - 17 ≤ d.exponent
  digits : d.digits ≤ Nat.pow 10 18
  size : x.holds d = true ∨ (d.exponent = top - 17 ∧ d.value ≤ x.magnitude ∧
    x.magnitude < ((d.digits : ℚ) + 1) * (10 : ℚ) ^ d.exponent)

theorem nearer_eq (x : Binary64) (low high : Decimal) :
    x.nearer low high = low ∨ x.nearer low high = high := by
  unfold nearer
  dsimp only
  split
  · exact Or.inl rfl
  · split
    · exact Or.inr rfl
    · split
      · exact Or.inl rfl
      · exact Or.inr rfl

/-- On a grid with so many digits the neighbours have no more than those. -/
theorem neighbours_digits {digits floor : Nat} (htop : x.magnitude < (10 : ℚ) ^ (top + 1))
    (h : (floor : ℚ) * (10 : ℚ) ^ (top - digits + 1) ≤ x.magnitude) :
    floor < Nat.pow 10 digits := by
  have hsplit : (10 : ℚ) ^ (top + 1) = (10 : ℚ) ^ (digits : ℤ) * (10 : ℚ) ^ (top - digits + 1) := by
    rw [← zpow_add₀ (by norm_num)]
    congr 1
    omega
  have hlt := lt_of_le_of_lt h htop
  rw [hsplit] at hlt
  have hcast := lt_of_mul_lt_mul_right hlt (by positivity)
  have hpow : (10 : ℚ) ^ (digits : ℤ) = ((Nat.pow 10 digits : Nat) : ℚ) := by
    rw [cast_pow, Nat.cast_ofNat]
  rw [hpow] at hcast
  exact_mod_cast hcast

/-- The search goes on to eighteen digits at the most. -/
theorem found_shortestFrom (htop : x.magnitude < (10 : ℚ) ^ (top + 1)) (fuel digits : Nat)
    (h : digits + fuel = 18) : x.Found top (x.shortestFrom top fuel digits) := by
  induction fuel generalizing digits with
  | zero =>
      obtain ⟨floor, hneighbours, hle, hlt⟩ := x.neighbours_spec (top - digits + 1)
      have hdigits := neighbours_digits htop hle
      obtain rfl : digits = 18 := by omega
      unfold shortestFrom
      rw [hneighbours]
      exact ⟨by push_cast; omega, Nat.le_of_lt hdigits, Or.inr ⟨by push_cast; omega, hle, hlt⟩⟩
  | succ fuel ih =>
      obtain ⟨floor, hneighbours, hle, -⟩ := x.neighbours_spec (top - digits + 1)
      have hdigits : floor + 1 ≤ Nat.pow 10 18 :=
        Nat.le_trans (neighbours_digits htop hle) (Nat.pow_le_pow_right (by decide) (by omega))
      have hexponent : top - 17 ≤ top - digits + 1 := by omega
      have hlow (hh : x.holds ⟨floor, top - digits + 1⟩ = true) :
          x.Found top ⟨floor, top - digits + 1⟩ := ⟨hexponent, Nat.le_of_lt hdigits, Or.inl hh⟩
      have hhigh (hh : x.holds ⟨floor + 1, top - digits + 1⟩ = true) :
          x.Found top ⟨floor + 1, top - digits + 1⟩ := ⟨hexponent, hdigits, Or.inl hh⟩
      unfold shortestFrom
      rw [hneighbours]
      dsimp only
      cases hl : x.holds ⟨floor, top - digits + 1⟩ with
      | true =>
          cases hh : x.holds ⟨floor + 1, top - digits + 1⟩ with
          | true =>
              obtain e | e :=
                x.nearer_eq ⟨floor, top - digits + 1⟩ ⟨floor + 1, top - digits + 1⟩ <;> rw [e]
              · exact hlow hl
              · exact hhigh hh
          | false => exact hlow hl
      | false =>
          cases hh : x.holds ⟨floor + 1, top - digits + 1⟩ with
          | true => exact hhigh hh
          | false => exact ih (digits + 1) (by omega)

/-! ### The first guess -/

/-- The power of ten that the search begins with, for a value below two to the power `length`. -/
def firstGuess (length : ℤ) : ℤ := length * 30103 / 100000 + 1

theorem magnitude_power (e : ℤ) : (⟨false, 1, e⟩ : Binary64).magnitude = (2 : ℚ) ^ e := by
  rw [magnitude, Nat.cast_one, one_mul]

/-- The guess is not too small, and by far less too large than there are digits. -/
theorem firstGuess_table : ∀ i < 2099,
    Decimal.less (Decimal.power (firstGuess ((i : Nat) - 1074 : ℤ) + 1))
        (fraction ⟨false, 1, (i : Nat) - 1074⟩) = false ∧
      Decimal.less (fraction ⟨false, 1, (i : Nat) - 1074 - 1⟩)
        (Decimal.power (firstGuess ((i : Nat) - 1074 : ℤ) - 17)) = false := by
  decide +kernel

theorem firstGuess_spec {length : ℤ} (hlow : -1074 ≤ length) (hhigh : length ≤ 1024) :
    (2 : ℚ) ^ length ≤ (10 : ℚ) ^ (firstGuess length + 1) ∧
      (10 : ℚ) ^ (firstGuess length - 17) ≤ (2 : ℚ) ^ (length - 1) := by
  obtain ⟨hup, hdown⟩ := firstGuess_table (length + 1074).toNat (by omega)
  have hlength : (((length + 1074).toNat : Nat) : ℤ) - 1074 = length := by omega
  rw [hlength] at hup hdown
  rw [Decimal.not_less_iff (Decimal.power_pos _).2 (fraction_pos _), quotient_fraction,
    Decimal.quotient_power, magnitude_power] at hup
  rw [Decimal.not_less_iff (fraction_pos _) (Decimal.power_pos _).2, quotient_fraction,
    Decimal.quotient_power, magnitude_power] at hdown
  exact ⟨hup, hdown⟩

/-- A value lies between the powers of two that its length tells. -/
theorem magnitude_bounds (hm : x.mantissa ≠ 0) :
    (2 : ℚ) ^ ((x.mantissa.log2 : ℤ) + x.exponent + 1 - 1) ≤ x.magnitude ∧
      x.magnitude < (2 : ℚ) ^ ((x.mantissa.log2 : ℤ) + x.exponent + 1) := by
  obtain ⟨hle, hlt⟩ := log2_bounds hm
  constructor
  · rw [add_sub_cancel_right, zpow_add₀ (by norm_num)]
    exact mul_le_mul_of_nonneg_right hle (by positivity)
  · rw [add_right_comm, zpow_add₀ (by norm_num)]
    exact mul_lt_mul_of_pos_right hlt (by positivity)

/-- The size of the shortest decimal of a double that is not zero. -/
theorem shortest_spec (hx : x.InRange) (hm : x.mantissa ≠ 0) :
    x.shortest.digits ≠ 0 ∧ x.shortest.digits ≤ Nat.pow 10 18 ∧ -400 ≤ x.shortest.exponent ∧
      x.shortest.value ≤ x.upperEnd := by
  have hlog : x.mantissa.log2 < 53 := (Nat.log2_lt hm).mpr hx.mantissa
  have hlow : (-1074 : ℤ) ≤ x.exponent := hx.low
  have hhigh : x.exponent ≤ (971 : ℤ) := hx.high
  obtain ⟨hge, hlt⟩ := magnitude_bounds hm
  obtain ⟨length, hlength⟩ : ∃ length : ℤ, length = (x.mantissa.log2 : ℤ) + x.exponent + 1 :=
    ⟨_, rfl⟩
  rw [← hlength] at hge hlt
  obtain ⟨hup, hdown⟩ := firstGuess_spec (by omega : -1074 ≤ length) (by omega)
  obtain ⟨htop, hnear, hfar⟩ := decimalExponent_spec 4 (lt_of_lt_of_le hlt hup)
  have hshortest : x.shortest = Decimal.stripped 20
      (x.shortestFrom (x.decimalExponent 4 (firstGuess length)) 17 1) := by
    rw [shortest, if_neg (by simpa [isZero] using hm), hlength]
    rfl
  have hfound := found_shortestFrom htop 17 1 rfl
  rw [hshortest]
  generalize x.decimalExponent 4 (firstGuess length) = top at htop hnear hfar hfound
  generalize x.shortestFrom top 17 1 = d at hfound
  obtain ⟨hvalue, hdigits, hne, hexponent⟩ := Decimal.stripped_spec 20 d
  have hguess : -330 ≤ firstGuess length := by
    unfold firstGuess
    omega
  obtain ⟨hd, hend⟩ : d.digits ≠ 0 ∧ d.value ≤ x.upperEnd := by
    rcases hfound.size with hholds | ⟨hgrid, hle, hgt⟩
    · exact holds_spec hm hholds
    · refine ⟨fun hzero => ?_, le_trans hle ?_⟩
      · rw [hzero, hgrid, Nat.cast_zero, zero_add, one_mul] at hgt
        have hpow : (10 : ℚ) ^ (top - 17) ≤ (10 : ℚ) ^ (firstGuess length - 17) :=
          zpow_le_zpow_right₀ (by norm_num) (by omega)
        exact absurd hgt (not_lt.mpr (le_trans hpow (le_trans hdown hge)))
      · exact mul_le_mul_of_nonneg_right (by norm_num) (by positivity)
  have hfoundexp := hfound.exponent
  exact ⟨hne hd, Nat.le_trans hdigits hfound.digits, by omega, hvalue ▸ hend⟩

end Binary64

end FeedPoller
