/-
Numbers that are read twice.

The reader takes a number for a whole number that fits 64 bits or for a double that there is, and
both are printed as numbers that have a value again.  For a double this is no matter of course:
its value is found in two roundings, so a double near the largest could be printed as a number
that is rounded to none.  A table settles it.  For each power of ten the largest significand that
can be printed before it is still rounded to a double, and a smaller one is not rounded to more.
The largest double alone is not covered by the table, and is looked at by itself.

A double that is read back need not be the one that was printed.
-/
import FeedPoller.Proofs.Decimal.Shortest
import FeedPoller.Proofs.Json.Spelling

namespace FeedPoller

namespace Binary64

/-! ### Powers of ten -/

/-- The ceiling as a whole number. -/
def ceilingWhole : Nat := (Nat.pow 2 54 - 1) * Nat.pow 2 970

theorem cast_mul_pow {n m k : Nat} (h : n = m * Nat.pow 2 k) : (n : ℚ) = m * (2 : ℚ) ^ (k : ℤ) := by
  rw [h, Nat.cast_mul, cast_pow, Nat.cast_ofNat]

theorem cast_ceilingWhole : (ceilingWhole : ℚ) = ceiling := by
  have hbits : ((Nat.pow 2 54 - 1 : Nat) : ℚ) = (2 : ℚ) ^ (54 : ℤ) - 1 := by norm_num
  rw [cast_mul_pow ceilingWhole.eq_1, hbits, ceiling, Nat.cast_ofNat]

theorem ofNat_isSome {n : Nat} (h : n < ceilingWhole) : (ofNat n).isSome := by
  refine ofFraction_isSome Nat.one_pos ?_
  rw [quotient, Nat.cast_one, div_one, ← cast_ceilingWhole]
  exact_mod_cast h

theorem inRange_ofNat {n : Nat} {x : Binary64} (h : ofNat n = some x) : x.InRange :=
  inRange_ofFraction Nat.one_pos h

/-- The largest number that a double but the largest is the nearest one to. -/
def upperWhole : Nat := (Nat.pow 2 54 - 3) * Nat.pow 2 970

theorem cast_upperWhole : (upperWhole : ℚ) = ((2 : ℚ) ^ (54 : ℤ) - 3) * (2 : ℚ) ^ (970 : ℤ) := by
  have hbits : ((Nat.pow 2 54 - 3 : Nat) : ℚ) = (2 : ℚ) ^ (54 : ℤ) - 3 := by norm_num
  rw [cast_mul_pow upperWhole.eq_1, hbits, Nat.cast_ofNat]

/-- The largest significand that is printed before a power of ten. -/
def largestSignificand (k : Nat) : Nat := min (upperWhole / Nat.pow 10 k) (Nat.pow 10 18)

theorem powers_table : ∀ k ≤ 308, Nat.pow 10 k < ceilingWhole ∧
    wholeRounded (largestSignificand k) * wholeRounded (Nat.pow 10 k) < ceilingWhole := by
  decide +kernel

theorem exists_powerOfTen {k : Nat} (h : k ≤ 308) : ∃ p, Json.Number.powerOfTen k = some p ∧
    p.magnitude = (wholeRounded (Nat.pow 10 k) : ℚ) ∧ 1 ≤ p.magnitude := by
  obtain ⟨p, hp⟩ := Option.isSome_iff_exists.mp (ofNat_isSome (powers_table k h).1)
  have hmagnitude := magnitude_ofNat hp
  refine ⟨p, hp, hmagnitude, ?_⟩
  have hone : wholeRounded 1 ≤ wholeRounded (Nat.pow 10 k) :=
    wholeRounded_mono (Nat.pow_pos (by decide))
  rw [hmagnitude]
  exact_mod_cast hone

/-! ### What is printed for a double -/

variable {x : Binary64}

/-- The largest double, of either sign. -/
def IsLargest (x : Binary64) : Prop := x.mantissa = Nat.pow 2 53 - 1 ∧ x.exponent = highestExponent

theorem upperEnd_le (hx : x.InRange) (hne : ¬ x.IsLargest) : x.upperEnd ≤ upperWhole := by
  have hmantissa : x.mantissa + 1 ≤ 2 ^ 53 := hx.mantissa
  have hhigh : x.exponent ≤ 971 := hx.high
  rw [cast_upperWhole, upperEnd]
  by_cases htop : x.exponent = 971
  · have hbelow : x.mantissa + 2 ≤ 2 ^ 53 := by
      have hlargest : x.mantissa ≠ 2 ^ 53 - 1 := fun h => hne ⟨h, htop⟩
      omega
    have hcast : (x.mantissa : ℚ) + 2 ≤ 2 ^ 53 := by exact_mod_cast hbelow
    have hsplit : (2 : ℚ) ^ (971 : ℤ) = 2 * (2 : ℚ) ^ (970 : ℤ) := by
      rw [← zpow_one_add₀ (by norm_num)]
      norm_num
    rw [htop, hsplit, ← mul_assoc]
    refine mul_le_mul_of_nonneg_right ?_ (by positivity)
    norm_num at hcast ⊢
    linarith
  · have hcast : (x.mantissa : ℚ) + 1 ≤ 2 ^ 53 := by exact_mod_cast hmantissa
    have hpow : (2 : ℚ) ^ x.exponent ≤ (2 : ℚ) ^ (970 : ℤ) :=
      zpow_le_zpow_right₀ (by norm_num) (by omega)
    refine mul_le_mul ?_ hpow (by positivity) (by norm_num)
    norm_num at hcast ⊢
    linarith

theorem ten_pow_mono {j k : Nat} (h : j ≤ k) : Nat.pow 10 j ≤ Nat.pow 10 k :=
  Nat.pow_le_pow_right (by decide) h

/-- The decimal of a double can be read back, unless the double is the largest. -/
theorem shortest_bounds (hx : x.InRange) (hne : ¬ x.IsLargest) :
    (x.shortest.digits ≠ 0 ∨ x.shortest.exponent = 0) ∧ x.shortest.digits ≤ Nat.pow 10 18 ∧
      x.shortest.exponent.natAbs ≤ 400 ∧ (0 ≤ x.shortest.exponent → x.shortest.exponent ≤ 308 ∧
        x.shortest.digits ≤ largestSignificand x.shortest.exponent.toNat) := by
  by_cases hm : x.mantissa = 0
  · have hzero : x.shortest = ⟨0, 0⟩ := if_pos (by simpa [isZero] using hm)
    rw [hzero]
    exact ⟨Or.inr rfl, Nat.zero_le _, by decide, fun _ => ⟨by decide, Nat.zero_le _⟩⟩
  · obtain ⟨hdigits, hle, hlow, hvalue⟩ := shortest_spec hx hm
    have hnonneg : 0 ≤ x.shortest.exponent → x.shortest.exponent ≤ 308 ∧
        x.shortest.digits ≤ largestSignificand x.shortest.exponent.toNat := by
      intro hpos
      have hmul : x.shortest.digits * Nat.pow 10 x.shortest.exponent.toNat ≤ upperWhole := by
        have hend := le_trans hvalue (upperEnd_le hx hne)
        rw [Decimal.value, ← Nat.cast_ofNat, ← cast_pow_toNat hpos] at hend
        exact_mod_cast hend
      refine ⟨?_, le_min ((Nat.le_div_iff_mul_le (Nat.pow_pos (by decide))).mpr hmul) hle⟩
      by_contra hbig
      obtain ⟨k, hk, htable⟩ : ∃ k ≤ 309, upperWhole < Nat.pow 10 k := ⟨309, by decide +kernel⟩
      have hpow := ten_pow_mono (by omega : k ≤ x.shortest.exponent.toNat)
      have hone : Nat.pow 10 x.shortest.exponent.toNat ≤
          x.shortest.digits * Nat.pow 10 x.shortest.exponent.toNat :=
        Nat.le_mul_of_pos_left _ (Nat.pos_of_ne_zero hdigits)
      exact absurd (Nat.lt_of_lt_of_le htable (Nat.le_trans hpow (Nat.le_trans hone hmul)))
        (Nat.lt_irrefl _)
    refine ⟨Or.inl hdigits, hle, ?_, hnonneg⟩
    by_cases hpos : 0 ≤ x.shortest.exponent
    · have h308 := (hnonneg hpos).1
      omega
    · omega

end Binary64

namespace Json.Number

open Binary64 (InRange wholeRounded)

variable {x y : Binary64} {k : Int} {negative : Bool} {significand : Nat}

/-! ### Scaling -/

theorem scale_near (x : Binary64) (fuel : Nat) (h : k.natAbs ≤ 308) : ∃ p, 1 ≤ p.magnitude ∧
    p.magnitude = (wholeRounded (Nat.pow 10 k.natAbs) : ℚ) ∧
    scale x k (fuel + 1) = if 0 ≤ k then x.mul p else x.div p := by
  obtain ⟨p, hp, hmagnitude, hone⟩ := Binary64.exists_powerOfTen h
  refine ⟨p, hone, hmagnitude, ?_⟩
  rw [scale, if_pos h, hp]
  rfl

/-- Division by powers of ten always has a result. -/
theorem scale_negative (fuel : Nat) (hx : x.InRange) (hk : k < 0) : (scale x k fuel).isSome := by
  induction fuel generalizing x k with
  | zero => rfl
  | succ fuel ih =>
      by_cases hnear : k.natAbs ≤ 308
      · obtain ⟨p, hone, -, heq⟩ := scale_near x fuel hnear
        rw [heq, if_neg (by omega)]
        exact Binary64.div_isSome hx hone
      · obtain ⟨p, hp, -, hone⟩ := Binary64.exists_powerOfTen (Nat.le_refl 308)
        obtain ⟨y, hy⟩ := Option.isSome_iff_exists.mp (Binary64.div_isSome hx hone)
        rw [scale, if_neg hnear]
        split
        · rfl
        · rw [if_neg (by omega), hp]
          simp only [Option.bind_eq_bind, Option.bind_some, hy]
          exact ih (Binary64.inRange_div hone hy) (by omega)

theorem inRange_scale (fuel : Nat) (hx : x.InRange) (h : scale x k fuel = some y) : y.InRange := by
  induction fuel generalizing x k with
  | zero => exact Option.some.inj h ▸ Binary64.inRange_zero false
  | succ fuel ih =>
      by_cases hnear : k.natAbs ≤ 308
      · obtain ⟨p, hone, -, heq⟩ := scale_near x fuel hnear
        rw [heq] at h
        split at h
        · exact Binary64.inRange_mul h
        · exact Binary64.inRange_div hone h
      · obtain ⟨p, hp, -, hone⟩ := Binary64.exists_powerOfTen (Nat.le_refl 308)
        rw [scale, if_neg hnear] at h
        split at h
        · exact Option.some.inj h ▸ hx
        · split at h
          · exact absurd h (by simp)
          · rw [hp] at h
            simp only [Option.bind_eq_bind, Option.bind_some] at h
            obtain ⟨z, hz, h⟩ := Option.bind_eq_some_iff.mp h
            exact ih (Binary64.inRange_div hone hz) h

/-! ### Significands and powers -/

theorem ofParts_isSome (hsignificand : significand ≤ largest64)
    (hk : k < 0 ∨ (0 ≤ k ∧ k ≤ 308 ∧ significand ≤ Binary64.largestSignificand k.toNat)) :
    (ofParts negative significand k).isSome := by
  have hlargest : largest64 < Binary64.ceilingWhole := by decide +kernel
  obtain ⟨x, hx⟩ := Option.isSome_iff_exists.mp
    (Binary64.ofNat_isSome (Nat.lt_of_le_of_lt hsignificand hlargest))
  have hscale : (scale x k 4).isSome := by
    rcases hk with hneg | ⟨hpos, hle, hlargest⟩
    · exact scale_negative 4 (Binary64.inRange_ofNat hx) hneg
    · obtain ⟨p, -, hp, heq⟩ := scale_near x 3 (k := k) (by omega)
      rw [heq, if_pos hpos]
      refine Binary64.mul_isSome ?_
      have htable := (Binary64.powers_table k.toNat (by omega)).2
      have hround := Nat.mul_le_mul_right (wholeRounded (Nat.pow 10 k.toNat))
        (Binary64.wholeRounded_mono hlargest)
      have habs : k.natAbs = k.toNat := by omega
      rw [Binary64.magnitude_ofNat hx, hp, habs, ← Binary64.cast_ceilingWhole]
      exact_mod_cast Nat.lt_of_le_of_lt hround htable
  obtain ⟨y, hy⟩ := Option.isSome_iff_exists.mp hscale
  unfold ofParts
  simp [hx, hy]

theorem inRange_ofParts {n : Number} (h : ofParts negative significand k = some n) :
    ∃ x, n = .float x ∧ x.InRange := by
  unfold ofParts at h
  rw [Option.bind_eq_bind] at h
  obtain ⟨y, hy, h⟩ := Option.bind_eq_some_iff.mp h
  obtain ⟨z, hz, h⟩ := Option.bind_eq_some_iff.mp h
  have hrange := inRange_scale 4 (Binary64.inRange_ofNat hy) hz
  exact ⟨_, (Option.some.inj h).symm, hrange.mantissa, hrange.low, hrange.high⟩

/-! ### What is read -/

theorem le_foldl_digits (n : Nat) (ds : List Nat) : n ≤ ds.foldl (fun n d => n * 10 + d) n := by
  induction ds generalizing n with
  | nil => exact Nat.le_refl n
  | cons d ds ih => exact Nat.le_trans (by omega) (ih (n * 10 + d))

/-- Digits are taken as long as 64 bits hold what they come to. -/
theorem takeDigits_all {n : Nat} {ds : List Nat}
    (h : ds.foldl (fun n d => n * 10 + d) n ≤ largest64) :
    takeDigits n ds = (ds.foldl (fun n d => n * 10 + d) n, []) := by
  induction ds generalizing n with
  | nil => rfl
  | cons d ds ih =>
      rw [List.foldl_cons] at h
      rw [takeDigits, if_pos (Nat.le_trans (le_foldl_digits _ ds) h), ih h, List.foldl_cons]

theorem ofDigits_chars (cs : List Char) (n : Nat) :
    (cs.map Grammar.digitValue).foldl (fun n d => n * 10 + d) n = Nat.ofDigitChars 10 cs n := by
  rw [List.foldl_map]
  exact Text.foldl_digits cs n

theorem takeDigits_chars {cs : List Char} {n : Nat} (h : Nat.ofDigitChars 10 cs n ≤ largest64) :
    takeDigits n (cs.map Grammar.digitValue) = (Nat.ofDigitChars 10 cs n, []) := by
  rw [← ofDigits_chars] at h ⊢
  exact takeDigits_all h

theorem significand_eq (s : Spelling) : s.significand =
    Nat.ofDigitChars 10 (s.fraction.getD []) (Nat.ofDigitChars 10 s.whole 0) :=
  Nat.ofDigitChars_append 0

theorem takeDigits_whole {s : Spelling} (h : s.significand ≤ largest64) :
    takeDigits 0 (s.whole.map Grammar.digitValue) = (Nat.ofDigitChars 10 s.whole 0, []) := by
  refine takeDigits_chars (Nat.le_trans ?_ (significand_eq s ▸ h))
  rw [← ofDigits_chars (s.fraction.getD [])]
  exact le_foldl_digits _ _

theorem takeDigits_fraction {s : Spelling} {cs : List Char} (h : s.significand ≤ largest64)
    (hfraction : s.fraction = some cs) :
    takeDigits (Nat.ofDigitChars 10 s.whole 0) (cs.map Grammar.digitValue) =
      (s.significand, []) := by
  rw [significand_eq, hfraction, Option.getD_some] at h ⊢
  exact takeDigits_chars h

/-- All the digits of a spelling go into its significand, and only its exponent is looked at. -/
theorem ofLongLiteral_significand {s : Spelling} (hsignificand : s.significand ≤ largest64) :
    ofLongLiteral (s.literal negative) =
      match (s.literal negative).exponent with
      | none => ofParts negative s.significand (-((s.fraction.getD []).length : Int))
      | some (below, ds) =>
        if exponentLimit < ofDigits ds then
          if s.significand ≠ 0 ∧ !below then none else some (.float (.zero negative))
        else ofParts negative s.significand
          (if below then -((s.fraction.getD []).length : Int) - ofDigits ds
            else -((s.fraction.getD []).length : Int) + ofDigits ds) := by
  unfold ofLongLiteral Spelling.literal
  dsimp only
  rw [takeDigits_whole hsignificand]
  cases hfraction : s.fraction with
  | none =>
      have hwhole : s.significand = Nat.ofDigitChars 10 s.whole 0 := by
        rw [significand_eq, hfraction]
        rfl
      rw [hwhole]
      rfl
  | some cs =>
      cases s.exponent with
      | none => simp [takeDigits_fraction hsignificand hfraction]
      | some p => simp [takeDigits_fraction hsignificand hfraction]

/-- A spelling of a number is worth its significand at its power. -/
theorem ofLongLiteral_literal {s : Spelling} (hsignificand : s.significand ≤ largest64)
    (hexponent : ∀ below cs, s.exponent = some (below, cs) →
      Nat.ofDigitChars 10 cs 0 ≤ exponentLimit) :
    ofLongLiteral (s.literal negative) = ofParts negative s.significand s.power := by
  rw [ofLongLiteral_significand hsignificand]
  unfold Spelling.power Spelling.shift Spelling.literal
  cases he : s.exponent with
  | none => simp
  | some p =>
      obtain ⟨below, cs⟩ := p
      have hvalue : ofDigits (cs.map Grammar.digitValue) = Nat.ofDigitChars 10 cs 0 :=
        ofDigits_chars cs 0
      dsimp only [Option.map_some]
      rw [hvalue, if_neg (Nat.not_lt.mpr (hexponent below cs he))]
      cases below with
      | true =>
          congr 1
          simp only [if_true]
          omega
      | false =>
          congr 1
          simp only [Bool.false_eq_true, if_false]
          omega

/-! ### Numbers that there are -/

/-- A whole number that fits 64 bits, or a double that there is. -/
def Held : Number → Prop
  | .integer n => -(Nat.pow 2 63 : Int) ≤ n ∧ n ≤ largest64
  | .float x => x.InRange

/-- The digits that are taken come to no more than 64 bits hold. -/
theorem ofDigits_le_of_takeDigits {n : Nat} {ds : List Nat} (hn : n ≤ largest64)
    (h : (takeDigits n ds).2 = []) : ds.foldl (fun n d => n * 10 + d) n ≤ largest64 := by
  induction ds generalizing n with
  | nil => exact hn
  | cons d ds ih =>
      rw [takeDigits] at h
      split at h
      · next hle => exact ih hle h
      · exact absurd h (by simp)

theorem held_ofParts {n : Number} {e : Int} (h : ofParts negative significand e = some n) :
    n.Held := by
  obtain ⟨x, rfl, hx⟩ := inRange_ofParts h
  exact hx

theorem held_ofLongLiteral {l : Literal} {n : Number} (h : ofLongLiteral l = some n) : n.Held := by
  unfold ofLongLiteral at h
  cases hexponent : l.exponent with
  | none =>
      rw [hexponent] at h
      exact held_ofParts h
  | some p =>
      rw [hexponent] at h
      dsimp only at h
      by_cases hlimit : exponentLimit < ofDigits p.2
      · rw [if_pos hlimit, Option.ite_none_left_eq_some] at h
        exact Option.some.inj h.2 ▸ Binary64.inRange_zero _
      · rw [if_neg hlimit] at h
        exact held_ofParts h

/-- Every number that is read is one that there is. -/
theorem held_ofLiteral {l : Literal} {n : Number} (h : ofLiteral l = some n) : n.Held := by
  unfold ofLiteral at h
  split at h
  · next hshort =>
      have hleft : (takeDigits 0 l.whole).2 = [] := by
        simp only [Bool.and_eq_true, List.isEmpty_iff] at hshort
        exact hshort.2
      have hle : ofDigits l.whole ≤ largest64 := ofDigits_le_of_takeDigits (Nat.zero_le _) hleft
      dsimp only at h
      generalize ofDigits l.whole = m at h hle
      split at h
      · obtain rfl := Option.some.inj h
        exact ⟨by omega, by exact_mod_cast hle⟩
      · split at h
        · next hbounds =>
            obtain rfl := Option.some.inj h
            have hlow : (m : Int) ≤ (Nat.pow 2 63 : Nat) := by exact_mod_cast hbounds.2
            exact ⟨by omega, by omega⟩
        · exact held_ofParts h
  · exact held_ofLongLiteral h

theorem ofLiteral_wholeLiteral {n : Int} (h : (Number.integer n).Held) :
    ofLiteral (wholeLiteral n) = some (.integer n) := by
  obtain ⟨hlow, hhigh⟩ := h
  have hlargest : Nat.pow 2 63 ≤ largest64 := by decide
  have hvalue : ofDigits (wholeLiteral n).whole = n.natAbs := ofDigits_toDigits _
  have hall : (takeDigits 0 (wholeLiteral n).whole).2 = [] := by
    have hle : n.natAbs ≤ largest64 := by omega
    rw [takeDigits_all (by rwa [← hvalue] at hle)]
  unfold ofLiteral
  rw [if_pos (by rw [hall]; rfl), hvalue]
  dsimp only
  by_cases hneg : n < 0
  · rw [if_neg (by simpa [wholeLiteral] using hneg), if_pos (by omega)]
    congr 2
    omega
  · rw [if_pos (by simpa [wholeLiteral] using hneg)]
    congr 2
    omega

/-- What is printed for a double is the number whose parts are printed. -/
theorem number_float {s : Spelling} (hs : s.Writes x.shortest) :
    Grammar.number (Number.float x).chars = some (s.literal x.negative, []) := by
  have hchars : (Number.float x).chars = (if x.negative then ['-'] else []) ++ s.chars := by
    rw [← hs.chars]
    rfl
  rw [hchars]
  cases x.negative with
  | true => exact hs.wellFormed.unsignedNumber true
  | false =>
      have hhead : s.chars.head? ≠ some '-' := by
        obtain ⟨c, rest, hwhole⟩ := List.exists_cons_of_ne_nil hs.wellFormed.whole.1
        have hdigit : c.isDigit = true := hs.wellFormed.whole.2 c (by simp [hwhole])
        intro hc
        obtain rfl : c = '-' := by simpa [Spelling.chars, hwhole] using hc
        exact absurd hdigit (by decide)
      show Grammar.number s.chars = _
      rw [Grammar.number_of_ne hhead]
      exact hs.wellFormed.unsignedNumber false

/-- The largest double, of either sign, is read back as it is. -/
theorem lossless_largest : ∀ negative,
    (Number.float ⟨negative, Nat.pow 2 53 - 1, Binary64.highestExponent⟩).Lossless := by
  decide +kernel

theorem ofLiteral_float {s : Spelling} (hx : x.InRange) (hne : ¬ x.IsLargest)
    (hs : s.Writes x.shortest) : (ofLiteral (s.literal negative)).isSome := by
  obtain ⟨-, hdigits, hexponent, hlargest⟩ := Binary64.shortest_bounds hx hne
  have hsignificand : s.significand ≤ largest64 := by
    have h18 : Nat.pow 10 18 ≤ largest64 := by decide
    have h17 : Nat.pow 10 17 ≤ largest64 := by decide
    rcases hs.size with ⟨heq, -⟩ | ⟨hlt, -⟩
    · exact heq ▸ Nat.le_trans hdigits h18
    · exact Nat.le_trans (Nat.le_of_lt hlt) h17
  have hexponents : ∀ below cs, s.exponent = some (below, cs) →
      Nat.ofDigitChars 10 cs 0 ≤ exponentLimit := by
    intro below cs he
    have hlimit : 19 + 400 ≤ exponentLimit := by decide
    have hlength : (toString x.shortest.digits).toList.length ≤ 19 := by
      rw [Text.toList_toString]
      refine (Nat.length_toDigits_le_iff (by decide) (by decide)).mpr ?_
      exact Nat.lt_of_le_of_lt hdigits (by decide)
    have hle := hs.exponent below cs he
    omega
  have hshort : ((s.literal negative).fraction.isNone && (s.literal negative).exponent.isNone &&
      (takeDigits 0 (s.literal negative).whole).2.isEmpty) = false := by
    rcases hs.long with hlong | hlong
    · obtain ⟨cs, hcs⟩ := Option.isSome_iff_exists.mp hlong
      simp [Spelling.literal, hcs]
    · obtain ⟨p, hp⟩ := Option.isSome_iff_exists.mp hlong
      simp [Spelling.literal, hp]
  unfold ofLiteral
  rw [if_neg (by rw [hshort]; decide), ofLongLiteral_literal hsignificand hexponents]
  refine ofParts_isSome hsignificand ?_
  rcases hs.size with ⟨hvalue, hpower⟩ | ⟨-, hpower⟩
  · rw [hvalue, hpower]
    by_cases hneg : x.shortest.exponent < 0
    · exact Or.inl hneg
    · have hpos : 0 ≤ x.shortest.exponent := by omega
      exact Or.inr ⟨hpos, hlargest hpos⟩
  · exact Or.inl (by rw [hpower]; decide)

/-- A number that there is is printed as a number, and that has a value. -/
theorem Held.readable {n : Number} (h : n.Held) : n.Spelled ∧ (ofLiteral n.literal).isSome := by
  cases n with
  | integer n =>
      refine ⟨spelled_integer n, ?_⟩
      rw [literal_integer, ofLiteral_wholeLiteral h]
      rfl
  | float x =>
      by_cases hlargest : x.IsLargest
      · have hlossless := lossless_largest x.negative
        rw [← hlargest.1, ← hlargest.2] at hlossless
        exact ⟨hlossless.1, by rw [hlossless.2]; rfl⟩
      · obtain ⟨s, hs⟩ := exists_writes (Binary64.shortest_bounds h hlargest).1
        obtain ⟨hliteral, hspelled⟩ := spelled_of_number (number_float hs)
        exact ⟨hspelled, hliteral ▸ ofLiteral_float h hlargest hs⟩

end Json.Number

end FeedPoller
