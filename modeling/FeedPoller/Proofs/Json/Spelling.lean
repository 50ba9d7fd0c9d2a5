/-
Doubles in a text.

A double is printed in one of four layouts, after the size of its decimal.  All of them are
made of the same parts: a row of digits, another one behind a point, and an exponent.  The reader
takes the parts as they are, so what is printed for a double is always a number.

What the number is worth is in its digits, taken in one row, and in one power of ten.  In three of
the layouts these are the digits and the power of the decimal; in the one for whole numbers there
are zeros behind the digits, one of them behind the point.
-/
import FeedPoller.Proofs.Json.Number

namespace FeedPoller.Json

open Text (Undigit undigit_cons)

namespace Grammar

/-! ### Rows of digits -/

variable {cs rest : List Char}

theorem digits_row (hcs : ∀ c ∈ cs, c.isDigit = true) (hrest : Undigit rest) :
    digits (cs ++ rest) = (cs.map digitValue, rest) := by
  unfold digits
  rw [Text.takeWhile_digits hcs hrest, Text.dropWhile_digits hcs hrest]

theorem someDigits_row (hcs : ∀ c ∈ cs, c.isDigit = true) (hne : cs ≠ []) (hrest : Undigit rest) :
    someDigits (cs ++ rest) = some (cs.map digitValue, rest) := by
  unfold someDigits
  rw [digits_row hcs hrest]
  exact if_neg (by simpa using hne)

/-- A row of digits stands before the point if it does not begin with a zero that it could spare. -/
theorem wholeDigits_row (hcs : ∀ c ∈ cs, c.isDigit = true) (hne : cs ≠ []) (hrest : Undigit rest)
    (hplain : cs.length = 1 ∨ cs.head? ≠ some '0') :
    wholeDigits (cs ++ rest) = some (cs.map digitValue, rest) := by
  obtain ⟨c, tail, rfl⟩ := List.exists_cons_of_ne_nil hne
  unfold wholeDigits
  rw [someDigits_row hcs hne hrest]
  refine if_neg ?_
  rintro ⟨hlen, hzero⟩
  rcases hplain with hone | hhead
  · exact hlen (by simpa using hone)
  · have hc : c = '0' := eq_zero_of_digitValue (hcs c (by simp)) (by simpa using hzero)
    exact hhead (by rw [hc]; rfl)

end Grammar

/-- The parts of a number without its sign, as they are written. -/
structure Spelling where
  whole : List Char
  fraction : Option (List Char) := none
  /-- Whether the exponent is negative, and its digits. -/
  exponent : Option (Bool × List Char) := none

namespace Spelling

def fractionChars : Option (List Char) → List Char
  | none => []
  | some cs => '.' :: cs

def exponentChars : Option (Bool × List Char) → List Char
  | none => []
  | some (negative, cs) => 'e' :: (if negative then '-' else '+') :: cs

def chars (s : Spelling) : List Char :=
  s.whole ++ (fractionChars s.fraction ++ exponentChars s.exponent)

/-- The number that is written. -/
def literal (s : Spelling) (negative : Bool) : Literal where
  negative := negative
  whole := s.whole.map Grammar.digitValue
  fraction := s.fraction.map fun cs => cs.map Grammar.digitValue
  exponent := s.exponent.map fun (negative, cs) => (negative, cs.map Grammar.digitValue)

/-- Every part is a row of digits, and the first does not begin with a zero that it could spare. -/
structure WellFormed (s : Spelling) : Prop where
  whole : s.whole ≠ [] ∧ ∀ c ∈ s.whole, c.isDigit = true
  plain : s.whole.length = 1 ∨ s.whole.head? ≠ some '0'
  fraction : ∀ cs, s.fraction = some cs → cs ≠ [] ∧ ∀ c ∈ cs, c.isDigit = true
  exponent : ∀ negative cs, s.exponent = some (negative, cs) → cs ≠ [] ∧ ∀ c ∈ cs, c.isDigit = true

variable {s : Spelling}

theorem undigit_exponentChars (e : Option (Bool × List Char)) : Undigit (exponentChars e) := by
  cases e with
  | none => intro c hc; exact absurd hc (by simp [exponentChars])
  | some p => exact undigit_cons (by decide)

theorem undigit_tail (s : Spelling) :
    Undigit (fractionChars s.fraction ++ exponentChars s.exponent) := by
  cases s.fraction with
  | none => exact undigit_exponentChars _
  | some cs => exact undigit_cons (by decide)

theorem WellFormed.read_exponent (h : s.WellFormed) :
    Grammar.exponent (exponentChars s.exponent) = some ((s.literal false).exponent, []) := by
  unfold literal
  cases he : s.exponent with
  | none => rfl
  | some p =>
      obtain ⟨negative, cs⟩ := p
      obtain ⟨hne, hcs⟩ := h.exponent negative cs he
      have hdigits : Grammar.someDigits cs = some (cs.map Grammar.digitValue, []) := by
        have hnil : Undigit [] := fun c hc => absurd hc (by simp)
        have hrow := Grammar.someDigits_row hcs hne hnil
        rwa [List.append_nil] at hrow
      have hsigned : Grammar.exponentDigits ((if negative then '-' else '+') :: cs) =
          some (negative, cs.map Grammar.digitValue, []) := by
        cases negative with
        | true =>
            show (Grammar.someDigits cs).map _ = _
            rw [hdigits]
            rfl
        | false =>
            show (Grammar.someDigits cs).map _ = _
            rw [hdigits]
            rfl
      show (Grammar.exponentDigits ((if negative then '-' else '+') :: cs)).map _ = _
      rw [hsigned]
      rfl

theorem WellFormed.read_fraction (h : s.WellFormed) :
    Grammar.fraction (fractionChars s.fraction ++ exponentChars s.exponent) =
      some ((s.literal false).fraction, exponentChars s.exponent) := by
  unfold literal
  cases hf : s.fraction with
  | none =>
      refine Grammar.fraction_of_ne ?_
      cases s.exponent with
      | none => simp [fractionChars, exponentChars]
      | some p => simp [fractionChars, exponentChars]
  | some cs =>
      obtain ⟨hne, hcs⟩ := h.fraction cs hf
      show (Grammar.someDigits (cs ++ exponentChars s.exponent)).map _ = _
      rw [Grammar.someDigits_row hcs hne (undigit_exponentChars _)]
      rfl

/-- What is written is read part by part. -/
theorem WellFormed.unsignedNumber (h : s.WellFormed) (negative : Bool) :
    Grammar.unsignedNumber negative s.chars = some (s.literal negative, []) := by
  unfold Grammar.unsignedNumber chars
  rw [Grammar.wholeDigits_row h.whole.2 h.whole.1 s.undigit_tail h.plain]
  simp only [Option.bind_eq_bind, Option.bind_some]
  rw [h.read_fraction]
  simp only [Option.bind_some]
  rw [h.read_exponent]
  rfl

/-! ### What is written is worth -/

/-- All the digits before the exponent, as one number. -/
def significand (s : Spelling) : Nat := Nat.ofDigitChars 10 (s.whole ++ s.fraction.getD []) 0

/-- What the exponent comes to, with its sign. -/
def shift (s : Spelling) : Int :=
  match s.exponent with
  | none => 0
  | some (true, cs) => -(Nat.ofDigitChars 10 cs 0 : Int)
  | some (false, cs) => Nat.ofDigitChars 10 cs 0

/-- The power of ten that the significand is taken times. -/
def power (s : Spelling) : Int := s.shift - (s.fraction.getD []).length

/-- A spelling of a decimal: zeros behind the digits change the significand and the power. -/
structure Writes (s : Spelling) (d : Decimal) : Prop where
  chars : Number.decimalChars d = s.chars
  wellFormed : s.WellFormed
  long : s.fraction.isSome ∨ s.exponent.isSome
  exponent : ∀ negative cs, s.exponent = some (negative, cs) →
    Nat.ofDigitChars 10 cs 0 ≤ (toString d.digits).toList.length + d.exponent.natAbs
  size : (s.significand = d.digits ∧ s.power = d.exponent) ∨
    (s.significand < Nat.pow 10 17 ∧ s.power = -1)

end Spelling

/-! ### The layouts of a decimal -/

section Layouts

variable {d : Decimal}

theorem isDigit_of_mem_zeros {n : Nat} {c : Char} (h : c ∈ Number.zeros n) : c.isDigit = true := by
  rw [List.eq_of_mem_replicate h]
  decide

/-- The digits of a decimal in one of the layouts. -/
structure DigitsOf (d : Decimal) (cs : List Char) : Prop where
  text : (toString d.digits).toList = cs
  ne_nil : cs ≠ []
  isDigit : ∀ c ∈ cs, c.isDigit = true
  value : Nat.ofDigitChars 10 cs 0 = d.digits
  bound : d.digits < Nat.pow 10 cs.length
  head : d.digits ≠ 0 → cs.head? ≠ some '0'

theorem digitsOf (d : Decimal) : DigitsOf d (Nat.toDigits 10 d.digits) where
  text := Text.toList_toString _
  ne_nil := Nat.toDigits_ne_nil
  isDigit := fun _ => Text.isDigit_of_mem_toDigits
  value := Nat.ofDigitChars_toDigits (by decide) (by decide)
  bound := (Nat.length_toDigits_le_iff (by decide) (List.length_pos_iff.mpr
    Nat.toDigits_ne_nil)).mp (Nat.le_refl _)
  head := fun h hzero => h (Text.eq_zero_of_head?_toDigits hzero)

variable {cs : List Char}

/-- A whole number is written with zeros behind its digits, and one more behind the point. -/
theorem writes_whole (h : DigitsOf d cs) (hd : d.digits ≠ 0 ∨ d.exponent = 0)
    (hexponent : 0 ≤ d.exponent) (hpoint : (cs.length : Int) + d.exponent ≤ 16) :
    (Spelling.mk (cs ++ Number.zeros d.exponent.toNat) (some ['0']) none).Writes d where
  chars := by
    unfold Number.decimalChars
    dsimp only
    rw [h.text, if_pos ⟨hexponent, hpoint⟩]
    simp [Spelling.chars, Spelling.fractionChars, Spelling.exponentChars]
  wellFormed := by
    refine ⟨⟨by simp [h.ne_nil], fun c hc => ?_⟩, ?_, fun cs' hcs' => ?_,
      fun _ _ h => absurd h (by simp)⟩
    · rcases List.mem_append.mp hc with hc | hc
      · exact h.isDigit c hc
      · exact isDigit_of_mem_zeros hc
    · by_cases hzero : d.digits = 0
      · have hexp : d.exponent = 0 := hd.resolve_left (not_not.mpr hzero)
        have hone : cs.length = 1 := by
          have htext := h.text
          rw [hzero] at htext
          rw [← htext]
          rfl
        exact Or.inl (by simp [hexp, hone, Number.zeros])
      · refine Or.inr ?_
        obtain ⟨c, rest, rfl⟩ := List.exists_cons_of_ne_nil h.ne_nil
        exact h.head hzero
    · obtain rfl : ['0'] = cs' := Option.some.inj hcs'
      refine ⟨by simp, fun c hc => ?_⟩
      rw [List.mem_singleton.mp hc]
      decide
  long := Or.inl rfl
  exponent := fun _ _ h => absurd h (by simp)
  size := by
    refine Or.inr ⟨?_, by simp [Spelling.power, Spelling.shift]⟩
    have hvalue : Nat.ofDigitChars 10 (cs ++ Number.zeros d.exponent.toNat ++ ['0']) 0 =
        10 * (10 ^ d.exponent.toNat * d.digits) := by
      rw [Nat.ofDigitChars_append, Nat.ofDigitChars_append, h.value, Number.zeros,
        Nat.ofDigitChars_replicate_zero, Nat.ofDigitChars_cons, Nat.ofDigitChars_nil]
      rfl
    have hlt : 10 ^ d.exponent.toNat * d.digits < 10 ^ d.exponent.toNat * 10 ^ cs.length :=
      Nat.mul_lt_mul_of_pos_left h.bound (Nat.pow_pos (by decide))
    have hle : 10 ^ d.exponent.toNat * 10 ^ cs.length ≤ 10 ^ 16 := by
      rw [← Nat.pow_add]
      exact Nat.pow_le_pow_right (by decide) (by omega)
    show Nat.ofDigitChars 10 (cs ++ Number.zeros d.exponent.toNat ++ ['0']) 0 < 10 ^ 17
    rw [hvalue]
    omega

/-- The point stands among the digits. -/
theorem writes_pointed (h : DigitsOf d cs) (hd : d.digits ≠ 0) (hexponent : d.exponent < 0)
    (hpos : 0 < (cs.length : Int) + d.exponent) (hpoint : (cs.length : Int) + d.exponent ≤ 16) :
    (Spelling.mk (cs.take ((cs.length : Int) + d.exponent).toNat)
      (some (cs.drop ((cs.length : Int) + d.exponent).toNat)) none).Writes d where
  chars := by
    unfold Number.decimalChars
    dsimp only
    rw [h.text, if_neg (by omega), if_pos ⟨hpos, hpoint⟩]
    simp [Spelling.chars, Spelling.fractionChars, Spelling.exponentChars]
  wellFormed := by
    refine ⟨⟨?_, fun c hc => h.isDigit c (List.mem_of_mem_take hc)⟩, Or.inr ?_, fun cs' hcs' => ?_,
      fun _ _ h => absurd h (by simp)⟩
    · refine List.length_pos_iff.mp ?_
      rw [List.length_take]
      omega
    · rw [List.head?_take, if_neg (by omega)]
      exact h.head hd
    · obtain rfl := Option.some.inj hcs'
      refine ⟨List.length_pos_iff.mp ?_, fun c hc => h.isDigit c (List.mem_of_mem_drop hc)⟩
      rw [List.length_drop]
      omega
  long := Or.inl rfl
  exponent := fun _ _ h => absurd h (by simp)
  size := by
    refine Or.inl ⟨?_, ?_⟩
    · show Nat.ofDigitChars 10 (cs.take _ ++ cs.drop _) 0 = _
      rw [List.take_append_drop]
      exact h.value
    · show (0 : Int) - ((cs.drop _).length : Nat) = _
      rw [List.length_drop]
      omega

/-- The point stands in front of the digits, with zeros between. -/
theorem writes_small (h : DigitsOf d cs) (hlow : -5 < (cs.length : Int) + d.exponent)
    (hpoint : (cs.length : Int) + d.exponent ≤ 0) :
    (Spelling.mk ['0']
      (some (Number.zeros ((cs.length : Int) + d.exponent).natAbs ++ cs)) none).Writes d where
  chars := by
    have hpos := List.length_pos_iff.mpr h.ne_nil
    unfold Number.decimalChars
    dsimp only
    rw [h.text, if_neg (by omega), if_neg (by omega), if_pos ⟨hlow, hpoint⟩]
    simp [Spelling.chars, Spelling.fractionChars, Spelling.exponentChars]
  wellFormed := by
    refine ⟨⟨by simp, fun c hc => ?_⟩, Or.inl rfl, fun cs' hcs' => ?_,
      fun _ _ h => absurd h (by simp)⟩
    · rw [List.mem_singleton.mp hc]
      decide
    obtain rfl := Option.some.inj hcs'
    refine ⟨by simp [h.ne_nil], fun c hc => ?_⟩
    rcases List.mem_append.mp hc with hc | hc
    · exact isDigit_of_mem_zeros hc
    · exact h.isDigit c hc
  long := Or.inl rfl
  exponent := fun _ _ h => absurd h (by simp)
  size := by
    refine Or.inl ⟨?_, ?_⟩
    · show Nat.ofDigitChars 10 ('0' :: (Number.zeros _ ++ cs)) 0 = _
      rw [Nat.ofDigitChars_cons, Nat.ofDigitChars_append, Number.zeros,
        Nat.ofDigitChars_replicate_zero]
      exact h.value
    · show (0 : Int) - ((Number.zeros _ ++ cs).length : Nat) = _
      rw [List.length_append, Number.zeros, List.length_replicate]
      omega

/-- A part that is left out if it is empty. -/
theorem getD_unlessNil (rest : List Char) :
    (if rest = [] then none else some rest).getD [] = rest := by
  by_cases hnil : rest = []
  · simp [hnil]
  · simp [hnil]

/-- The point stands behind the first digit, if it is not the only one, and there is an exponent. -/
theorem writes_scientific {c : Char} {rest : List Char} (h : DigitsOf d (c :: rest))
    (hfar : (rest.length : Int) + 1 + d.exponent ≤ -5 ∨ 16 < (rest.length : Int) + 1 + d.exponent) :
    (Spelling.mk [c] (if rest = [] then none else some rest)
      (some (decide ((rest.length : Int) + d.exponent < 0),
        Nat.toDigits 10 ((rest.length : Int) + d.exponent).natAbs))).Writes d where
  chars := by
    have hpoint : ((c :: rest).length : Int) + d.exponent = rest.length + 1 + d.exponent := by simp
    have hpower : (rest.length : Int) + 1 + d.exponent - 1 = rest.length + d.exponent := by omega
    unfold Number.decimalChars
    dsimp only
    rw [h.text, hpoint, if_neg (by omega), if_neg (by omega), if_neg (by omega), hpower,
      Text.toList_toString]
    cases rest with
    | nil => simp [Spelling.chars, Spelling.fractionChars, Spelling.exponentChars]
    | cons e rest => simp [Spelling.chars, Spelling.fractionChars, Spelling.exponentChars]
  wellFormed := by
    have hc : c.isDigit = true := h.isDigit c (by simp)
    refine ⟨⟨by simp, fun e he => ?_⟩, Or.inl rfl, fun cs' hcs' => ?_, fun negative cs' hcs' => ?_⟩
    · rwa [List.mem_singleton.mp he]
    · by_cases hnil : rest = []
      · simp [hnil] at hcs'
      · rw [if_neg hnil] at hcs'
        obtain rfl := Option.some.inj hcs'
        exact ⟨hnil, fun e he => h.isDigit e (by simp [he])⟩
    · obtain ⟨-, rfl⟩ := Prod.mk.inj (Option.some.inj hcs')
      exact ⟨Nat.toDigits_ne_nil, fun e he => Text.isDigit_of_mem_toDigits he⟩
  long := Or.inr rfl
  exponent := fun negative cs' hcs' => by
    obtain ⟨-, rfl⟩ := Prod.mk.inj (Option.some.inj hcs')
    rw [Nat.ofDigitChars_toDigits (by decide) (by decide), h.text, List.length_cons]
    omega
  size := by
    have hexponent :
        Nat.ofDigitChars 10 (Nat.toDigits 10 ((rest.length : Int) + d.exponent).natAbs) 0 =
          ((rest.length : Int) + d.exponent).natAbs :=
      Nat.ofDigitChars_toDigits (by decide) (by decide)
    refine Or.inl ⟨?_, ?_⟩
    · rw [Spelling.significand, getD_unlessNil]
      exact h.value
    · rw [Spelling.power, getD_unlessNil]
      unfold Spelling.shift
      by_cases hneg : (rest.length : Int) + d.exponent < 0
      · simp only [hneg, decide_true, hexponent]
        omega
      · simp only [hneg, decide_false, hexponent]
        omega

/-- Every decimal that is not zero has a spelling, and so has a zero without a power. -/
theorem exists_writes (hd : d.digits ≠ 0 ∨ d.exponent = 0) : ∃ s : Spelling, s.Writes d := by
  have h := digitsOf d
  generalize Nat.toDigits 10 d.digits = cs at h
  have hpos := List.length_pos_iff.mpr h.ne_nil
  by_cases hwhole : 0 ≤ d.exponent ∧ (cs.length : Int) + d.exponent ≤ 16
  · exact ⟨_, writes_whole h hd hwhole.1 hwhole.2⟩
  · by_cases hpointed : 0 < (cs.length : Int) + d.exponent ∧ (cs.length : Int) + d.exponent ≤ 16
    · have hneg : d.exponent < 0 := by omega
      exact ⟨_, writes_pointed h (hd.resolve_right (by omega)) hneg hpointed.1 hpointed.2⟩
    · by_cases hsmall : -5 < (cs.length : Int) + d.exponent ∧ (cs.length : Int) + d.exponent ≤ 0
      · exact ⟨_, writes_small h hsmall.1 hsmall.2⟩
      · obtain ⟨c, rest, rfl⟩ := List.exists_cons_of_ne_nil h.ne_nil
        refine ⟨_, writes_scientific h ?_⟩
        rw [List.length_cons] at hpos hwhole hpointed hsmall
        omega

end Layouts

end FeedPoller.Json
