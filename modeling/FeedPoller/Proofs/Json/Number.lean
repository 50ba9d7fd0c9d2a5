/-
Numbers in a text.

The reader of numbers takes the longest number that it finds, so a number that is printed is read
back whole only if what follows does not go on with it.  In printed data a number is followed by
a comma, a bracket, white space or nothing, and every scanner that reads part of a
number stops there: it does at the front of a longer text what it does on the shorter one alone.

A whole number is printed as the row of its digits.  What these come to may be out of
reach of 64 bits, and then they are no whole number any more; but they are never another one.
-/
import FeedPoller.Json.Document
import FeedPoller.Proofs.Text.Digits
import Mathlib.Data.List.TakeWhile

namespace FeedPoller.Json

namespace Grammar

/-! ### What stands behind a value -/

/-- Whether a character can stand behind a value. -/
def endsValue (c : Char) : Bool := isSpace c || c == ',' || c == ']' || c == '\x7d'

/-- What does not go on with a value that it stands behind. -/
def Apart (rest : List Char) : Prop := ∀ c, rest.head? = some c → endsValue c = true

theorem apart_nil : Apart [] := by
  intro c hc
  exact absurd hc (by simp)

theorem apart_cons {c : Char} {rest : List Char} (h : endsValue c = true) : Apart (c :: rest) := by
  intro d hd
  obtain rfl : c = d := by simpa using hd
  exact h

theorem Apart.head {c : Char} {rest : List Char} (h : Apart (c :: rest)) : endsValue c = true :=
  h c rfl

/-- No part of a number begins with a character that ends a value. -/
theorem not_isDigit_of_endsValue {c : Char} (h : endsValue c = true) :
    c.isDigit = false ∧ c ≠ '.' ∧ c ≠ 'e' ∧ c ≠ 'E' ∧ c ≠ '-' ∧ c ≠ '+' := by
  simp only [endsValue, isSpace, Bool.or_eq_true, beq_iff_eq] at h
  rcases h with ((((((rfl | rfl) | rfl) | rfl) | rfl) | rfl) | rfl) <;> decide

theorem Apart.takeWhile {rest : List Char} (h : Apart rest) : rest.takeWhile Char.isDigit = [] := by
  cases rest with
  | nil => rfl
  | cons c rest => simp [(not_isDigit_of_endsValue h.head).1]

theorem Apart.dropWhile {rest : List Char} (h : Apart rest) :
    rest.dropWhile Char.isDigit = rest := by
  cases rest with
  | nil => rfl
  | cons c rest => simp [(not_isDigit_of_endsValue h.head).1]

/-! ### Scanners -/

variable {α : Type}

/-- A scanner that takes no notice of what stands apart from what it reads. -/
def Local (scan : List Char → Option (α × List Char)) : Prop :=
  ∀ cs rest, Apart rest → scan (cs ++ rest) = (scan cs).map fun (a, left) => (a, left ++ rest)

theorem digits_append {cs rest : List Char} (h : Apart rest) :
    digits (cs ++ rest) = ((digits cs).1, (digits cs).2 ++ rest) := by
  have htake : (cs ++ rest).takeWhile Char.isDigit = cs.takeWhile Char.isDigit := by
    rw [List.takeWhile_append, h.takeWhile, List.append_nil]
    split
    · next hlen => exact ((List.takeWhile_prefix Char.isDigit).eq_of_length hlen).symm
    · rfl
  have hdrop : (cs ++ rest).dropWhile Char.isDigit = cs.dropWhile Char.isDigit ++ rest := by
    rw [List.dropWhile_append, h.dropWhile]
    split
    · next hnil => rw [List.isEmpty_iff.mp hnil, List.nil_append]
    · rfl
  unfold digits
  rw [htake, hdrop]

theorem local_someDigits : Local someDigits := by
  intro cs rest h
  unfold someDigits
  rw [digits_append h]
  dsimp only
  split <;> simp

theorem local_wholeDigits : Local wholeDigits := by
  intro cs rest h
  unfold wholeDigits
  rw [local_someDigits cs rest h]
  cases someDigits cs with
  | none => rfl
  | some p =>
      simp only [Option.map_some, Option.bind_eq_bind, Option.bind_some]
      split <;> rfl

/-- What stands apart does not begin with any part of a number. -/
theorem Apart.head?_ne {rest : List Char} (h : Apart rest) {c : Char} (hc : endsValue c = false) :
    rest.head? ≠ some c := by
  intro hhead
  rw [h c hhead] at hc
  exact absurd hc (by simp)

/-- What does not begin with a point has no fraction. -/
theorem fraction_of_ne {cs : List Char} (h : cs.head? ≠ some '.') :
    fraction cs = some (none, cs) := by
  unfold fraction
  split
  · exact absurd rfl h
  · rfl

theorem local_fraction : Local fraction := by
  intro cs rest h
  cases cs with
  | nil => exact fraction_of_ne (h.head?_ne (by decide))
  | cons c cs =>
      by_cases hpoint : c = '.'
      · subst hpoint
        show (someDigits (cs ++ rest)).map _ = Option.map _ ((someDigits cs).map _)
        rw [local_someDigits cs rest h]
        cases someDigits cs <;> rfl
      · rw [fraction_of_ne (by simpa using hpoint), fraction_of_ne (by simpa using hpoint)]
        rfl

/-- What does not begin with a sign is read as digits. -/
theorem exponentDigits_of_ne {cs : List Char} (hminus : cs.head? ≠ some '-')
    (hplus : cs.head? ≠ some '+') :
    exponentDigits cs = (someDigits cs).map fun (ds, rest) => (false, ds, rest) := by
  unfold exponentDigits
  split
  · exact absurd rfl hminus
  · exact absurd rfl hplus
  · rfl

theorem exponentDigits_append {cs rest : List Char} (h : Apart rest) :
    exponentDigits (cs ++ rest)
      = (exponentDigits cs).map fun (negative, ds, left) => (negative, ds, left ++ rest) := by
  have hdigits : ∀ (negative : Bool) (cs : List Char),
      ((someDigits (cs ++ rest)).map fun (ds, left) => (negative, ds, left))
        = Option.map (fun (negative, ds, left) => (negative, ds, left ++ rest))
          ((someDigits cs).map fun (ds, left) => (negative, ds, left)) := by
    intro negative cs
    rw [local_someDigits cs rest h]
    cases someDigits cs <;> rfl
  by_cases hminus : cs.head? = some '-'
  · obtain ⟨tail, rfl⟩ : ∃ tail, cs = '-' :: tail := List.head?_eq_some_iff.mp hminus
    exact hdigits true tail
  · by_cases hplus : cs.head? = some '+'
    · obtain ⟨tail, rfl⟩ : ∃ tail, cs = '+' :: tail := List.head?_eq_some_iff.mp hplus
      exact hdigits false tail
    · rw [exponentDigits_of_ne hminus hplus, exponentDigits_of_ne]
      · exact hdigits false cs
      · cases cs with
        | nil => exact h.head?_ne (by decide)
        | cons c cs => simpa using hminus
      · cases cs with
        | nil => exact h.head?_ne (by decide)
        | cons c cs => simpa using hplus

/-- What does not begin with the letter of an exponent has none. -/
theorem exponent_of_ne {cs : List Char} (hlower : cs.head? ≠ some 'e')
    (hupper : cs.head? ≠ some 'E') :
    exponent cs = some (none, cs) := by
  unfold exponent
  split
  · exact absurd rfl hlower
  · exact absurd rfl hupper
  · rfl

theorem local_exponent : Local exponent := by
  intro cs rest h
  cases cs with
  | nil => exact exponent_of_ne (h.head?_ne (by decide)) (h.head?_ne (by decide))
  | cons c cs =>
      by_cases hletter : c = 'e' ∨ c = 'E'
      · rcases hletter with rfl | rfl
        all_goals
          show (exponentDigits (cs ++ rest)).map _ = Option.map _ ((exponentDigits cs).map _)
          rw [exponentDigits_append h]
          cases exponentDigits cs <;> rfl
      · obtain ⟨hlower, hupper⟩ := not_or.mp hletter
        rw [exponent_of_ne (by simpa using hlower) (by simpa using hupper),
          exponent_of_ne (by simpa using hlower) (by simpa using hupper)]
        rfl

theorem local_unsignedNumber (negative : Bool) : Local (unsignedNumber negative) := by
  intro cs rest h
  unfold unsignedNumber
  rw [local_wholeDigits cs rest h]
  cases wholeDigits cs with
  | none => rfl
  | some whole =>
      simp only [Option.map_some, Option.bind_eq_bind, Option.bind_some]
      rw [local_fraction whole.2 rest h]
      cases fraction whole.2 with
      | none => rfl
      | some fraction =>
          simp only [Option.map_some, Option.bind_some]
          rw [local_exponent fraction.2 rest h]
          cases exponent fraction.2 <;> rfl

/-- What does not begin with a minus is read as a number without a sign. -/
theorem number_of_ne {cs : List Char} (h : cs.head? ≠ some '-') :
    number cs = unsignedNumber false cs := by
  unfold number
  split
  · exact absurd rfl h
  · rfl

/-- The reader of numbers takes no notice of what stands apart from them. -/
theorem local_number : Local number := by
  intro cs rest h
  by_cases hminus : cs.head? = some '-'
  · obtain ⟨tail, rfl⟩ : ∃ tail, cs = '-' :: tail := List.head?_eq_some_iff.mp hminus
    exact local_unsignedNumber true tail rest h
  · rw [number_of_ne hminus, number_of_ne]
    · exact local_unsignedNumber false cs rest h
    · cases cs with
      | nil => exact h.head?_ne (by decide)
      | cons c cs => simpa using hminus

/-- A number begins with a digit or with a minus. -/
theorem head_of_number {c : Char} {cs : List Char} {r : Literal × List Char}
    (h : number (c :: cs) = some r) : c = '-' ∨ c.isDigit = true := by
  by_cases hminus : c = '-'
  · exact Or.inl hminus
  · refine Or.inr ?_
    rw [number_of_ne (by simpa using hminus)] at h
    by_contra hdigit
    have hdigits : someDigits (c :: cs) = none := by simp [someDigits, digits, hdigit]
    rw [unsignedNumber, wholeDigits, hdigits] at h
    exact absurd h (by simp)

theorem eq_zero_of_digitValue {c : Char} (hdigit : c.isDigit = true) (h : digitValue c = 0) :
    c = '0' := by
  have hbounds : '0'.toNat ≤ c.toNat := (Text.toNat_of_isDigit hdigit).1
  refine Char.toNat_inj.mp ?_
  unfold digitValue at h
  omega

/-- A row of digits is read whole unless it is longer than it has to be. -/
theorem unsignedNumber_toDigits (negative : Bool) (n : Nat) :
    unsignedNumber negative (Nat.toDigits 10 n)
      = some (⟨negative, (Nat.toDigits 10 n).map digitValue, none, none⟩, []) := by
  have hall : ∀ c ∈ Nat.toDigits 10 n, c.isDigit = true := fun c => Text.isDigit_of_mem_toDigits
  have hdigits : digits (Nat.toDigits 10 n) = ((Nat.toDigits 10 n).map digitValue, []) := by
    unfold digits
    rw [List.takeWhile_eq_self_iff.mpr hall, List.dropWhile_eq_nil_iff.mpr hall]
  obtain ⟨c, cs, hcons⟩ := List.exists_cons_of_ne_nil (Nat.toDigits_ne_nil (b := 10) (n := n))
  have hsome : someDigits (Nat.toDigits 10 n) = some ((Nat.toDigits 10 n).map digitValue, []) := by
    unfold someDigits
    rw [hdigits, hcons]
    rfl
  have hplain : ¬ (((Nat.toDigits 10 n).map digitValue).length ≠ 1 ∧
      ((Nat.toDigits 10 n).map digitValue).head? = some 0) := by
    rintro ⟨hlen, hzero⟩
    rw [hcons] at hzero
    have hc : c = '0' := eq_zero_of_digitValue (hall c (by simp [hcons])) (by simpa using hzero)
    obtain rfl : n = 0 := Text.eq_zero_of_head?_toDigits (by rw [hcons, hc]; rfl)
    exact hlen rfl
  have hwhole : wholeDigits (Nat.toDigits 10 n) =
      some ((Nat.toDigits 10 n).map digitValue, []) := by
    unfold wholeDigits
    rw [hsome]
    exact if_neg hplain
  unfold unsignedNumber
  rw [hwhole]
  rfl

end Grammar

namespace Number

/-- How a number is spelled when it is printed. -/
def literal (n : Number) : Literal :=
  match Grammar.number n.chars with
  | some (l, _) => l
  | none => ⟨false, [], none, none⟩

/-- What is printed for the number is a number, and nothing else. -/
def Spelled (n : Number) : Prop := Grammar.number n.chars = some (n.literal, [])

/-- The number is the value of what is printed for it. -/
def Lossless (n : Number) : Prop := n.Spelled ∧ ofLiteral n.literal = some n

instance (n : Number) : Decidable n.Spelled :=
  inferInstanceAs (Decidable (Grammar.number n.chars = some (n.literal, [])))

instance (n : Number) : Decidable n.Lossless :=
  inferInstanceAs (Decidable (n.Spelled ∧ ofLiteral n.literal = some n))

theorem spelled_of_number {n : Number} {l : Literal} (h : Grammar.number n.chars = some (l, [])) :
    n.literal = l ∧ n.Spelled := by
  have hl : n.literal = l := by
    unfold literal
    rw [h]
  exact ⟨hl, by rw [Spelled, hl, h]⟩

/-- A whole number that is written in digits. -/
def wholeLiteral (n : Int) : Literal :=
  ⟨decide (n < 0), (Nat.toDigits 10 n.natAbs).map Grammar.digitValue, none, none⟩

theorem number_integer (n : Int) :
    Grammar.number (Number.integer n).chars = some (wholeLiteral n, []) := by
  cases n with
  | ofNat n =>
      have hchars : (Number.integer (Int.ofNat n)).chars = Nat.toDigits 10 n :=
        Text.toList_toString n
      obtain ⟨c, cs, hcons⟩ := List.exists_cons_of_ne_nil (Nat.toDigits_ne_nil (b := 10) (n := n))
      rw [hchars, Grammar.number_of_ne, Grammar.unsignedNumber_toDigits]
      · rfl
      · rw [hcons]
        have hdigit := Text.isDigit_of_mem_toDigits (n := n) (c := c) (by simp [hcons])
        intro hhead
        obtain rfl : c = '-' := by simpa using hhead
        exact absurd hdigit (by decide)
  | negSucc n =>
      have hchars : (Number.integer (Int.negSucc n)).chars = '-' :: Nat.toDigits 10 (n + 1) := by
        show ("-" ++ (n + 1).repr).toList = _
        rw [String.toList_append, Nat.toList_repr]
        rfl
      rw [hchars]
      show Grammar.unsignedNumber true (Nat.toDigits 10 (n + 1)) = _
      rw [Grammar.unsignedNumber_toDigits]
      simp [wholeLiteral, Int.negSucc_lt_zero]

theorem literal_integer (n : Int) : (Number.integer n).literal = wholeLiteral n :=
  (spelled_of_number (number_integer n)).1

theorem spelled_integer (n : Int) : (Number.integer n).Spelled :=
  (spelled_of_number (number_integer n)).2

/-! ### The value of a whole number -/

theorem ofDigits_toDigits (n : Nat) :
    ofDigits ((Nat.toDigits 10 n).map Grammar.digitValue) = n := by
  unfold ofDigits
  rw [List.foldl_map]
  exact (Text.foldl_digits _ 0).trans (Nat.ofDigitChars_toDigits (by decide) (by decide))

theorem ofParts_ne_integer {negative : Bool} {significand : Nat} {exponent m : Int} :
    ofParts negative significand exponent ≠ some (.integer m) := by
  unfold ofParts
  cases Binary64.ofNat significand with
  | none => simp
  | some x =>
      cases hscale : scale x exponent 4 <;> simp [hscale]

theorem ofLongLiteral_ne_integer {l : Literal} {m : Int} : ofLongLiteral l ≠ some (.integer m) := by
  unfold ofLongLiteral
  dsimp only
  split
  · exact ofParts_ne_integer
  · split
    · split <;> simp
    · exact ofParts_ne_integer

/-- A whole number comes to itself if it comes to a whole number at all. -/
theorem eq_of_ofLiteral {n m : Int} (h : ofLiteral (wholeLiteral n) = some (.integer m)) :
    m = n := by
  have hvalue : ofDigits (wholeLiteral n).whole = n.natAbs := ofDigits_toDigits _
  unfold ofLiteral at h
  rw [hvalue] at h
  split at h
  · dsimp only at h
    split at h
    · next hsign =>
        have hpos : ¬ n < 0 := by simpa [wholeLiteral] using hsign
        have hm : (n.natAbs : Int) = m := by simpa using h
        omega
    · next hsign =>
        have hneg : n < 0 := by simpa [wholeLiteral] using hsign
        split at h
        · have hm : -(n.natAbs : Int) = m := by simpa using h
          omega
        · exact absurd h ofParts_ne_integer
  · exact absurd h ofLongLiteral_ne_integer

end Number

end FeedPoller.Json
