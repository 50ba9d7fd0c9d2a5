/-
Strings in a text.

A string is printed character by character, and read the same way: what is printed for one
character is read as one part of a string, whatever follows.  Control characters without a letter
of their own are printed as 16-bit units; none of these is half a surrogate pair, so each of
them stands for itself.
-/
import FeedPoller.Json.Document
import FeedPoller.Json.Printer
import Mathlib.Tactic.SplitIfs

namespace FeedPoller.Json.Grammar

/-- Whether a character is printed as itself or as a letter. -/
def isPlain (c : Char) : Bool :=
  0x20 ≤ c.toNat || c == '\x08' || c == '\x0c' || c == '\n' || c == '\r' || c == '\t'

/-- What is read for a character that was printed inside a string. -/
def pieceOf (c : Char) : Piece := if isPlain c then .char c else .unit c.toNat

theorem hexValue_hexDigit {n : Nat} (h : n < 16) : hexValue (hexDigit n) = some n := by
  have hall : ∀ n : Fin 16, hexValue (hexDigit n.val) = some n.val := by decide
  exact hall ⟨n, h⟩

variable {c : Char} {rest : List Char}

/-- An escape of one letter. -/
theorem pieces_letter {letter : Char} (hu : letter ≠ 'u') (h : escapeValue letter = some c)
    (hplain : isPlain c = true) :
    pieces ('\\' :: letter :: rest) =
      (pieces rest).map fun (ps, left) => (pieceOf c :: ps, left) := by
  rw [pieces.eq_4 _ _ fun _ _ _ _ _ hletter => absurd hletter hu, h, pieceOf, if_pos hplain]
  cases pieces rest <;> rfl

/-- An escape of a 16-bit unit. -/
theorem pieces_unit (h : c.toNat < 0x20) (hplain : isPlain c = false) :
    pieces ('\\' :: 'u' :: '0' :: '0' :: hexDigit (c.toNat / 16) :: hexDigit (c.toNat % 16) :: rest)
      = (pieces rest).map fun (ps, left) => (pieceOf c :: ps, left) := by
  have hvalue : hexValue4 '0' '0' (hexDigit (c.toNat / 16)) (hexDigit (c.toNat % 16))
      = some c.toNat := by
    unfold hexValue4
    rw [hexValue_hexDigit (by omega), hexValue_hexDigit (by omega)]
    show some ((0 * 16 + 0) * 256 + c.toNat / 16 * 16 + c.toNat % 16) = some c.toNat
    congr 1
    omega
  rw [pieces.eq_3, hvalue, pieceOf, if_neg (by simp [hplain])]
  cases pieces rest <;> rfl

/-- A character that is printed as itself. -/
theorem pieces_char (hquote : c ≠ '"') (hescape : c ≠ '\\') (hplain : ¬ c.toNat < 0x20) :
    pieces (c :: rest) = (pieces rest).map fun (ps, left) => (pieceOf c :: ps, left) := by
  have hpiece : pieceOf c = .char c := if_pos (by simp [isPlain, Nat.le_of_not_lt hplain])
  rw [pieces.eq_5 _ _ hquote (fun _ _ _ _ _ hc => absurd hc hescape)
    (fun _ _ hc => absurd hc hescape), if_neg hplain, hpiece]
  cases pieces rest <;> rfl

/-- What is printed for a character is read as one part of a string. -/
theorem pieces_escapeChar (c : Char) (rest : List Char) :
    pieces (escapeChar c ++ rest) =
      (pieces rest).map fun (ps, left) => (pieceOf c :: ps, left) := by
  unfold escapeChar
  split_ifs with hquote hescape hback hfeed hline hreturn htab hlow
  · subst hquote; exact pieces_letter (by decide) rfl rfl
  · subst hescape; exact pieces_letter (by decide) rfl rfl
  · subst hback; exact pieces_letter (by decide) rfl rfl
  · subst hfeed; exact pieces_letter (by decide) rfl rfl
  · subst hline; exact pieces_letter (by decide) rfl rfl
  · subst hreturn; exact pieces_letter (by decide) rfl rfl
  · subst htab; exact pieces_letter (by decide) rfl rfl
  · exact pieces_unit hlow (by simp [isPlain, hlow, hback, hfeed, hline, hreturn, htab])
  · exact pieces_char hquote hescape hlow

theorem pieces_flatMap (cs rest : List Char) :
    pieces (cs.flatMap escapeChar ++ '"' :: rest) = some (cs.map pieceOf, rest) := by
  induction cs with
  | nil => rfl
  | cons c cs ih =>
      rw [List.flatMap_cons, List.append_assoc, pieces_escapeChar, ih]
      rfl

/-- A unit that is no half of a pair is a character. -/
theorem pieceChars_unit {n : Nat} (h : n < 0x20) (ps : List Piece) :
    pieceChars (.unit n :: ps) = (pieceChars ps).map (Char.ofNat n :: ·) := by
  have hhigh : isHighSurrogate n = false := by simp [isHighSurrogate]; omega
  have hlow : isLowSurrogate n = false := by simp [isLowSurrogate]; omega
  cases ps with
  | nil => simp [pieceChars, hhigh, hlow]
  | cons p ps => cases p <;> simp [pieceChars, hhigh, hlow]

theorem pieceChars_map (cs : List Char) : pieceChars (cs.map pieceOf) = some cs := by
  induction cs with
  | nil => rfl
  | cons c cs ih =>
      rw [List.map_cons]
      cases hplain : isPlain c with
      | true => rw [pieceOf, if_pos hplain, pieceChars, ih]; rfl
      | false =>
          have hlow : c.toNat < 0x20 := by
            refine Nat.lt_of_not_le fun h => ?_
            simp [isPlain, h] at hplain
          rw [pieceOf, if_neg (by simp [hplain]), pieceChars_unit hlow, ih]
          simp

/-- A string that is printed is read back. -/
theorem quoted_stringChars (s : String) (rest : List Char) :
    quoted (s.toList.flatMap escapeChar ++ '"' :: rest) = some (some s, rest) := by
  unfold quoted
  rw [pieces_flatMap]
  simp [pieceChars_map]

end FeedPoller.Json.Grammar
