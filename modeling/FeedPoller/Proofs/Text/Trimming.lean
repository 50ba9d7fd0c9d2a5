/-
What is left of a text without the white space at its ends.

To trim a text is to drop white space at its front, and then at its back.  `Trimmed` says what
comes of it without saying how: there is nothing but white space around what is left, and
what is left neither begins nor ends with white space.  No text has two parts of that kind.
-/
import FeedPoller.Text.Blank
import Mathlib.Data.List.DropRight
import Mathlib.Data.List.TakeWhile

namespace FeedPoller.Text

/-- One text is what is left of another without the white space at both ends. -/
structure Trimmed (text core : String) : Prop where
  around : ∃ front back : List Char, text.toList = front ++ core.toList ++ back ∧
    (∀ c ∈ front, isBlankChar c = true) ∧ ∀ c ∈ back, isBlankChar c = true
  first : ∀ c ∈ core.toList.head?, isBlankChar c = false
  last : ∀ c ∈ core.toList.getLast?, isBlankChar c = false

/-- What begins with no white space stays as it is when that is dropped at its front. -/
theorem dropWhile_eq_self {cs : List Char} (h : ∀ c ∈ cs.head?, isBlankChar c = false) :
    cs.dropWhile isBlankChar = cs := by
  cases cs with
  | nil => rfl
  | cons c rest => rw [List.dropWhile_cons_of_neg (by simp [h c rfl])]

theorem trimChars_eq_rdropWhile (cs : List Char) :
    trimChars cs = (cs.dropWhile isBlankChar).rdropWhile isBlankChar := rfl

theorem trimChars_append {front core back : List Char} (hfront : ∀ c ∈ front, isBlankChar c = true)
    (hback : ∀ c ∈ back, isBlankChar c = true) (hfirst : ∀ c ∈ core.head?, isBlankChar c = false)
    (hlast : ∀ c ∈ core.getLast?, isBlankChar c = false) :
    trimChars (front ++ core ++ back) = core := by
  rw [List.append_assoc, trimChars, List.dropWhile_append_of_pos hfront]
  cases core with
  | nil =>
      rw [List.nil_append, List.dropWhile_eq_nil_iff.mpr hback]
      rfl
  | cons c rest =>
      have hkept : (c :: rest ++ back).dropWhile isBlankChar = c :: rest ++ back :=
        dropWhile_eq_self (by simpa using hfirst)
      have hback' : ∀ d ∈ back.reverse, isBlankChar d = true :=
        fun d hd => hback d (List.mem_reverse.mp hd)
      have hlast' : ∀ d ∈ (c :: rest).reverse.head?, isBlankChar d = false := by
        rw [List.head?_reverse]
        exact hlast
      rw [hkept, List.reverse_append, List.dropWhile_append_of_pos hback',
        dropWhile_eq_self hlast', List.reverse_reverse]

theorem trimmed_trim (text : String) : Trimmed text (trim text) := by
  have hcore : (trim text).toList = trimChars text.toList := String.toList_ofList
  refine ⟨⟨text.toList.takeWhile isBlankChar,
    (text.toList.dropWhile isBlankChar).rtakeWhile isBlankChar, ?_, ?_, ?_⟩, ?_, ?_⟩
  · rw [hcore, trimChars_eq_rdropWhile, List.append_assoc, List.rdropWhile_append_rtakeWhile,
      List.takeWhile_append_dropWhile]
  · exact fun c hc => List.mem_takeWhile_imp hc
  · exact fun c hc => List.mem_rtakeWhile_imp hc
  · -- What is left at the front is left when the back is dropped, so it is no white space.
    intro c hc
    rw [hcore, trimChars_eq_rdropWhile] at hc
    obtain ⟨back, hback⟩ :=
      List.rdropWhile_prefix isBlankChar (l := text.toList.dropWhile isBlankChar)
    have hhead : (text.toList.dropWhile isBlankChar).head? = some c := by
      rw [← hback, List.head?_append, Option.mem_def.mp hc]
      rfl
    have hnot := List.head?_dropWhile_not isBlankChar text.toList
    rwa [hhead] at hnot
  · intro c hc
    rw [hcore, trimChars_eq_rdropWhile] at hc
    obtain ⟨hne, rfl⟩ := List.mem_getLast?_eq_getLast hc
    exact Bool.eq_false_iff.mpr (List.rdropWhile_last_not isBlankChar _ hne)

/-- Trimming is described by what comes of it. -/
theorem trimmed_iff {text core : String} : Trimmed text core ↔ trim text = core := by
  constructor
  · rintro ⟨⟨front, back, htext, hfront, hback⟩, hfirst, hlast⟩
    rw [trim, htext, trimChars_append hfront hback hfirst hlast, String.ofList_toList]
  · rintro rfl
    exact trimmed_trim text

end FeedPoller.Text
