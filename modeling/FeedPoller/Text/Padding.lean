/-
Text of a given width.

Widths count characters.  A text that is already as wide as it should be, or wider, stays
as it is.
-/
namespace FeedPoller.Text

/-- Blanks behind a text, up to a width. -/
def padRight (width : Nat) (s : String) : String :=
  s ++ String.ofList (List.replicate (width - s.length) ' ')

/-- A character in front of a text as often as it takes to reach a width. -/
def padLeft (c : Char) (width : Nat) (s : String) : String :=
  String.ofList (List.replicate (width - s.length) c) ++ s

/-- A number with zeros in front. -/
def zeroPadded (width n : Nat) : String := padLeft '0' width (toString n)

end FeedPoller.Text
