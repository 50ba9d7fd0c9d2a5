/-
White space.

Keys, addresses and session tokens are judged by what is left of them once the
white space is gone, so one definition of white space serves them all.  It is the
Unicode property `White_Space`: the ASCII controls from tab to carriage return,
the space, the next-line and no-break characters, the Ogham space mark, the
typographic spaces and the two separators.  Zero-width characters do not belong to
it, nor do the ASCII information separators.
-/
namespace FeedPoller.Text

/-- The characters with the property `White_Space`. -/
def isBlankChar (c : Char) : Bool :=
  (0x09 ≤ c.toNat && c.toNat ≤ 0x0D) || c.toNat == 0x20 || c.toNat == 0x85 || c.toNat == 0xA0 ||
  c.toNat == 0x1680 || (0x2000 ≤ c.toNat && c.toNat ≤ 0x200A) ||
  c.toNat == 0x2028 || c.toNat == 0x2029 || c.toNat == 0x202F || c.toNat == 0x205F ||
  c.toNat == 0x3000

/-- A text is blank when it holds nothing but white space; the empty text is blank. -/
def isBlank (s : String) : Bool :=
  s.toList.all isBlankChar

/-- The characters with the white space at both ends removed. -/
def trimChars (cs : List Char) : List Char :=
  ((cs.dropWhile isBlankChar).reverse.dropWhile isBlankChar).reverse

/-- The text with the white space at both ends removed. -/
def trim (s : String) : String :=
  String.ofList (trimChars s.toList)

end FeedPoller.Text
