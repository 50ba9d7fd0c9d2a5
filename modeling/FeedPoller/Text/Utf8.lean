/-
Bytes that are meant to be text.

Bytes that are not UTF-8 can still be shown.  Wherever they stop making sense a replacement
character stands for as many of them as could have been the beginning of a character, and
reading goes on behind these.
-/
namespace FeedPoller.Text

/-- The character that stands for bytes that make no sense. -/
def replacement : Char := '\ufffd'

/-- What a first byte announces: how many bytes follow, and the range of the next one. -/
structure Lead where
  following : Nat
  least : Nat
  greatest : Nat
  /-- The part of the character's number that the first byte holds. -/
  bits : Nat

/-- What a byte announces when it begins a character of several bytes. -/
def lead? (b : Nat) : Option Lead :=
  if 0xC2 ≤ b ∧ b ≤ 0xDF then some ⟨1, 0x80, 0xBF, b - 0xC0⟩
  else if b = 0xE0 then some ⟨2, 0xA0, 0xBF, 0⟩
  else if b = 0xED then some ⟨2, 0x80, 0x9F, 0xD⟩
  else if 0xE1 ≤ b ∧ b ≤ 0xEF then some ⟨2, 0x80, 0xBF, b - 0xE0⟩
  else if b = 0xF0 then some ⟨3, 0x90, 0xBF, 0⟩
  else if 0xF1 ≤ b ∧ b ≤ 0xF3 then some ⟨3, 0x80, 0xBF, b - 0xF0⟩
  else if b = 0xF4 then some ⟨3, 0x80, 0x8F, 4⟩
  else none

/-- The bytes at the front that may follow, at most `n`; the first must be in a range. -/
def followers (least greatest : Nat) : Nat → List UInt8 → List UInt8
  | 0, _ => []
  | _, [] => []
  | n + 1, b :: rest =>
    if least ≤ b.toNat ∧ b.toNat ≤ greatest then b :: followers 0x80 0xBF n rest else []

/-- Bytes as characters. -/
def decodeLossy : List UInt8 → List Char
  | [] => []
  | b :: rest =>
    if b.toNat < 0x80 then Char.ofNat b.toNat :: decodeLossy rest
    else
      match lead? b.toNat with
      | none => replacement :: decodeLossy rest
      | some l =>
        let bs := followers l.least l.greatest l.following rest
        let c :=
          if bs.length == l.following then
            Char.ofNat (bs.foldl (fun n b => n * 64 + (b.toNat - 0x80)) l.bits)
          else replacement
        c :: decodeLossy (rest.drop bs.length)
termination_by bs => bs.length
decreasing_by all_goals simp only [List.length_cons, List.length_drop]; omega

/-- Bytes as text. -/
def ofBytes (b : ByteArray) : String := String.ofList (decodeLossy b.toList)

end FeedPoller.Text
