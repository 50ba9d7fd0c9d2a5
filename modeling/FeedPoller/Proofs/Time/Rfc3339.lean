/-
Date-times that are written and read again.

A date-time is written in a fixed layout, each number with as many digits as the reader takes and
with something behind it that is no digit, so the reader takes the numbers apart as they
were put together.  They are put together from the day number and the second of the day, and
both come back.  A leap second comes back too, as long as it ends a minute: it is written as the
sixtieth second, and that is how the reader knows it.

Whether a date-time is read at all depends on its year, since not every year has dates.
-/
import FeedPoller.Proofs.Text.Digits
import FeedPoller.Proofs.Time.Calendar
import FeedPoller.Time.Rfc3339
import Mathlib.Tactic.SplitIfs

namespace FeedPoller

/-- The point is no leap second. -/
def DateTime.Ordinary (t : DateTime) : Prop := t.nanos < 1000000000

instance (t : DateTime) : Decidable t.Ordinary := inferInstanceAs (Decidable (t.nanos < 1000000000))

/-- The point has a text of its own: if it is a leap second, it is the last one of its minute. -/
structure DateTime.Writable (t : DateTime) : Prop where
  nanos : t.nanos < 2000000000
  leap : 1000000000 ≤ t.nanos → t.secondOfDay % 60 = 59

theorem DateTime.Ordinary.writable {t : DateTime} (h : t.Ordinary) : t.Writable where
  nanos := Nat.lt_trans h (by decide)
  leap hleap := absurd h (Nat.not_lt.mpr hleap)

/-- The beginning of a second, if it is one that dates are kept for. -/
theorem DateTime.eq_of_ofSeconds? {s : Int} {t : DateTime} (h : DateTime.ofSeconds? s = some t) :
    t = ⟨s, 0⟩ ∧ firstSecond ≤ s ∧ s ≤ lastSecond := by
  unfold DateTime.ofSeconds? at h
  split at h
  · next hrange => exact ⟨(Option.some.inj h).symm, hrange⟩
  · exact absurd h (by simp)

theorem DateTime.ordinary_later (t : DateTime) (d : Duration) : (t.later d).Ordinary :=
  Nat.mod_lt _ (by decide)

namespace Rfc3339

open Text (zeroPadded isBlankChar Undigit undigit_cons takeWhile_digits dropWhile_digits)

/-! ### Scanners -/

/-- A row of digits that is not too long is read as the number that it comes to. -/
theorem number_digits {limit : Nat} {ds rest : List Char} (hds : ∀ c ∈ ds, c.isDigit = true)
    (hne : ds ≠ []) (hlen : ds.length ≤ limit) (hrest : Undigit rest) :
    number limit (ds ++ rest) = some (Nat.ofDigitChars 10 ds 0, rest) := by
  have htake : ((ds ++ rest).takeWhile Char.isDigit).take limit = ds := by
    rw [takeWhile_digits hds hrest, List.take_of_length_le hlen]
  unfold number
  dsimp only
  rw [htake, if_neg (by simpa using hne), Text.foldl_digits, List.drop_left]

theorem number_zeroPadded {limit width n : Nat} {rest : List Char}
    (hlen : (zeroPadded width n).toList.length ≤ limit) (hrest : Undigit rest) :
    number limit ((zeroPadded width n).toList ++ rest) = some (n, rest) := by
  rw [number_digits (fun c => Text.isDigit_of_mem_zeroPadded) (Text.zeroPadded_ne_nil width n) hlen
    hrest, Text.ofDigitChars_zeroPadded]

theorem isBlankChar_of_isDigit {c : Char} (h : c.isDigit = true) : isBlankChar c = false := by
  have hbounds := Text.toNat_of_isDigit h
  simp only [isBlankChar, Bool.or_eq_false_iff, Bool.and_eq_false_iff, decide_eq_false_iff_not,
    beq_eq_false_iff_ne]
  omega

/-- There is no white space in front of a written number. -/
theorem dropWhile_zeroPadded (width n : Nat) (rest : List Char) :
    ((zeroPadded width n).toList ++ rest).dropWhile isBlankChar
      = (zeroPadded width n).toList ++ rest := by
  obtain ⟨c, cs, hcons⟩ := List.exists_cons_of_ne_nil (Text.zeroPadded_ne_nil width n)
  have hc : c.isDigit = true := Text.isDigit_of_mem_zeroPadded (by rw [hcons]; simp)
  rw [hcons, List.cons_append, List.dropWhile_cons_of_neg (by simp [isBlankChar_of_isDigit hc])]

theorem field_zeroPadded {low high n : Nat} {rest : List Char} (hlow : low ≤ n) (hhigh : n ≤ high)
    (hlt : n < 100) (hrest : Undigit rest) :
    field low high ((zeroPadded 2 n).toList ++ rest) = some (n, rest) := by
  unfold field
  rw [dropWhile_zeroPadded,
    number_zeroPadded (Nat.le_of_eq (Text.length_zeroPadded (by decide) hlt)) hrest]
  exact if_pos ⟨hlow, hhigh⟩

theorem mark_cons {c : Char} {rest : List Char} (h : isBlankChar c = false) :
    mark c (c :: rest) = some rest := by
  unfold mark
  rw [List.dropWhile_cons_of_neg (by simp [h])]
  exact if_pos rfl

/-! ### The parts of a date-time -/

theorem readYear_of_head {c : Char} {cs : List Char} (h : c.isDigit = true) :
    readYear (c :: cs) = (number 4 (c :: cs)).map fun (n, rest) => ((n : Int), rest) := by
  unfold readYear
  rw [List.dropWhile_cons_of_neg (by simp [isBlankChar_of_isDigit h])]
  split
  · next heq =>
      obtain ⟨rfl, -⟩ := List.cons.inj heq
      exact absurd h (by decide)
  · next heq =>
      obtain ⟨rfl, -⟩ := List.cons.inj heq
      exact absurd h (by decide)
  · rfl

theorem readYear_minus (cs : List Char) :
    readYear ('-' :: cs) = (number cs.length cs).map fun (n, rest) => (-(n : Int), rest) := by
  unfold readYear
  rw [List.dropWhile_cons_of_neg (by decide)]
  rfl

theorem readYear_plus (cs : List Char) :
    readYear ('+' :: cs) = (number cs.length cs).map fun (n, rest) => ((n : Int), rest) := by
  unfold readYear
  rw [List.dropWhile_cons_of_neg (by decide)]
  rfl

theorem readYear_writeYear (year : Int) {rest : List Char} (hrest : Undigit rest) :
    readYear ((writeYear year).toList ++ rest) = some (year, rest) := by
  unfold writeYear
  split_ifs with hshort hneg
  · have hlen : (zeroPadded 4 year.toNat).toList.length ≤ 4 :=
      Nat.le_of_eq (Text.length_zeroPadded (by decide) (by show _ < 10000; omega))
    have hnumber := number_zeroPadded hlen hrest
    obtain ⟨c, cs, hcons⟩ := List.exists_cons_of_ne_nil (Text.zeroPadded_ne_nil 4 year.toNat)
    have hc : c.isDigit = true := Text.isDigit_of_mem_zeroPadded (by rw [hcons]; simp)
    rw [hcons, List.cons_append] at hnumber ⊢
    rw [readYear_of_head hc, hnumber]
    simp [Int.toNat_of_nonneg hshort.1]
  · have hsign : "-".toList = ['-'] := by decide
    rw [String.toList_append, hsign, List.singleton_append, List.cons_append, readYear_minus,
      number_zeroPadded (by simp) hrest]
    simp only [Option.map_some]
    congr 2
    omega
  · have hsign : "+".toList = ['+'] := by decide
    rw [String.toList_append, hsign, List.singleton_append, List.cons_append, readYear_plus,
      number_zeroPadded (by simp) hrest]
    simp only [Option.map_some]
    congr 2
    omega

theorem readFraction_point (cs : List Char) :
    readFraction ('.' :: cs) = (number 9 cs).map fun (n, _) =>
      (n * Nat.pow 10 (9 - min 9 (cs.takeWhile Char.isDigit).length), cs.dropWhile Char.isDigit) :=
  rfl

/-- What does not begin with a point has no fraction. -/
theorem readFraction_of_ne {cs : List Char} (h : cs.head? ≠ some '.') :
    readFraction cs = some (0, cs) := by
  unfold readFraction
  split
  · exact absurd rfl h
  · rfl

/-- A fraction that is written in some number of digits. -/
theorem readFraction_zeroPadded {width n : Nat} {rest : List Char} (hpos : 0 < width)
    (hle : width ≤ 9) (hlt : n < Nat.pow 10 width) (hrest : Undigit rest) :
    readFraction (("." ++ zeroPadded width n).toList ++ rest)
      = some (n * Nat.pow 10 (9 - width), rest) := by
  have hlen := Text.length_zeroPadded hpos hlt
  have hds : ∀ c ∈ (zeroPadded width n).toList, c.isDigit = true :=
    fun c => Text.isDigit_of_mem_zeroPadded
  have hpoint : ".".toList = ['.'] := by decide
  rw [String.toList_append, hpoint, List.singleton_append, List.cons_append, readFraction_point,
    number_zeroPadded (by omega) hrest, takeWhile_digits hds hrest, dropWhile_digits hds hrest,
    hlen, Nat.min_eq_right hle]
  rfl

theorem readFraction_writeFraction {nanos : Nat} {rest : List Char} (h : nanos < 1000000000)
    (hrest : Undigit rest) (hpoint : rest.head? ≠ some '.') :
    readFraction ((writeFraction nanos).toList ++ rest) = some (nanos, rest) := by
  unfold writeFraction
  split_ifs with hzero hmillis hmicros
  · obtain rfl : nanos = 0 := by simpa using hzero
    rw [String.toList_empty, List.nil_append, readFraction_of_ne hpoint]
  · have hexact : nanos / 1000000 * 1000000 = nanos :=
      Nat.div_mul_cancel (Nat.dvd_of_mod_eq_zero (by simpa using hmillis))
    rw [readFraction_zeroPadded (by decide) (by decide) (by show _ < 1000; omega) hrest]
    exact congrArg (fun n => some (n, rest)) hexact
  · have hexact : nanos / 1000 * 1000 = nanos :=
      Nat.div_mul_cancel (Nat.dvd_of_mod_eq_zero (by simpa using hmicros))
    rw [readFraction_zeroPadded (by decide) (by decide) (by show _ < 1000000; omega) hrest]
    exact congrArg (fun n => some (n, rest)) hexact
  · rw [readFraction_zeroPadded (by decide) (by decide) h hrest]
    exact congrArg (fun n => some (n, rest)) (Nat.mul_one nanos)

/-! ### Whole date-times -/

/-- How many seconds a leap second adds to its minute. -/
def leapSecond (t : DateTime) : Nat := if 1000000000 ≤ t.nanos then 1 else 0

theorem secondOfDay_lt (t : DateTime) : t.secondOfDay < 86400 ∧
    t.dayNumber * 86400 + t.secondOfDay = t.seconds := by
  have hday : t.dayNumber = t.seconds / 86400 := Int.fdiv_eq_ediv_of_nonneg _ (by decide)
  unfold DateTime.secondOfDay DateTime.secondsPerDay
  rw [hday]
  omega

/-- Minutes begin in UTC where they begin in every day. -/
theorem secondOfDay_mod (t : DateTime) : ((t.secondOfDay % 60 : Nat) : Int) = t.seconds % 60 := by
  have hseconds := (secondOfDay_lt t).2
  omega

/-- A leap second is the sixtieth of its minute, and no other second is. -/
theorem second_eq_sixty_iff {t : DateTime} (h : t.Writable) :
    t.secondOfDay % 60 + leapSecond t = 60 ↔ 1000000000 ≤ t.nanos := by
  unfold leapSecond
  split
  · next hleap => exact iff_of_true (by rw [h.leap hleap]) hleap
  · next hleap => exact iff_of_false (by omega) hleap

/-- What is written for a date-time, part by part. -/
theorem toList_write (t : DateTime) :
    (write t).toList = (writeYear (CivilDate.ofDayNumber t.dayNumber).year).toList ++ ('-' ::
      ((zeroPadded 2 (CivilDate.ofDayNumber t.dayNumber).month).toList ++ ('-' ::
      ((zeroPadded 2 (CivilDate.ofDayNumber t.dayNumber).day).toList ++ ('T' ::
      ((zeroPadded 2 (t.secondOfDay / 3600)).toList ++ (':' ::
      ((zeroPadded 2 (t.secondOfDay / 60 % 60)).toList ++ (':' ::
      ((zeroPadded 2 (t.secondOfDay % 60 + leapSecond t)).toList ++
      ((writeFraction (t.nanos % 1000000000)).toList ++ ['Z']))))))))))) := by
  have hmarks : "-".toList = ['-'] ∧ "T".toList = ['T'] ∧ ":".toList = [':'] ∧
      "Z".toList = ['Z'] := by
    decide
  unfold write leapSecond
  simp only [String.toList_append, hmarks, List.append_assoc, List.cons_append, List.nil_append]

theorem undigit_writeFraction (nanos : Nat) : Undigit ((writeFraction nanos).toList ++ ['Z']) := by
  have hpoint : ∀ s : String, Undigit (("." ++ s).toList ++ ['Z']) := by
    intro s
    have : ".".toList = ['.'] := by decide
    rw [String.toList_append, this, List.append_assoc, List.singleton_append]
    exact undigit_cons (by decide)
  unfold writeFraction
  split_ifs
  · exact undigit_cons (by decide)
  · exact hpoint _
  · exact hpoint _
  · exact hpoint _

/-- A date-time that is written is put together from the same parts when it is read. -/
theorem read_write (t : DateTime) :
    read (write t) = assemble (CivilDate.ofDayNumber t.dayNumber) (t.secondOfDay / 3600)
      (t.secondOfDay / 60 % 60) (t.secondOfDay % 60 + leapSecond t) (t.nanos % 1000000000) 0 := by
  have hday_lt := (secondOfDay_lt t).1
  obtain ⟨hmonth, hmonth', hday, hday'⟩ := CivilDate.ofDayNumber_range t.dayNumber
  have hzone : readZone (['Z'].dropWhile isBlankChar) = some (0, []) := by decide
  have hsecond : t.secondOfDay % 60 + leapSecond t ≤ 60 := by
    unfold leapSecond
    split <;> omega
  have hnanos : t.nanos % 1000000000 < 1000000000 := Nat.mod_lt _ (by decide)
  unfold read
  rw [toList_write, readYear_writeYear _ (undigit_cons (by decide))]
  dsimp only [Option.bind_eq_bind, Option.bind_some]
  rw [mark_cons (by decide), Option.bind_some,
    field_zeroPadded hmonth hmonth' (by omega) (undigit_cons (by decide)), Option.bind_some]
  dsimp only
  rw [mark_cons (by decide), Option.bind_some,
    field_zeroPadded hday hday' (by omega) (undigit_cons (by decide)), Option.bind_some]
  dsimp only
  rw [if_pos (by decide)]
  rw [field_zeroPadded (Nat.zero_le _) (by omega) (by omega) (undigit_cons (by decide)),
    Option.bind_some]
  dsimp only
  rw [mark_cons (by decide), Option.bind_some,
    field_zeroPadded (Nat.zero_le _) (by omega) (by omega) (undigit_cons (by decide)),
    Option.bind_some]
  dsimp only
  rw [mark_cons (by decide), Option.bind_some,
    field_zeroPadded (Nat.zero_le _) hsecond (by omega) (undigit_writeFraction _),
    Option.bind_some]
  dsimp only
  rw [readFraction_writeFraction hnanos (undigit_cons (by decide)) (by simp), Option.bind_some]
  dsimp only
  rw [hzone, Option.bind_some]
  rfl

/-- What is put together from the parts of a date-time is the date-time, if it has a date. -/
theorem assemble_parts {t : DateTime} (h : t.Writable) :
    assemble (CivilDate.ofDayNumber t.dayNumber) (t.secondOfDay / 3600)
      (t.secondOfDay / 60 % 60) (t.secondOfDay % 60 + leapSecond t) (t.nanos % 1000000000) 0 =
      if (CivilDate.ofDayNumber t.dayNumber).isValid then
        (DateTime.ofSeconds? t.seconds).map fun u => ⟨u.seconds, t.nanos⟩
      else none := by
  obtain ⟨hlt, hseconds⟩ := secondOfDay_lt t
  have hleap : (if (t.secondOfDay % 60 + leapSecond t == 60) = true then 1 else 0) =
      leapSecond t := by
    simp only [beq_iff_eq, second_eq_sixty_iff h]
    rfl
  have hnanos : t.nanos % 1000000000 + leapSecond t * 1000000000 = t.nanos := by
    have hbound := h.nanos
    unfold leapSecond
    split <;> omega
  have hlocal : (CivilDate.ofDayNumber t.dayNumber).dayNumber * 86400 +
      ((t.secondOfDay / 3600 * 3600 + t.secondOfDay / 60 % 60 * 60 +
        (t.secondOfDay % 60 + leapSecond t) - leapSecond t : Nat) : Int) - 0 = t.seconds := by
    rw [CivilDate.dayNumber_ofDayNumber]
    omega
  unfold assemble
  rw [hleap]
  dsimp only
  rw [hlocal, hnanos]
  simp

/-- **A date-time that is read again is the one that was written.** -/
theorem eq_of_read_write {t u : DateTime} (h : t.Writable)
    (hread : read (write t) = some u) : u = t := by
  rw [read_write, assemble_parts h] at hread
  split at hread
  · obtain ⟨v, hv, rfl⟩ := Option.map_eq_some_iff.mp hread
    rw [(DateTime.eq_of_ofSeconds? hv).1]
  · exact absurd hread (by simp)

/-- A date-time is read again if its year is one that dates are kept for. -/
theorem read_write_self {t : DateTime} (h : t.Writable) (hfirst : DateTime.firstSecond ≤ t.seconds)
    (hlast : t.seconds ≤ DateTime.lastSecond) : read (write t) = some t := by
  obtain ⟨hlt, hseconds⟩ := secondOfDay_lt t
  have hvalid : (CivilDate.ofDayNumber t.dayNumber).isValid = true := by
    unfold DateTime.firstSecond DateTime.secondsPerDay at hfirst
    unfold DateTime.lastSecond DateTime.secondsPerDay at hlast
    exact CivilDate.isValid_ofDayNumber (by omega) (by omega)
  rw [read_write, assemble_parts h, if_pos hvalid, DateTime.ofSeconds?, if_pos ⟨hfirst, hlast⟩]
  rfl

end Rfc3339

end FeedPoller
