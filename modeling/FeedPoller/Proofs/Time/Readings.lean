/-
Date-times that are read from text.

The reader takes numbers in many layouts, but none that is out of its range: the second is at most
the sixtieth, the part of a second is less than a whole one, and a zone is off by whole minutes.  So
a sixtieth second is still the last of its minute in UTC, where it is kept, and every
date-time that is read has a text of its own, in a year that dates are kept for.
-/
import FeedPoller.Proofs.Time.Rfc3339

namespace FeedPoller

/-- A date-time with a text of its own, in one of the years that dates are kept for. -/
structure DateTime.Dated (t : DateTime) : Prop where
  writable : t.Writable
  range : DateTime.firstSecond ≤ t.seconds ∧ t.seconds ≤ DateTime.lastSecond

namespace Rfc3339

variable {cs rest : List Char} {n : Nat}

/-! ### The range of each part -/

theorem foldl_digits_lt (hcs : ∀ c ∈ cs, c.isDigit = true) {init width : Nat}
    (hinit : init < Nat.pow 10 width) :
    cs.foldl (fun n c => n * 10 + (c.toNat - '0'.toNat)) init < Nat.pow 10 (width + cs.length) := by
  induction cs generalizing init width with
  | nil => exact hinit
  | cons c cs ih =>
      have hdigit : c.toNat - '0'.toNat ≤ 9 := by
        have hbounds := Text.toNat_of_isDigit (hcs c (by simp))
        have hzero : '0'.toNat = 48 := rfl
        omega
      have hnext : init * 10 + (c.toNat - '0'.toNat) < Nat.pow 10 (width + 1) := by
        have hpow : Nat.pow 10 (width + 1) = Nat.pow 10 width * 10 := rfl
        omega
      have hrest := ih (fun d hd => hcs d (by simp [hd])) hnext
      rwa [Nat.add_right_comm] at hrest

/-- A number is less than the power of ten that has as many zeros as digits were taken. -/
theorem number_lt {limit : Nat} (h : number limit cs = some (n, rest)) :
    n < Nat.pow 10 (min limit (cs.takeWhile Char.isDigit).length) := by
  unfold number at h
  dsimp only at h
  split at h
  · exact absurd h (by simp)
  · obtain ⟨rfl, -⟩ : _ = n ∧ _ := by simpa using h
    have hdigits : ∀ c ∈ (cs.takeWhile Char.isDigit).take limit, c.isDigit = true :=
      fun c hc => List.mem_takeWhile_imp (List.mem_of_mem_take hc)
    have hlt := foldl_digits_lt hdigits (show 0 < Nat.pow 10 0 by decide)
    rwa [Nat.zero_add, List.length_take] at hlt

/-- The part of a second is no whole second, for it has nine digits at the most. -/
theorem readFraction_lt (h : readFraction cs = some (n, rest)) : n < 1000000000 := by
  unfold readFraction at h
  split at h
  · next digits =>
      obtain ⟨⟨m, rest'⟩, hnumber, h⟩ := Option.map_eq_some_iff.mp h
      obtain ⟨rfl, -⟩ : _ = n ∧ _ := by simpa using h
      obtain ⟨width, hwidth⟩ : ∃ width, width = min 9 (digits.takeWhile Char.isDigit).length :=
        ⟨_, rfl⟩
      have hlt := number_lt hnumber
      rw [← hwidth] at hlt ⊢
      have hle : width ≤ 9 := hwidth ▸ Nat.min_le_left _ _
      calc m * Nat.pow 10 (9 - width)
          < Nat.pow 10 width * Nat.pow 10 (9 - width) :=
            Nat.mul_lt_mul_of_pos_right hlt (Nat.pow_pos (by decide))
        _ = Nat.pow 10 (width + (9 - width)) := (Nat.pow_add 10 width (9 - width)).symm
        _ = 1000000000 := by rw [Nat.add_sub_cancel' hle]
  · obtain ⟨rfl, -⟩ : 0 = n ∧ _ := by simpa using h
    exact Nat.succ_pos _

theorem readOffsetSize_minutes (h : readOffsetSize cs = some (n, rest)) : n % 60 = 0 := by
  unfold readOffsetSize at h
  obtain ⟨⟨hours, rest'⟩, -, h⟩ := Option.bind_eq_some_iff.mp h
  obtain ⟨⟨minutes, rest''⟩, -, h⟩ := Option.bind_eq_some_iff.mp h
  dsimp only at h
  split at h
  · obtain ⟨rfl, -⟩ : _ = n ∧ _ := by simpa using h
    omega
  · exact absurd h (by simp)

/-- A zone is off by whole minutes. -/
theorem readZone_minutes {offset : Int} (h : readZone cs = some (offset, rest)) :
    offset % 60 = 0 := by
  have hsize : ∀ {sign : Int} {digits : List Char}, sign = 1 ∨ sign = -1 →
      (readOffsetSize digits).map (fun p => (sign * (p.1 : Int), p.2)) = some (offset, rest) →
        offset % 60 = 0 := by
    intro sign digits hsign h
    obtain ⟨⟨n, rest'⟩, hread, h⟩ := Option.map_eq_some_iff.mp h
    obtain ⟨rfl, -⟩ : _ = offset ∧ _ := by simpa using h
    have hminutes := readOffsetSize_minutes hread
    rcases hsign with rfl | rfl <;> omega
  unfold readZone at h
  split at h
  · obtain ⟨rfl, -⟩ : 0 = offset ∧ _ := by simpa using h
    rfl
  · obtain ⟨rfl, -⟩ : 0 = offset ∧ _ := by simpa using h
    rfl
  · exact hsize (Or.inl rfl) (by simpa using h)
  · exact hsize (Or.inr rfl) (by simpa using h)
  · exact hsize (Or.inr rfl) (by simpa using h)
  · split at h
    · obtain ⟨rfl, -⟩ : 0 = offset ∧ _ := by simpa using h
      rfl
    · exact absurd h (by simp)
  · exact absurd h (by simp)

/-! ### Whole date-times -/

theorem dated_assemble {date : CivilDate} {hour minute second nanos : Nat} {offset : Int}
    {t : DateTime} (hnanos : nanos < 1000000000) (hoffset : offset % 60 = 0)
    (h : assemble date hour minute second nanos offset = some t) : t.Dated := by
  unfold assemble at h
  split at h
  · obtain ⟨u, hu, rfl⟩ := Option.map_eq_some_iff.mp h
    obtain ⟨rfl, hrange⟩ := DateTime.eq_of_ofSeconds? hu
    refine ⟨⟨?_, fun hleap => ?_⟩, hrange⟩
    · dsimp only
      split <;> omega
    · have hsixty : second = 60 := by
        dsimp only at hleap
        split at hleap
        · next hsixty => exact beq_iff_eq.mp hsixty
        · omega
      subst hsixty
      have hmod := secondOfDay_mod
        ⟨date.dayNumber * 86400 + (hour * 3600 + minute * 60 + 60 - 1 : Nat) - offset,
          nanos + 1 * 1000000000⟩
      dsimp only at hmod
      have hlast : (date.dayNumber * 86400 + (hour * 3600 + minute * 60 + 60 - 1 : Nat) -
          offset) % 60 = 59 := by omega
      exact Int.ofNat_inj.mp (hmod.trans hlast)
  · exact absurd h (by simp)

/-- Every date-time that is read has a text of its own, in a year that dates are kept for. -/
theorem dated_of_read {s : String} {t : DateTime} (h : read s = some t) : t.Dated := by
  unfold read at h
  obtain ⟨⟨year, rest⟩, -, h⟩ := Option.bind_eq_some_iff.mp h
  obtain ⟨rest, -, h⟩ := Option.bind_eq_some_iff.mp h
  obtain ⟨⟨month, rest⟩, -, h⟩ := Option.bind_eq_some_iff.mp h
  obtain ⟨rest, -, h⟩ := Option.bind_eq_some_iff.mp h
  obtain ⟨⟨day, rest⟩, -, h⟩ := Option.bind_eq_some_iff.mp h
  dsimp only at h
  split at h
  · split at h
    · obtain ⟨rest, -, h⟩ := Option.bind_eq_some_iff.mp h
      obtain ⟨⟨hour, rest⟩, -, h⟩ := Option.bind_eq_some_iff.mp h
      obtain ⟨rest, -, h⟩ := Option.bind_eq_some_iff.mp h
      obtain ⟨⟨minute, rest⟩, -, h⟩ := Option.bind_eq_some_iff.mp h
      obtain ⟨rest, -, h⟩ := Option.bind_eq_some_iff.mp h
      obtain ⟨⟨second, rest⟩, -, h⟩ := Option.bind_eq_some_iff.mp h
      obtain ⟨⟨nanos, rest⟩, hfraction, h⟩ := Option.bind_eq_some_iff.mp h
      obtain ⟨⟨offset, rest⟩, hzone, h⟩ := Option.bind_eq_some_iff.mp h
      dsimp only at h
      split at h
      · exact dated_assemble (readFraction_lt hfraction) (readZone_minutes hzone) h
      · exact absurd h (by simp)
    · exact absurd h (by simp)
  · exact absurd h (by simp)

/-- A date-time that was read is read again from its own text. -/
theorem read_write_of_read {s : String} {t : DateTime} (h : read s = some t) :
    read (write t) = some t :=
  have hdated := dated_of_read h
  read_write_self hdated.writable hdated.range.1 hdated.range.2

end Rfc3339

end FeedPoller
