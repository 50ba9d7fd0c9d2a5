/-
The two directions of the calendar.

A day number goes to a date and back to the same day number.  Both directions agree about cycles of
four centuries and about the months within a year; what has to be shown is that the year that a
day of a cycle is given is the one it lies in.  That year is computed by one division, after one
day has been taken off for every four years and given back for every century.  Here the day
is taken apart into centuries, spans of four years, years and days, and the division is
seen to find the same years.
-/
import FeedPoller.Time.Calendar
import Mathlib.Tactic.IntervalCases

namespace FeedPoller.CivilDate

/-- The year of a cycle that a day of it is given. -/
def yearOfDay (day : Nat) : Nat := (day - day / 1460 + day / 36524 - day / 146096) / 365

/--
A day of a cycle, taken apart into centuries, spans of four years, years and days.  Only the last
year of a span has a day more, and that of a century only in the last one.
-/
theorem split_cycle {day : Nat} (h : day < 146097) :
    ∃ centuries spans years days, day = 36524 * centuries + 1461 * spans + 365 * years + days ∧
      centuries ≤ 3 ∧ spans ≤ 24 ∧ years ≤ 3 ∧ days ≤ 365 ∧
      (days = 365 → years = 3 ∧ (spans < 24 ∨ centuries = 3)) ∧
      yearOfDay day = 100 * centuries + 4 * spans + years := by
  by_cases hlast : day = 146096
  · exact ⟨3, 24, 3, 365, by omega, by omega, by omega, by omega, by omega, by omega, by
      rw [hlast]; rfl⟩
  · obtain ⟨c, g, r, rfl, hc, hg, hr, hwithin⟩ : ∃ c g r, day = 36524 * c + 1461 * g + r ∧
        c ≤ 3 ∧ g ≤ 24 ∧ r < 1461 ∧ 1461 * g + r < 36524 :=
      ⟨day / 36524, day % 36524 / 1461, day % 36524 % 1461, by omega, by omega, by omega,
        by omega, by omega⟩
    have hcentury : (36524 * c + 1461 * g + r) / 36524 = c := by omega
    have hcycle : (36524 * c + 1461 * g + r) / 146096 = 0 := by omega
    -- the day that was taken off too much is missed only behind the last day of a span
    by_cases hoff : 24 * c + g + r < 1460
    · have hspan : (36524 * c + 1461 * g + r) / 1460 = 25 * c + g := by omega
      refine ⟨c, g, r / 365, r % 365, by omega, hc, hg, by omega, by omega, by omega, ?_⟩
      unfold yearOfDay
      rw [hcentury, hcycle, hspan]
      omega
    · have hspan : (36524 * c + 1461 * g + r) / 1460 = 25 * c + g + 1 := by omega
      refine ⟨c, g, (r - 1) / 365, r - 365 * ((r - 1) / 365), by omega, hc, hg, by omega, by omega,
        by omega, ?_⟩
      unfold yearOfDay
      rw [hcentury, hcycle, hspan]
      omega

/-- The date of a day of a year that begins in March. -/
def ofMarch (year : Int) (day : Nat) : CivilDate :=
  let month := (5 * day + 2) / 153
  let civil := if month < 10 then month + 3 else month - 9
  ⟨if civil ≤ 2 then year + 1 else year, civil, day - (153 * month + 2) / 5 + 1⟩

theorem ofMarch_range (year : Int) {day : Nat} (h : day ≤ 365) :
    1 ≤ (ofMarch year day).month ∧ (ofMarch year day).month ≤ 12 ∧
      1 ≤ (ofMarch year day).day ∧ (ofMarch year day).day ≤ 31 := by
  unfold ofMarch
  dsimp only
  split <;> omega

theorem dayNumber_ofMarch {cycle : Int} {year day : Nat} (hyear : year < 400) (h : day ≤ 365) :
    (ofMarch ((year : Int) + cycle * 400) day).dayNumber
      = cycle * 146097 + ((year : Int) * 365 + year / 4 - year / 100 + day) - 719468 := by
  obtain ⟨month, hmonth⟩ : ∃ month, month = (5 * day + 2) / 153 := ⟨_, rfl⟩
  have hmarch : ∀ y : Int, (if (if month < 10 then month + 3 else month - 9) ≤ 2 then
      (if (if month < 10 then month + 3 else month - 9) ≤ 2 then y + 1 else y) - 1
      else if (if month < 10 then month + 3 else month - 9) ≤ 2 then y + 1 else y) = y := by
    intro y
    split <;> omega
  have hcycle : ((year : Int) + cycle * 400).fdiv 400 = cycle := by
    rw [Int.fdiv_eq_ediv_of_nonneg _ (by decide)]
    omega
  have hback : ((if month < 10 then month + 3 else month - 9) + 9) % 12 = month := by
    split <;> omega
  unfold ofMarch dayNumber
  dsimp only
  rw [← hmonth, hmarch, hcycle, hback, Int.add_sub_cancel]
  omega

/--
Every day number belongs to a day of a year that begins in March, and to the 366th only if the next
year is a leap year.
-/
theorem ofDayNumber_eq_ofMarch (n : Int) : ∃ (cycle : Int) (year day : Nat),
    ofDayNumber n = ofMarch ((year : Int) + cycle * 400) day ∧ year < 400 ∧ day ≤ 365 ∧
      (day = 365 → isLeapYear ((year : Int) + cycle * 400 + 1) = true) ∧
      n = cycle * 146097 + ((year : Int) * 365 + year / 4 - year / 100 + day) - 719468 := by
  obtain ⟨cycle, day, hcycle, hday⟩ : ∃ (cycle : Int) (day : Nat),
      n + 719468 = cycle * 146097 + day ∧ day < 146097 :=
    ⟨(n + 719468) / 146097, ((n + 719468) % 146097).toNat, by omega, by omega⟩
  have hfdiv : (n + 719468).fdiv 146097 = cycle := by
    rw [Int.fdiv_eq_ediv_of_nonneg _ (by decide)]
    omega
  have htoNat : (n + 719468 - cycle * 146097).toNat = day := by omega
  obtain ⟨c, g, s, t, hsplit, hc, hg, hs, ht, hleap, hyear⟩ := split_cycle hday
  have hfourth : (100 * c + 4 * g + s) / 4 = 25 * c + g := by omega
  have hcentury : (100 * c + 4 * g + s) / 100 = c := by omega
  have hofYear : day - (365 * yearOfDay day + yearOfDay day / 4 - yearOfDay day / 100) = t := by
    rw [hyear, hfourth, hcentury]
    omega
  refine ⟨cycle, yearOfDay day, t, ?_, by omega, ht, fun h365 => ?_, ?_⟩
  · rw [← hofYear, ← htoNat, ← hfdiv]
    rfl
  · obtain ⟨hthird, hspan⟩ := hleap h365
    rw [hyear]
    simp only [isLeapYear, Bool.or_eq_true, Bool.and_eq_true, beq_iff_eq, bne_iff_ne]
    omega
  · have hfourth' : ((100 * c + 4 * g + s : Nat) : Int) / 4 = 25 * c + g := by omega
    have hcentury' : ((100 * c + 4 * g + s : Nat) : Int) / 100 = c := by omega
    rw [hyear, hfourth', hcentury']
    omega

/-- The date of a day number has that day number. -/
theorem dayNumber_ofDayNumber (n : Int) : (ofDayNumber n).dayNumber = n := by
  obtain ⟨cycle, year, day, hdate, hyear, hday, -, hn⟩ := ofDayNumber_eq_ofMarch n
  rw [hdate, dayNumber_ofMarch hyear hday, ← hn]

theorem ofDayNumber_range (n : Int) : 1 ≤ (ofDayNumber n).month ∧ (ofDayNumber n).month ≤ 12 ∧
    1 ≤ (ofDayNumber n).day ∧ (ofDayNumber n).day ≤ 31 := by
  obtain ⟨cycle, year, day, hdate, -, hday, -, -⟩ := ofDayNumber_eq_ofMarch n
  rw [hdate]
  exact ofMarch_range _ hday

/-! ### Dates that there are -/

/-- No day of a year that begins in March is behind the end of its month. -/
theorem ofMarch_day_le {year : Int} {day : Nat} (h : day ≤ 365)
    (hleap : day = 365 → isLeapYear (year + 1) = true) :
    (ofMarch year day).day ≤ daysInMonth (ofMarch year day).year (ofMarch year day).month := by
  obtain ⟨month, hmonth⟩ : ∃ month, month = (5 * day + 2) / 153 := ⟨_, rfl⟩
  have hlt : month < 12 := by omega
  unfold ofMarch
  dsimp only
  rw [← hmonth]
  by_cases hfebruary : month = 11
  · subst hfebruary
    show day - 337 + 1 ≤ if isLeapYear (year + 1) then 29 else 28
    by_cases hlast : day = 365
    · rw [if_pos (hleap hlast)]
      omega
    · split <;> omega
  · have hlength : ∀ (y : Int) (month : Nat), month < 11 →
        (153 * (month + 1) + 2) / 5 - (153 * month + 2) / 5 ≤
          daysInMonth y (if month < 10 then month + 3 else month - 9) := by
      intro y month hmonth
      interval_cases month <;> simp [daysInMonth]
    have hend : day < (153 * (month + 1) + 2) / 5 := by omega
    refine Nat.le_trans ?_ (hlength _ month (by omega))
    omega

/-- The date of a day in one of the years that dates are kept for is a date that there is. -/
theorem isValid_ofDayNumber {n : Int} (hfirst : dayNumber ⟨firstYear, 1, 1⟩ ≤ n)
    (hlast : n ≤ dayNumber ⟨lastYear, 12, 31⟩) : (ofDayNumber n).isValid = true := by
  obtain ⟨hmonth, hmonth', hday, -⟩ := ofDayNumber_range n
  obtain ⟨cycle, year, day, hdate, hyear, hle, hleap, hn⟩ := ofDayNumber_eq_ofMarch n
  have hlow : (-96465292 : Int) ≤ n := hfirst
  have hhigh : n ≤ 95026236 := hlast
  have hwithin := ofMarch_day_le hle hleap
  have hcycle : -656 ≤ cycle ∧ cycle ≤ 655 := by omega
  -- the first of January -262143 and the last of December 262142, as days of years from March
  have hlower : cycle = -656 → 256 < year ∨ (year = 256 ∧ 306 ≤ day) := by
    rintro rfl
    omega
  have hupper : cycle = 655 → year < 142 ∨ (year = 142 ∧ day ≤ 305) := by
    rintro rfl
    omega
  have hyears : firstYear ≤ (ofMarch ((year : Int) + cycle * 400) day).year ∧
      (ofMarch ((year : Int) + cycle * 400) day).year ≤ lastYear := by
    unfold ofMarch firstYear lastYear
    dsimp only
    split <;> split <;> omega
  rw [← hdate] at hwithin hyears
  simp only [isValid, Bool.and_eq_true, decide_eq_true_eq]
  exact ⟨⟨⟨⟨hyears, hmonth⟩, hmonth'⟩, hday⟩, hwithin⟩

end FeedPoller.CivilDate
