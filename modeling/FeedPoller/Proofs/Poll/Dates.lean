/-
The dates of finished runs.

A run that ends is dated by the wall clock, and so is a report.  The wall clock never shows a
leap second unless it did so at the beginning, and it never goes back.  So no date that is found
anywhere is a leap second, and each of them lies between the beginning and the present.
-/
import FeedPoller.Proofs.Poll.History
import FeedPoller.Proofs.Time.Rfc3339

namespace FeedPoller

/-- The last run of a registration has an ordinary date. -/
def Registration.Dated (r : Registration) : Prop := ∀ t, r.lastCompletedAt = some t → t.Ordinary

/-- A date that a clock which now shows `wall` can have shown, since dates are kept. -/
structure DateTime.Shown (wall t : DateTime) : Prop where
  ordinary : t.Ordinary
  first : DateTime.firstSecond ≤ t.seconds
  last : t.seconds ≤ wall.seconds

namespace DateTime

theorem seconds_le_later (t : DateTime) (d : Duration) : t.seconds ≤ (t.later d).seconds :=
  Int.le_add_of_nonneg_right (Int.natCast_nonneg _)

theorem Shown.mono {wall wall' t : DateTime} (h : wall.Shown t)
    (hle : wall.seconds ≤ wall'.seconds) : wall'.Shown t :=
  ⟨h.ordinary, h.first, Int.le_trans h.last hle⟩

end DateTime

namespace System

open Coordinator

variable {s s' : System} {e : Event}

/-- The dates that are there after an event: that of the present, and those that were there. -/
theorem Outcome.date_cases (ho : Outcome s e s') (hs : s.Sound) {r' : Registration} {t : DateTime}
    (hr' : r' ∈ s'.coordinator.registry) (ht : r'.lastCompletedAt = some t) :
    t = s.coordinator.clock.wall ∨ ∃ r ∈ s.coordinator.registry, r.lastCompletedAt = some t := by
  have hlast : ∀ {r : Registration}, r.account = r'.account → r.lastCompletedAt = some t :=
    fun ha => (Registration.eq_of_account (·.lastCompletedAt) (fun _ => rfl) ha).trans ht
  obtain ⟨r, hr, ha | ha⟩ | ⟨r, hr, run, failed, ha⟩ | ⟨o, awaited, -, ha⟩ := ho.origin hs hr'
  · exact Or.inr ⟨r, hr, hlast ha⟩
  · exact Or.inr ⟨r, hr, hlast (r := r.begun) ha⟩
  · have hafter := hlast ha
    unfold Registration.afterRun at hafter
    split at hafter
    · exact Or.inl (Option.some.inj hafter).symm
    · exact Or.inr ⟨r, hr, hafter⟩
  · exact absurd (hlast ha) (by simp [newcomer])

/-- The wall clock does not go back, and shows no leap second that it did not show before. -/
theorem Outcome.wall_cases (ho : Outcome s e s') (hs : s.Sound) :
    s'.coordinator.clock.wall = s.coordinator.clock.wall ∨
      ∃ d, s'.coordinator.clock.wall = s.coordinator.clock.wall.later d := by
  obtain ⟨d, -, hclock⟩ | hclock := ho.clock_cases hs
  · exact Or.inr ⟨d, by rw [hclock]; rfl⟩
  · exact Or.inl (by rw [hclock])

theorem Outcome.wall_le (ho : Outcome s e s') (hs : s.Sound) :
    s.coordinator.clock.wall.seconds ≤ s'.coordinator.clock.wall.seconds := by
  obtain hwall | ⟨d, hwall⟩ := ho.wall_cases hs <;> rw [hwall]
  exact DateTime.seconds_le_later _ d

theorem Outcome.ordinary_wall (ho : Outcome s e s') (hs : s.Sound)
    (h : s.coordinator.clock.wall.Ordinary) : s'.coordinator.clock.wall.Ordinary := by
  obtain hwall | ⟨d, hwall⟩ := ho.wall_cases hs <;> rw [hwall]
  · exact h
  · exact DateTime.ordinary_later _ d

theorem Sound.wall_le_run (hs : s.Sound) (events : List Event) :
    s.coordinator.clock.wall.seconds ≤ (s.run events).coordinator.clock.wall.seconds :=
  hs.invariant (I := fun s' => s.coordinator.clock.wall.seconds ≤ s'.coordinator.clock.wall.seconds)
    (fun hs e h => Int.le_trans h ((hs.outcome e).wall_le hs)) (Int.le_refl _) events

/-! ### Ordinary dates -/

/-- Every date in the system is an ordinary one. -/
structure Dated (s : System) : Prop where
  wall : s.coordinator.clock.wall.Ordinary
  registry : ∀ r ∈ s.coordinator.registry, r.Dated

theorem Outcome.dated (ho : Outcome s e s') (hs : s.Sound) (h : s.Dated) : s'.Dated where
  wall := ho.ordinary_wall hs h.wall
  registry := by
    intro r' hr' t ht
    obtain rfl | ⟨r, hr, hrt⟩ := ho.date_cases hs hr' ht
    · exact h.wall
    · exact h.registry r hr t hrt

theorem Sound.dated_run (hs : s.Sound) (h : s.Dated) (events : List Event) : (s.run events).Dated :=
  hs.invariant (fun hs e h => (hs.outcome e).dated hs h) h events

/-! ### Dates between the beginning and the present -/

/-- Every date in the system has been shown by its wall clock. -/
structure Recorded (s : System) : Prop where
  wall : s.coordinator.clock.wall.Shown s.coordinator.clock.wall
  registry : ∀ r ∈ s.coordinator.registry, ∀ t, r.lastCompletedAt = some t →
    s.coordinator.clock.wall.Shown t

theorem Outcome.recorded (ho : Outcome s e s') (hs : s.Sound) (h : s.Recorded) : s'.Recorded where
  wall := ⟨ho.ordinary_wall hs h.wall.ordinary, Int.le_trans h.wall.first (ho.wall_le hs),
    Int.le_refl _⟩
  registry := by
    intro r' hr' t ht
    obtain rfl | ⟨r, hr, hrt⟩ := ho.date_cases hs hr' ht
    · exact h.wall.mono (ho.wall_le hs)
    · exact (h.registry r hr t hrt).mono (ho.wall_le hs)

theorem Sound.recorded_run (hs : s.Sound) (h : s.Recorded) (events : List Event) :
    (s.run events).Recorded :=
  hs.invariant (fun hs e h => (hs.outcome e).recorded hs h) h events

end System

end FeedPoller
