/-
Time passes in twins.

On the way to a point in time the two worlds do not keep step: turns of the veiled key are
taken in one and not in the other, and time stops at its timers in one and not in the other.
But between the turns that both take they do the same, so that they are twins again when both
have arrived (`Twins.playUntil`).

The induction is on the fuel of both sides together, since each step spends some on one side
at least.  Where nothing is due on either side, time passes on both up to the earlier of the
two next stops; the side that would have gone on further is then still at rest, and goes on
from there as it would have gone on before.
-/
import FeedPoller.Proofs.Isolation.Tasks
import FeedPoller.Proofs.Simulation.Clock

namespace FeedPoller.Simulation

variable {hidden : String} {w w' : World} {target : Instant}

theorem Twins.pass (h : Twins hidden w w') (d : Duration) : Twins hidden (w.pass d) (w'.pass d) :=
  h.staged (h.stage.elapse d) rfl rfl rfl

/-! ### One of two twins at rest -/

/-- Nothing that waits in a world at rest is due. -/
theorem Twins.not_due (h : Twins hidden w w') (hrest : w.turn? = none) :
    ∀ entry ∈ w.agenda, w.now < entry.due := by
  rw [h.turn?_eq, Option.map_eq_none_iff, List.find?_eq_none] at hrest
  intro entry hmem
  exact Nat.lt_of_not_le fun hle => hrest entry hmem (decide_eq_true hle)

theorem Twins.nextStop_le (h : Twins hidden w w') :
    ∀ entry ∈ w.agenda, w.nextStop target ≤ entry.due := by
  intro entry hmem
  cases entry with
  | timer t =>
      exact World.nextStop_le h.stage.sane.sound (h.stage.coordinators.laid.mem_timers.mpr hmem)
  | wait k => exact World.nextStop_le_wait (h.stage.coordinators.laid.mem_waits.mpr hmem)

theorem Twins.now_lt_nextStop (h : Twins hidden w w') (hrest : w.turn? = none)
    (hlt : w.now < target) : w.now < w.nextStop target := by
  obtain e | ⟨t, ht, e⟩ | ⟨k, hk, e⟩ := w.nextStop_cases target <;> rw [e]
  · exact hlt
  · exact h.not_due hrest (.timer t) (h.stage.coordinators.laid.mem_timers.mp ht)
  · exact h.not_due hrest (.wait k) (h.stage.coordinators.laid.mem_waits.mp hk)

/-- Nothing is due before the next stop. -/
theorem Twins.turn?_pass (h : Twins hidden w w') {d : Duration}
    (hlt : w.now.later d < w.nextStop target) : (w.pass d).turn? = none := by
  rw [(h.pass d).turn?_eq, Option.map_eq_none_iff, List.find?_eq_none]
  intro entry hmem hdue
  have hle : w.nextStop target ≤ entry.due := h.nextStop_le entry hmem
  exact Nat.lt_irrefl _ (Nat.lt_of_lt_of_le hlt (Nat.le_trans hle (of_decide_eq_true hdue)))

/-- A world at rest goes on from a point before its next stop as it would have gone on at once. -/
theorem Twins.playUntil_midway (h : Twins hidden w w') (hrest : w.turn? = none) {d : Duration}
    (hpos : 0 < d.nanos) (hle : w.now.later d ≤ w.nextStop target) (fuel : Nat) :
    ∃ rest ≤ fuel + 1,
      World.playUntil target (fuel + 1) w = World.playUntil target rest (w.pass d) := by
  have hlt : w.now < w.nextStop target :=
    Nat.lt_of_lt_of_le (Nat.lt_add_of_pos_right hpos) hle
  rw [World.playUntil_stop hrest hlt]
  by_cases hstop : w.now.later d < w.nextStop target
  · have hnext : (w.pass d).now < (w.pass d).nextStop target := by
      rw [World.nextStop_pass, World.pass_now]
      exact hstop
    have hgoes := World.playUntil_stop (h.turn?_pass hstop) hnext fuel
    refine ⟨fuel + 1, Nat.le_refl _, ?_⟩
    rw [hgoes, World.pass_pass, World.nextStop_pass, World.pass_now]
    congr 3
    show (w.nextStop target).nanos - w.now.nanos
      = d.nanos + ((w.nextStop target).nanos - (w.now.nanos + d.nanos))
    have : w.now.nanos + d.nanos ≤ (w.nextStop target).nanos := hle
    omega
  · refine ⟨fuel, Nat.le_succ fuel, ?_⟩
    have hd : (w.nextStop target).nanos - w.now.nanos = d.nanos := by
      have hle : w.now.nanos + d.nanos ≤ (w.nextStop target).nanos := hle
      have hnot : ¬ w.now.nanos + d.nanos < (w.nextStop target).nanos := hstop
      omega
    rw [hd]

/-- Time passes on both sides up to the stop that comes first. -/
theorem Twins.rest_step (h : Twins hidden w w') (hrest : w.turn? = none) (hrest' : w'.turn? = none)
    (hlt : w.now < target) (hle : w.nextStop target ≤ w'.nextStop target) (fuel fuel' : Nat) :
    ∃ v v', Twins hidden v v' ∧
      World.playUntil target (fuel + 1) w = World.playUntil target fuel v ∧
      ∃ rest ≤ fuel' + 1,
        World.playUntil target (fuel' + 1) w' = World.playUntil target rest v' := by
  have hstop := h.now_lt_nextStop hrest hlt
  have hpos : 0 < (w.nextStop target).nanos - w.now.nanos := Nat.sub_pos_of_lt hstop
  have hmid : w'.now.later ⟨(w.nextStop target).nanos - w.now.nanos⟩ = w.nextStop target := by
    rw [← h.now]
    show Instant.mk _ = _
    congr 1
    exact Nat.add_sub_cancel' (Nat.le_of_lt hstop)
  exact ⟨_, _, h.pass ⟨(w.nextStop target).nanos - w.now.nanos⟩,
    World.playUntil_stop hrest hstop fuel,
    h.symm.playUntil_midway hrest' hpos (hmid.symm ▸ hle) fuel'⟩

/-! ### Both twins on their way -/

/-- Twins that have both arrived at a point in time are twins there. -/
theorem Twins.playUntil (h : Twins hidden w w') {fuel fuel' : Nat}
    (ha : (World.playUntil target fuel w).Arrived target)
    (ha' : (World.playUntil target fuel' w').Arrived target) :
    Twins hidden (World.playUntil target fuel w) (World.playUntil target fuel' w') := by
  induction hn : fuel + fuel' using Nat.strong_induction_on generalizing w w' fuel fuel' with
  | _ n ih =>
      obtain ⟨u, hu, htwins⟩ | ⟨u', hu', htwins⟩ | ⟨u, u', hu, hu', htwins⟩ | ⟨hrest, hrest'⟩ :=
        h.turn
      · obtain ⟨rest, rfl⟩ := World.fuel_of_arrived ha fun ha => by simp [ha.1] at hu
        rw [World.playUntil_turn hu] at ha ⊢
        exact ih _ (by omega) htwins ha ha' rfl
      · obtain ⟨rest', rfl⟩ := World.fuel_of_arrived ha' fun ha => by simp [ha.1] at hu'
        rw [World.playUntil_turn hu'] at ha' ⊢
        exact ih _ (by omega) htwins ha ha' rfl
      · obtain ⟨rest, rfl⟩ := World.fuel_of_arrived ha fun ha => by simp [ha.1] at hu
        obtain ⟨rest', rfl⟩ := World.fuel_of_arrived ha' fun ha => by simp [ha.1] at hu'
        rw [World.playUntil_turn hu] at ha ⊢
        rw [World.playUntil_turn hu'] at ha' ⊢
        exact ih _ (by omega) htwins ha ha' rfl
      · by_cases hthere : target ≤ w.now
        · rw [World.playUntil_arrived ⟨hrest, hthere⟩,
            World.playUntil_arrived ⟨hrest', h.now ▸ hthere⟩]
          exact h
        · have hlt : w.now < target := Nat.lt_of_not_le hthere
          obtain ⟨rest, rfl⟩ := World.fuel_of_arrived ha fun ha => hthere ha.2
          obtain ⟨rest', rfl⟩ := World.fuel_of_arrived ha' fun ha => hthere (h.now ▸ ha.2)
          rcases Nat.le_total (w.nextStop target).nanos (w'.nextStop target).nanos with hle | hle
          · obtain ⟨v, v', htwins, e, left, hleft, e'⟩ :=
              h.rest_step hrest hrest' hlt hle rest rest'
            rw [e] at ha ⊢
            rw [e'] at ha' ⊢
            exact ih _ (by omega) htwins ha ha' rfl
          · obtain ⟨v', v, htwins, e', left, hleft, e⟩ :=
              h.symm.rest_step hrest' hrest (h.now ▸ hlt) hle rest' rest
            rw [e] at ha ⊢
            rw [e'] at ha' ⊢
            exact ih _ (by omega) htwins.symm ha ha' rfl

end FeedPoller.Simulation
