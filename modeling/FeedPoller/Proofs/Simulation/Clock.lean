/-
The clock of a simulation is a virtual one.

Time in a simulation passes in steps, and each step ends at the next thing that is due.  So
time never passes over the deadline of an armed timer, which is what the start of a run at
its very deadline rests on.
-/
import FeedPoller.Proofs.Poll.Starts
import FeedPoller.Simulation.Tasks

namespace FeedPoller

namespace Instant

theorem earliest?_isSome {t : Instant} : ∀ {l : List Instant}, t ∈ l → (earliest? l).isSome := by
  intro l ht
  cases l with
  | nil => exact absurd ht (by simp)
  | cons a rest =>
      unfold earliest?
      cases earliest? rest with
      | none => rfl
      | some s =>
          dsimp only
          split <;> rfl

/-- The first of some points comes before each of them. -/
theorem earliest?_le {s t : Instant} : ∀ {l : List Instant}, earliest? l = some s → t ∈ l →
    s ≤ t := by
  intro l
  induction l generalizing s with
  | nil => intro _ ht; exact absurd ht (by simp)
  | cons a rest ih =>
      intro hs ht
      have hrefl : ∀ u : Instant, u ≤ u := fun u => Nat.le_refl u.nanos
      unfold earliest? at hs
      cases hf : earliest? rest with
      | none =>
          rw [hf] at hs
          obtain rfl : a = s := Option.some.inj hs
          rcases List.mem_cons.mp ht with rfl | ht
          · exact hrefl t
          · have hsome := earliest?_isSome ht
            rw [hf] at hsome
            exact absurd hsome (by simp)
      | some u =>
          rw [hf] at hs
          dsimp only at hs
          by_cases hlt : u < a
          · rw [if_pos hlt] at hs
            obtain rfl : u = s := Option.some.inj hs
            rcases List.mem_cons.mp ht with rfl | ht
            · exact Nat.le_of_lt hlt
            · exact ih hf ht
          · rw [if_neg hlt] at hs
            obtain rfl : a = s := Option.some.inj hs
            rcases List.mem_cons.mp ht with rfl | ht
            · exact hrefl t
            · exact Nat.le_trans (Nat.le_of_not_lt hlt) (ih hf ht)

/-- The first of some points is one of them. -/
theorem earliest?_mem {s : Instant} : ∀ {l : List Instant}, earliest? l = some s → s ∈ l := by
  intro l
  induction l generalizing s with
  | nil => exact fun hs => absurd hs (by simp [earliest?])
  | cons a rest ih =>
      intro hs
      unfold earliest? at hs
      cases hf : earliest? rest with
      | none =>
          rw [hf] at hs
          exact Option.some.inj hs ▸ List.mem_cons_self
      | some u =>
          rw [hf] at hs
          dsimp only at hs
          split at hs
          · exact Option.some.inj hs ▸ List.mem_cons_of_mem a (ih hf)
          · exact Option.some.inj hs ▸ List.mem_cons_self

end Instant

/-! ### Time that passes in two parts -/

theorem DateTime.later_later (t : DateTime) (d d' : Duration) :
    (t.later d).later d' = t.later ⟨d.nanos + d'.nanos⟩ := by
  simp only [DateTime.later, DateTime.mk.injEq]
  omega

theorem Clock.advance_advance (c : Clock) (d d' : Duration) :
    (c.advance d).advance d' = c.advance ⟨d.nanos + d'.nanos⟩ := by
  simp only [Clock.advance, DateTime.later_later, Instant.later, Nat.add_assoc]

namespace Simulation.World

variable {w : World} {t : Timer} {target : Instant}

/-- When things are due, timers and tasks. -/
def dues (w : World) : List Instant :=
  (if w.system.alive then w.system.coordinator.timers.map (·.deadline) else []) ++
    w.waiting.map (·.due)

/-- Time stops no later than the first thing is due. -/
theorem nextStop_le_of_mem {u : Instant} (hmem : u ∈ w.dues) : w.nextStop target ≤ u := by
  obtain ⟨first, hfirst⟩ := Option.isSome_iff_exists.mp (Instant.earliest?_isSome hmem)
  have hle : first ≤ u := Instant.earliest?_le hfirst hmem
  have hdue : w.nextDue? = some first := hfirst
  unfold nextStop
  rw [hdue]
  dsimp only
  split
  · exact hle
  · next hnot => exact Nat.le_trans (Nat.le_of_not_le hnot) hle

/-- Time stops no later than at the first deadline. -/
theorem nextStop_le (h : w.system.Sound) (ht : t ∈ w.system.coordinator.timers) :
    w.nextStop target ≤ t.deadline := by
  have halive : w.system.alive = true := by
    obtain ⟨r, hr, -⟩ := h.tidy.owner t ht
    exact h.alive hr
  refine nextStop_le_of_mem (List.mem_append_left _ ?_)
  rw [if_pos halive]
  exact List.mem_map_of_mem ht

/-- Time stops no later than when a task is due. -/
theorem nextStop_le_wait {k : Wait} (hk : k ∈ w.waiting) : w.nextStop target ≤ k.due :=
  nextStop_le_of_mem (List.mem_append_right _ (List.mem_map_of_mem hk))

/-- Time that passes in a simulation passes no deadline. -/
theorem elapse_punctual (h : w.system.Sound) (hlt : w.now < w.nextStop target) :
    w.system.Punctual (.elapse ⟨(w.nextStop target).nanos - w.now.nanos⟩) := by
  intro t ht
  have hstop : w.system.now.later ⟨(w.nextStop target).nanos - w.now.nanos⟩ =
      w.nextStop target := by
    have hle : w.system.now.nanos ≤ (w.nextStop target).nanos := Nat.le_of_lt hlt
    show Instant.mk _ = _
    congr 1
    exact Nat.add_sub_cancel' hle
  rw [hstop]
  exact Instant.millisUp_mono (nextStop_le h ht)

/-! ### On the way to a point in time -/

/-- The world when time has passed and nothing has had its turn. -/
def pass (w : World) (d : Duration) : World := { w with system := w.system.elapse d }

theorem pass_pass (w : World) (d d' : Duration) :
    (w.pass d).pass d' = w.pass ⟨d.nanos + d'.nanos⟩ := by
  simp only [pass, System.elapse, Clock.advance_advance]

theorem pass_now (w : World) (d : Duration) : (w.pass d).now = w.now.later d := rfl

/-- What waits does so while time passes, so the next stop is the same. -/
theorem nextStop_pass (w : World) (d : Duration) : (w.pass d).nextStop target = w.nextStop target :=
  rfl

theorem nextStop_le_target : w.nextStop target ≤ target := by
  unfold nextStop
  have hrefl : target ≤ target := Nat.le_refl target.nanos
  split
  · split
    · assumption
    · exact hrefl
  · exact hrefl

/-- Where time stops next something is due, unless it is the point that it is on its way to. -/
theorem nextStop_cases (w : World) (target : Instant) : w.nextStop target = target ∨
    (∃ t ∈ w.system.coordinator.timers, w.nextStop target = t.deadline) ∨
      ∃ k ∈ w.waiting, w.nextStop target = k.due := by
  unfold nextStop
  cases hdue : w.nextDue? with
  | none => exact Or.inl rfl
  | some u =>
      dsimp only
      split
      · right
        rcases List.mem_append.mp (Instant.earliest?_mem hdue) with hmem | hmem
        · split at hmem
          · obtain ⟨t, ht, e⟩ := List.mem_map.mp hmem
            exact Or.inl ⟨t, ht, e.symm⟩
          · exact absurd hmem (by simp)
        · obtain ⟨k, hk, e⟩ := List.mem_map.mp hmem
          exact Or.inr ⟨k, hk, e.symm⟩
      · exact Or.inl rfl

/-- Time has come to a point, and nothing is left to be done there. -/
def Arrived (w : World) (target : Instant) : Prop := w.turn? = none ∧ target ≤ w.now

theorem playUntil_turn {u : World} (h : w.turn? = some u) (fuel : Nat) :
    playUntil target (fuel + 1) w = playUntil target fuel u := by
  rw [playUntil, h]

theorem playUntil_stop (h : w.turn? = none) (hlt : w.now < w.nextStop target) (fuel : Nat) :
    playUntil target (fuel + 1) w
      = playUntil target fuel (w.pass ⟨(w.nextStop target).nanos - w.now.nanos⟩) := by
  rw [playUntil, h]
  exact if_pos hlt

/-- Who has arrived stays. -/
theorem playUntil_arrived (h : w.Arrived target) (fuel : Nat) : playUntil target fuel w = w := by
  cases fuel with
  | zero => rfl
  | succ fuel =>
      have hnot : ¬ w.now < w.nextStop target :=
        Nat.not_lt.mpr (Nat.le_trans nextStop_le_target h.2)
      rw [playUntil, h.1]
      exact if_neg hnot

/-- Whoever arrives with some fuel had either arrived before or had fuel left. -/
theorem fuel_of_arrived {fuel : Nat} (h : (playUntil target fuel w).Arrived target)
    (hnot : ¬ w.Arrived target) : ∃ rest, fuel = rest + 1 := by
  cases fuel with
  | zero => exact absurd h hnot
  | succ rest => exact ⟨rest, rfl⟩

theorem playUntil_add (fuel more : Nat) (w : World) :
    playUntil target (fuel + more) w = playUntil target more (playUntil target fuel w) := by
  induction fuel generalizing w with
  | zero => rw [Nat.zero_add]; rfl
  | succ fuel ih =>
      rw [Nat.add_right_comm]
      cases hturn : w.turn? with
      | some u => rw [playUntil_turn hturn, playUntil_turn hturn, ih]
      | none =>
          by_cases hlt : w.now < w.nextStop target
          · rw [playUntil_stop hturn hlt, playUntil_stop hturn hlt, ih]
          · -- Nothing is left to be done, with however much fuel.
            have hstuck : ∀ fuel, playUntil target fuel w = w := by
              intro fuel
              cases fuel with
              | zero => rfl
              | succ fuel =>
                  rw [playUntil, hturn]
                  exact if_neg hlt
            rw [hstuck, hstuck, hstuck]

/-- It does not matter with how much fuel one arrives. -/
theorem playUntil_unique {fuel fuel' : Nat} (ha : (playUntil target fuel w).Arrived target)
    (ha' : (playUntil target fuel' w).Arrived target) :
    playUntil target fuel w = playUntil target fuel' w := by
  have hmore : ∀ {fuel : Nat}, (playUntil target fuel w).Arrived target → ∀ more,
      playUntil target (fuel + more) w = playUntil target fuel w := by
    intro fuel ha more
    rw [playUntil_add, playUntil_arrived ha]
  rcases Nat.le_total fuel fuel' with hle | hle
  · rw [← hmore ha (fuel' - fuel), Nat.add_sub_cancel' hle]
  · rw [← hmore ha' (fuel - fuel'), Nat.add_sub_cancel' hle]

end Simulation.World

end FeedPoller
