/-
A timer has its turn.

A timer that goes off has to wait for its turn, and may be cancelled before it comes.  Its
registration may by then have another timer, or be gone, or have been replaced.  `Known`
is what remains true of it through all of that, and `beginRun_cases` draws the conclusion:
either the turn changes nothing at all, or the timer is the one that its registration
remembers, and the registration then lets go of it and begins a run or pauses.
-/
import FeedPoller.Proofs.Poll.Moves

namespace FeedPoller.Coordinator

variable {c c' : Coordinator} {r : Registration} {t u : Timer}

/--
A timer that has been armed and has not had its turn.  It may be cancelled; then its
registration counts more cancellations than the timer carries.
-/
structure Known (c : Coordinator) (t : Timer) : Prop where
  number : t.number < c.armed
  poll : t.poll < c.nextId
  same : ∀ u ∈ c.timers, u.number = t.number → u = t
  epoch : ∀ r ∈ c.registry, r.id = t.poll →
    t.epoch ≤ r.epoch ∧ (t.epoch = r.epoch → r.timer = some t.number)

theorem Tidy.known (h : c.Tidy) (ht : t ∈ c.timers) : c.Known t where
  number := h.numbered t ht
  poll := by
    obtain ⟨r, hr, hid, -⟩ := h.owner t ht
    exact hid ▸ h.fresh r hr
  same := fun _ hu hn => h.number_unique hu ht hn
  epoch := by
    intro r hr hid
    obtain ⟨hrt, hre⟩ := h.remembered ht hr hid
    exact ⟨Nat.le_of_eq hre.symm, fun _ => hrt⟩

theorem Known.advances (h : c.Known t) (ha : Advances c c') : c'.Known t where
  number := Nat.lt_of_lt_of_le h.number ha.armed
  poll := Nat.lt_of_lt_of_le h.poll ha.nextId
  same := by
    intro u hu hn
    rcases ha.timers u hu with hu | ⟨hnew, -⟩
    · exact h.same u hu hn
    · have := h.number
      omega
  epoch := by
    intro r' hr' hid'
    rcases ha.registry r' hr' with hnew | ⟨r, hr, hid, hadv⟩
    · have := h.poll
      omega
    · obtain ⟨hle, himp⟩ := h.epoch r hr (hid.trans hid')
      refine ⟨Nat.le_trans hle hadv.epoch_le, ?_⟩
      intro heq
      cases hadv with
      | same hs => rw [hs] at heq ⊢; exact himp heq
      | replanned hlt => omega
      | idle hs hnone _ =>
          rw [himp (heq.trans hs)] at hnone
          exact absurd hnone (by simp)

/-- A timer that is not cancelled is in the table. -/
theorem Known.mem (h : c.Known t) (ht : c.Tidy) (hr : r ∈ c.registry) (hid : r.id = t.poll)
    (he : r.epoch = t.epoch) : t ∈ c.timers := by
  obtain ⟨u, hu, hn, -⟩ := ht.own r hr _ ((h.epoch r hr hid).2 he.symm)
  exact h.same u hu hn ▸ hu

/-- To strike off the timer that a registration remembers is to stop it. -/
theorem disarm_eq_strike (hn : r.timer = some t.number) : c.disarm r = c.strike t := by
  have hp : ∀ u : Timer, (r.timer != some u.number) = (u.number != t.number) := by
    intro u
    rw [hn, Bool.eq_iff_iff, bne_iff_ne, bne_iff_ne, ne_eq, ne_eq, Option.some.injEq]
    exact not_congr eq_comm
  simp only [disarm, strike, hp]

/-- To strike off a timer that has been cancelled is to do nothing. -/
theorem Known.strike_eq (h : c.Known t) (ht : t ∉ c.timers) : c.strike t = c := by
  have hall : (c.timers.filter fun u => u.number != t.number) = c.timers := by
    refine List.filter_eq_self.mpr fun u hu => ?_
    have hne : u.number ≠ t.number := fun hn => ht (h.same u hu hn ▸ hu)
    simpa using hne
  unfold strike
  rw [hall]

/--
A timer's turn.  Either it comes too late and nothing happens, or the timer is the one that
its registration remembers.
-/
theorem beginRun_cases (h : c.Tidy) (hk : c.Known t) :
    c.beginRun t = (c, none) ∨
    (c.disposed = false ∧ t ∈ c.timers ∧ ∃ r ∈ c.registry, r.id = t.poll ∧
      r.timer = some t.number ∧
      ((r.isPaused c.gates = true ∧ c.beginRun t = ((c.disarm r).put r.skipped, none)) ∨
       (r.isPaused c.gates = false ∧
        c.beginRun t = ((c.disarm r).put r.begun, some r.begun)))) := by
  unfold beginRun
  cases hd : c.disposed with
  | true =>
      have hnot : t ∉ c.timers := by
        intro hmem
        obtain ⟨r, hr, -⟩ := h.owner t hmem
        rw [h.ended hd] at hr
        exact absurd hr (by simp)
      left
      rw [hk.strike_eq hnot]
      simp [hd]
  | false =>
      have hd' : (c.strike t).disposed = false := hd
      have hfind : (c.strike t).findId? t.poll = c.findId? t.poll := rfl
      have hgates : (c.strike t).gates = c.gates := rfl
      simp only [hd', hfind, hgates, Bool.false_eq_true, if_false]
      cases hf : c.findId? t.poll with
      | none =>
          have hnot : t ∉ c.timers := by
            intro hmem
            obtain ⟨r, hr, hid, -⟩ := h.owner t hmem
            exact findId?_none hf hr hid
          left
          rw [hk.strike_eq hnot]
      | some r =>
          obtain ⟨hr, hid⟩ := findId?_mem hf
          by_cases he : r.epoch = t.epoch
          · have hn : r.timer = some t.number := (hk.epoch r hr hid).2 he.symm
            refine Or.inr ⟨trivial, hk.mem h hr hid he, r, hr, hid, hn, ?_⟩
            rw [disarm_eq_strike hn]
            cases hp : r.isPaused c.gates <;> simp [he, hp]
          · have hnot : t ∉ c.timers := fun hmem => he (h.remembered hmem hr hid).2
            left
            rw [hk.strike_eq hnot]
            simp [he]

/-- What becomes of a registration whose timer has had its turn. -/
theorem Tidy.turn (h : c.Tidy) (hr : r ∈ c.registry) {r' : Registration} (hid : r'.id = r.id)
    (hkey : r'.key = r.key) (hnone : r'.timer = none) : ((c.disarm r).put r').Tidy :=
  h.replan hr (.refl r) hid hkey hnone

/-- The turn of one timer is nothing to the others. -/
theorem Known.turn (h : c.Known u) (hr : r ∈ c.registry)
    (hn : r.timer = some t.number) (hne : u.number ≠ t.number) {r' : Registration}
    (hid : r'.id = r.id) (he : r'.epoch = r.epoch) : ((c.disarm r).put r').Known u where
  number := h.number
  poll := h.poll
  same := fun v hv hvn => h.same v (mem_disarm.mp hv).1 hvn
  epoch := by
    intro p hp hpid
    rcases mem_put.mp hp with ⟨hp, -⟩ | ⟨rfl, -⟩
    · exact h.epoch p hp hpid
    · obtain ⟨hle, himp⟩ := h.epoch r hr (hid.symm.trans hpid)
      refine ⟨he ▸ hle, fun heq => ?_⟩
      have := himp (heq.trans he)
      rw [hn] at this
      exact absurd (Option.some.inj this).symm hne

end FeedPoller.Coordinator
