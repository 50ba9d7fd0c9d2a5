/-
What a coordinator has to do at once.

At one point in time a coordinator is kept busy by the timers that are due, and by nothing else:
a turn of a timer uses the timer up, and what is armed after a run is due only after an
interval, which is never empty.  The exception is a run that was asked for while another was
going on.  It may be due as soon as the other ends, but it is asked for only once, so the request
counts for the timer that it may become (`backlog`).
-/
import FeedPoller.Proofs.Poll.Stillness

namespace FeedPoller

/-- Fewer elements have a property than another if one of them has the other only. -/
theorem countP_lt_of_mem {α : Type} {p q : α → Bool} {l : List α} {a : α}
    (h : ∀ x ∈ l, p x = true → q x = true) (ha : a ∈ l) (hp : p a = false) (hq : q a = true) :
    l.countP p < l.countP q := by
  obtain ⟨pre, post, rfl⟩ := List.append_of_mem ha
  have hpre : pre.countP p ≤ pre.countP q :=
    List.countP_mono_left fun x hx => h x (List.mem_append_left _ hx)
  have hpost : post.countP p ≤ post.countP q :=
    List.countP_mono_left fun x hx => h x (List.mem_append_right _ (List.mem_cons_of_mem a hx))
  rw [List.countP_append, List.countP_append, List.countP_cons_of_neg (by simp [hp]),
    List.countP_cons_of_pos hq]
  omega

theorem PollOptions.interval_of_faultless {o : PollOptions} (h : o.fault? = none) :
    o.interval.isZero = false := by
  unfold PollOptions.fault? at h
  cases hz : o.interval.isZero with
  | false => rfl
  | true =>
      rw [hz, if_pos rfl] at h
      split at h <;> exact absurd h (by simp)

namespace Coordinator

variable {c : Coordinator} {r q : Registration} {d : Duration}

/-- Whether the time of a timer has come. -/
def isDue (c : Coordinator) (t : Timer) : Bool := decide (t.deadline ≤ c.clock.now)

/-- How many registrations have been asked for a run while another was going on. -/
def asked (c : Coordinator) : Nat := c.registry.countP (·.pendingDelay.isSome)

/-- The timers that are due, and twice the requests that may become one. -/
def backlog (c : Coordinator) : Nat := c.timers.countP c.isDue + 2 * c.asked

theorem asked_put_eq (hu : c.UniqueIds) (hr : r ∈ c.registry) (hid : q.id = r.id)
    (hq : q.pendingDelay = r.pendingDelay) : (c.put q).asked = c.asked := by
  have hmap := map_put (·.pendingDelay) hu hr hid hq
  have hcount : ∀ l : List Registration, l.countP (·.pendingDelay.isSome)
      = (l.map (·.pendingDelay)).countP Option.isSome := by
    intro l
    rw [List.countP_map]
    rfl
  rw [asked, asked, hcount, hcount, hmap]

/-- A request that is dropped counts no more. -/
theorem asked_put_le (hq : q.pendingDelay = none) : (c.put q).asked ≤ c.asked := by
  rw [asked, asked, put, List.countP_map]
  refine List.countP_mono_left fun x _ hx => ?_
  dsimp only [Function.comp] at hx
  split at hx
  · exact absurd hx (by simp [hq])
  · exact hx

theorem asked_put_lt (hr : r ∈ c.registry) (hid : q.id = r.id) (hq : q.pendingDelay = none)
    (hasked : r.pendingDelay.isSome = true) : (c.put q).asked < c.asked := by
  rw [asked, asked, put, List.countP_map]
  refine countP_lt_of_mem (fun x _ hx => ?_) hr (by simp [hid, hq]) hasked
  dsimp only [Function.comp] at hx
  split at hx
  · exact absurd hx (by simp [hq])
  · exact hx

/-- A run that is asked for makes one timer due at most, and none if it is asked for later. -/
theorem schedule_due (hf : q.inFlight = false) :
    (c.schedule q d).timers.countP c.isDue
      ≤ c.timers.countP c.isDue + if d.isZero then 1 else 0 := by
  have hdisarm : (c.disarm q).timers.countP c.isDue ≤ c.timers.countP c.isDue :=
    List.Sublist.countP_le List.filter_sublist
  obtain ⟨hf', -⟩ | ⟨-, deadline, hdeadline, e⟩ | ⟨-, -, e⟩ := schedule_cases c q d
  · exact absurd (hf.symm.trans hf') (by simp)
  · rw [e]
    show ((c.disarm q).timers ++ [_]).countP c.isDue ≤ _
    rw [List.countP_append, List.countP_singleton]
    refine Nat.add_le_add hdisarm ?_
    unfold Instant.after? at hdeadline
    split at hdeadline
    · obtain rfl := Option.some.inj hdeadline
      cases hd : d.isZero with
      | true => split <;> simp
      | false =>
          have hpos : d.nanos ≠ 0 := by simpa [Duration.isZero] using hd
          have hlater : ¬ c.clock.now.nanos + d.nanos ≤ c.clock.now.nanos := by omega
          exact Nat.le_of_eq (if_neg fun hdue => hlater (of_decide_eq_true hdue))
    · exact absurd hdeadline (by simp)
  · rw [e]
    exact Nat.le_add_right_of_le hdisarm

theorem schedule_asked (c : Coordinator) (q : Registration) (d : Duration)
    (hf : q.inFlight = false) :
    ∃ q', q'.id = q.id ∧ q'.pendingDelay = q.pendingDelay ∧
      (c.schedule q d).asked = (c.put q').asked := by
  obtain ⟨hf', -⟩ | ⟨-, deadline, -, e⟩ | ⟨-, -, e⟩ := schedule_cases c q d
  · exact absurd (hf.symm.trans hf') (by simp)
  · rw [e]
    exact ⟨{ q.scheduled with timer := some c.armed }, rfl, rfl, rfl⟩
  · rw [e]
    exact ⟨q.scheduled, rfl, rfl, rfl⟩

/-- After a run there is no more to do at once than before its end. -/
theorem settle_backlog (hr : r ∈ c.registry) (hd : c.disposed = false) (hid : q.id = r.id)
    (hasked : q.pendingDelay = r.pendingDelay) (hf : q.inFlight = false)
    (hinterval : q.options.interval.isZero = false) : (c.settle q).backlog ≤ c.backlog := by
  obtain ⟨hd', -⟩ | ⟨-, -, e⟩ | ⟨-, -, e⟩ := settle_cases c q
  · exact absurd (hd.symm.trans hd') (by simp)
  · rw [e]
    exact Nat.add_le_add_left (Nat.mul_le_mul_left 2 (asked_put_le rfl)) _
  · have hclock : ∀ d, (c.schedule { q with pendingDelay := none } d).clock = c.clock :=
      fun d => congrArg (·.2.1) schedule_setting
    have hdue := fun d => schedule_due (c := c) (q := { q with pendingDelay := none }) (d := d) hf
    rw [e]
    unfold backlog isDue
    rw [hclock]
    cases hp : q.pendingDelay with
    | none =>
        have hdue := hdue q.options.interval
        rw [hinterval] at hdue
        obtain ⟨q', -, hnone, e⟩ :=
          schedule_asked c { q with pendingDelay := none } q.options.interval hf
        rw [Option.getD_none, e]
        exact Nat.add_le_add hdue (Nat.mul_le_mul_left 2 (asked_put_le hnone))
    | some delay =>
        -- The request is no more, but its timer may be due.
        have hdue := hdue delay
        obtain ⟨q', hid', hnone, e⟩ := schedule_asked c { q with pendingDelay := none } delay hf
        have hlt : (c.put q').asked < c.asked :=
          asked_put_lt hr (hid'.trans hid) hnone (by rw [← hasked, hp]; rfl)
        rw [Option.getD_some, e]
        unfold isDue at hdue
        split at hdue <;> omega

end Coordinator

namespace System

open Coordinator

variable {s : System} {t : Timer}

/-- The end of a run leaves no more to do at once. -/
theorem Sound.finish_backlog (hs : s.Sound) (h : s.coordinator.Faultless) (id : Nat)
    (failed : Bool) :
    (s.finish id failed).coordinator.backlog ≤ s.coordinator.backlog := by
  obtain ⟨-, e⟩ | ⟨run, -, -, ⟨-, e⟩ | ⟨r, hr, -, e⟩⟩ := hs.finish_cases id failed
  · exact Nat.le_of_eq (by rw [e])
  · exact Nat.le_of_eq (by rw [e])
  · obtain ⟨hoptions, hasked, hf⟩ := r.afterRun_plan run s.coordinator.clock.wall failed
    rw [e]
    refine settle_backlog hr (hs.undisposed hr) (r.afterRun_sameTimer run _ failed).id hasked hf ?_
    rw [hoptions]
    exact PollOptions.interval_of_faultless (h r hr)

/-- The turn of a timer uses it up. -/
theorem Sound.fire_backlog (hs : s.Sound) (ht : t ∈ s.coordinator.timers)
    (hdue : t.deadline ≤ s.now) :
    (s.fire t.number).1.coordinator.backlog < s.coordinator.backlog := by
  obtain ⟨r, hr, hid, -⟩ := hs.tidy.owner t ht
  have hrt := (hs.tidy.remembered ht hr hid).1
  have htimers : (s.coordinator.disarm r).timers.countP s.coordinator.isDue
      < s.coordinator.timers.countP s.coordinator.isDue := by
    rw [disarm, List.countP_filter]
    exact countP_lt_of_mem (fun x _ hx => (Bool.and_eq_true_iff.mp hx).1) ht (by simp [hrt])
      (decide_eq_true hdue)
  rw [hs.fire_armed ht hdue hr hid]
  refine Nat.add_lt_add_of_lt_of_le htimers (Nat.mul_le_mul_left 2 (Nat.le_of_eq ?_))
  refine asked_put_eq (c := s.coordinator) hs.tidy.uniqueIds hr ?_ ?_ <;> split <;> rfl

end System

end FeedPoller
