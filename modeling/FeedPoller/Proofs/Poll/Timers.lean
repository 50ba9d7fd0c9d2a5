/-
The registry and the table of timers fit together.

A registration remembers one timer at most, and the table holds exactly the timers that
are remembered.  `Tidy` says so, together with what the argument needs: ids and keys are
never used twice, timers are numbered apart, and a registration with a run going on
remembers no timer.  Every primitive operation keeps it.

A timer may go off, be cancelled before its turn comes, and have its turn nevertheless.
`Known` is what is true of every timer that was ever armed and has not had its turn: if its
registration still counts the cancellations that the timer was armed at, the timer is the one
remembered.  It rests on `Advances`: between two turns a registration changes its timer
only by counting one cancellation more.
-/
import FeedPoller.Proofs.Poll.Registry

namespace FeedPoller

/-- The same registration, with the same timer. -/
structure Registration.SameTimer (r q : Registration) : Prop where
  id : q.id = r.id
  key : q.key = r.key
  timer : q.timer = r.timer
  epoch : q.epoch = r.epoch

theorem Registration.SameTimer.refl (r : Registration) : r.SameTimer r := ⟨rfl, rfl, rfl, rfl⟩

namespace Coordinator

variable {c c' c'' : Coordinator} {r r' q q' : Registration} {t u : Timer} {d : Duration}

/-- Ids grow in the order of registration, and no key is registered twice. -/
structure Orderly (c : Coordinator) : Prop where
  ids : (c.registry.map (·.id)).Pairwise (· < ·)
  fresh : ∀ r ∈ c.registry, r.id < c.nextId
  keys : (c.registry.map (·.key)).Nodup
  /-- Nothing is registered in the end. -/
  ended : c.disposed = true → c.registry = []

/-- The registry and the table of timers fit together. -/
structure Tidy (c : Coordinator) : Prop extends Orderly c where
  numbers : (c.timers.map (·.number)).Nodup
  numbered : ∀ t ∈ c.timers, t.number < c.armed
  /-- Every timer is the one that its registration remembers. -/
  owner : ∀ t ∈ c.timers, ∃ r ∈ c.registry, r.id = t.poll ∧ r.timer = some t.number ∧
    r.epoch = t.epoch
  /-- A registration remembers no timer that is not there. -/
  own : ∀ r ∈ c.registry, ∀ n, r.timer = some n → ∃ t ∈ c.timers, t.number = n ∧ t.poll = r.id
  /-- While a run goes on there is no timer for the next one. -/
  idle : ∀ r ∈ c.registry, r.timer.isSome → r.inFlight = false

theorem Orderly.uniqueIds (h : c.Orderly) : c.UniqueIds := h.ids.imp Nat.ne_of_lt

theorem Orderly.key_unique (h : c.Orderly) (hr : r ∈ c.registry) (hq : q ∈ c.registry)
    (hkey : r.key = q.key) : r = q :=
  List.inj_on_of_nodup_map h.keys hr hq hkey

/-- Where something is registered the coordinator has not been disposed of. -/
theorem Orderly.undisposed (h : c.Orderly) (hr : r ∈ c.registry) : c.disposed = false := by
  cases hd : c.disposed with
  | false => rfl
  | true =>
      rw [h.ended hd] at hr
      exact absurd hr (by simp)

theorem find?_of_mem (h : c.Orderly) (hr : r ∈ c.registry) : c.find? r.key = some r := by
  cases hf : c.find? r.key with
  | none => exact absurd rfl (find?_none hf hr)
  | some q =>
      obtain ⟨hq, hkey⟩ := find?_mem hf
      rw [h.key_unique hq hr hkey]

theorem Tidy.number_unique (h : c.Tidy) (ht : t ∈ c.timers) (hu : u ∈ c.timers)
    (hn : t.number = u.number) : t = u :=
  List.inj_on_of_nodup_map h.numbers ht hu hn

/-- The registration that a timer was armed for is the one that remembers it. -/
theorem Tidy.remembered (h : c.Tidy) (ht : t ∈ c.timers) (hr : r ∈ c.registry)
    (hid : r.id = t.poll) : r.timer = some t.number ∧ r.epoch = t.epoch := by
  obtain ⟨q, hq, hqid, hqt, hqe⟩ := h.owner t ht
  rw [h.uniqueIds.eq hr hq (hid.trans hqid.symm)]
  exact ⟨hqt, hqe⟩

/-- A timer that some registration remembers was armed for it. -/
theorem Tidy.poll_eq (h : c.Tidy) (ht : t ∈ c.timers) (hr : r ∈ c.registry)
    (hn : r.timer = some t.number) : t.poll = r.id := by
  obtain ⟨u, hu, hun, hup⟩ := h.own r hr _ hn
  rw [← h.number_unique hu ht hun]
  exact hup

theorem tidy_new (config : CoordinatorConfig) (clock : Clock) (draws : Draws) :
    Tidy { config, clock, draws } where
  ids := List.Pairwise.nil
  fresh := by simp
  keys := List.nodup_nil
  ended := by simp
  numbers := List.nodup_nil
  numbered := by simp
  owner := by simp
  own := by simp
  idle := by simp

/-! ### Putting a registration back -/

/-- The order of the registry is a matter of the registry alone. -/
theorem Orderly.of_registry (h : c.Orderly) (hr : c'.registry = c.registry)
    (hn : c'.nextId = c.nextId) (hd : c'.disposed = c.disposed) : c'.Orderly where
  ids := by rw [hr]; exact h.ids
  fresh := by rw [hr, hn]; exact h.fresh
  keys := by rw [hr]; exact h.keys
  ended := by rw [hr, hd]; exact h.ended

theorem Orderly.put (h : c.Orderly) (hr : r ∈ c.registry) (hid : q.id = r.id)
    (hkey : q.key = r.key) : (c.put q).Orderly where
  ids := by rw [map_put _ h.uniqueIds hr hid hid]; exact h.ids
  fresh := by
    intro p hp
    rcases mem_put.mp hp with ⟨hp, -⟩ | ⟨rfl, -⟩
    · exact h.fresh p hp
    · rw [hid]; exact h.fresh r hr
  keys := by rw [map_put _ h.uniqueIds hr hid hkey]; exact h.keys
  ended := fun hd => absurd ((h.undisposed hr).symm.trans hd) (by simp)

theorem Tidy.put (h : c.Tidy) (hr : r ∈ c.registry) (hs : r.SameTimer q)
    (hidle : q.timer.isSome → q.inFlight = false) : (c.put q).Tidy where
  toOrderly := h.toOrderly.put hr hs.id hs.key
  numbers := h.numbers
  numbered := h.numbered
  owner := by
    intro t ht
    obtain ⟨p, hp, hpid, hpt, hpe⟩ := h.owner t ht
    by_cases hid : p.id = r.id
    · rw [h.uniqueIds.eq hp hr hid] at hpid hpt hpe
      exact ⟨q, mem_put_self hr hs.id, hs.id.trans hpid, hs.timer.trans hpt, hs.epoch.trans hpe⟩
    · exact ⟨p, mem_put_of_ne hp (by rwa [hs.id]), hpid, hpt, hpe⟩
  own := by
    intro p hp n hn
    rcases mem_put.mp hp with ⟨hp, -⟩ | ⟨rfl, -⟩
    · exact h.own p hp n hn
    · rw [hs.id]; exact h.own r hr n (hs.timer.symm.trans hn)
  idle := by
    intro p hp
    rcases mem_put.mp hp with ⟨hp, -⟩ | ⟨rfl, -⟩
    · exact h.idle p hp
    · exact hidle

theorem mem_disarm : t ∈ (c.disarm r).timers ↔ t ∈ c.timers ∧ r.timer ≠ some t.number := by
  simp [disarm]

/-- A timer that outlives the cancellation of a registration's was not armed for it. -/
theorem Tidy.poll_ne (h : c.Tidy) (hr : r ∈ c.registry) (hs : r.SameTimer q)
    (ht : t ∈ (c.disarm q).timers) : t.poll ≠ r.id := by
  intro hpoll
  obtain ⟨htc, hne⟩ := mem_disarm.mp ht
  rw [hs.timer] at hne
  exact hne (h.remembered htc hr hpoll.symm).1

/-- A registration may be put back without the timer that it remembered, once that is gone. -/
theorem Tidy.replan (h : c.Tidy) (hr : r ∈ c.registry) (hs : r.SameTimer q)
    (hid : q'.id = q.id) (hkey : q'.key = q.key) (hnone : q'.timer = none) :
    ((c.disarm q).put q').Tidy where
  toOrderly := (h.toOrderly.put hr (hid.trans hs.id) (hkey.trans hs.key)).of_registry rfl rfl rfl
  numbers := h.numbers.sublist (List.filter_sublist.map _)
  numbered := by
    intro t ht
    exact h.numbered t (mem_disarm.mp ht).1
  owner := by
    intro t ht
    obtain ⟨p, hp, hpid, hpt, hpe⟩ := h.owner t (mem_disarm.mp ht).1
    have hne : p.id ≠ q'.id := by
      rw [hid, hs.id, hpid]
      exact h.poll_ne hr hs ht
    exact ⟨p, mem_put_of_ne hp hne, hpid, hpt, hpe⟩
  own := by
    intro p hp n hn
    rcases mem_put.mp hp with ⟨hp, hne⟩ | ⟨rfl, -⟩
    · obtain ⟨t, ht, htn, htp⟩ := h.own p hp n hn
      refine ⟨t, mem_disarm.mpr ⟨ht, ?_⟩, htn, htp⟩
      intro hq
      rw [hs.timer] at hq
      rw [hid, hs.id, ← htp, h.poll_eq ht hr hq] at hne
      exact hne rfl
    · rw [hnone] at hn
      exact absurd hn (by simp)
  idle := by
    intro p hp
    rcases mem_put.mp hp with ⟨hp, -⟩ | ⟨rfl, -⟩
    · exact h.idle p hp
    · simp [hnone]

theorem Tidy.suspend (h : c.Tidy) (hr : r ∈ c.registry) (hs : r.SameTimer q) :
    (c.suspend q).Tidy :=
  h.replan hr hs rfl rfl rfl

/-! ### Arming -/

/-- Putting a registration in the place of one that was put there is putting it there. -/
theorem put_put (hid : q.id = r.id) : (c.put r).put q = c.put q := by
  simp only [put, List.map_map]
  congr 1
  refine List.map_congr_left fun p _ => ?_
  by_cases hp : p.id = r.id
  · simp [hp, hid]
  · simp [hp, hid]

theorem arm_put (c : Coordinator) (r : Registration) (deadline : Instant) :
    (c.put r).arm r deadline = c.arm r deadline := by
  have hput : (c.put r).put { r with timer := some c.armed }
      = c.put { r with timer := some c.armed } := put_put rfl
  unfold arm
  rw [put_armed, hput]
  rfl

theorem Tidy.arm (h : c.Tidy) (hr : r ∈ c.registry) (hnone : r.timer = none)
    (hflight : r.inFlight = false) (deadline : Instant) : (c.arm r deadline).Tidy where
  toOrderly :=
    (h.toOrderly.put (q := { r with timer := some c.armed }) hr rfl rfl).of_registry rfl rfl rfl
  numbers := by
    simp only [Coordinator.arm, List.map_append, List.map_cons, List.map_nil]
    refine List.nodup_append.mpr ⟨h.numbers, by simp, ?_⟩
    intro n hn m hm
    obtain ⟨t, ht, rfl⟩ := List.mem_map.mp hn
    rw [List.mem_singleton.mp hm]
    exact Nat.ne_of_lt (h.numbered t ht)
  numbered := by
    intro t ht
    rcases List.mem_append.mp ht with ht | ht
    · exact Nat.lt_succ_of_lt (h.numbered t ht)
    · rw [List.mem_singleton.mp ht]; exact Nat.lt_succ_self _
  owner := by
    intro t ht
    rcases List.mem_append.mp ht with ht | ht
    · obtain ⟨p, hp, hpid, hpt, hpe⟩ := h.owner t ht
      refine ⟨p, mem_put_of_ne hp ?_, hpid, hpt, hpe⟩
      intro hid
      rw [h.uniqueIds.eq hp hr hid, hnone] at hpt
      exact absurd hpt (by simp)
    · rw [List.mem_singleton.mp ht]
      exact ⟨_, mem_put_self hr rfl, rfl, rfl, rfl⟩
  own := by
    intro p hp n hn
    rcases mem_put.mp hp with ⟨hp, -⟩ | ⟨rfl, -⟩
    · obtain ⟨t, ht, htn, htp⟩ := h.own p hp n hn
      exact ⟨t, List.mem_append_left _ ht, htn, htp⟩
    · exact ⟨⟨c.armed, r.id, r.epoch, deadline⟩, List.mem_append_right _ (by simp),
        by simpa using hn, rfl⟩
  idle := by
    intro p hp
    rcases mem_put.mp hp with ⟨hp, -⟩ | ⟨rfl, -⟩
    · exact h.idle p hp
    · exact fun _ => hflight

theorem Tidy.schedule (h : c.Tidy) (hr : r ∈ c.registry) (hs : r.SameTimer q)
    (hflight : q.inFlight = true → r.timer = none) : (c.schedule q d).Tidy := by
  obtain ⟨hf, e⟩ | ⟨hf, deadline, -, e⟩ | ⟨hf, -, e⟩ := schedule_cases c q d <;> rw [e]
  · refine h.put hr ⟨hs.id, hs.key, hs.timer, hs.epoch⟩ ?_
    intro hsome
    have hq : q.timer.isSome = true := hsome
    rw [hs.timer, hflight hf] at hq
    exact absurd hq (by simp)
  · have hplan : ((c.disarm q).put q.scheduled).Tidy := h.replan hr hs rfl rfl rfl
    rw [← arm_put]
    exact hplan.arm (mem_put_self (c := c.disarm q) hr hs.id) rfl hf deadline
  · exact h.replan hr hs rfl rfl rfl

/-! ### Leaving and joining the registry -/

theorem Tidy.remove (h : c.Tidy) (hr : r ∈ c.registry) : (c.remove r).Tidy where
  ids := h.ids.sublist (List.filter_sublist.map _)
  fresh := fun q hq => h.fresh q (List.mem_filter.mp hq).1
  keys := h.keys.sublist (List.filter_sublist.map _)
  numbers := h.numbers.sublist (List.filter_sublist.map _)
  numbered := fun t ht => h.numbered t (mem_disarm.mp ht).1
  owner := by
    intro t ht
    obtain ⟨p, hp, hpid, hpt, hpe⟩ := h.owner t (mem_disarm.mp ht).1
    have hne : p.id ≠ r.id := hpid ▸ h.poll_ne hr (.refl r) ht
    exact ⟨p, List.mem_filter.mpr ⟨hp, by simpa using hne⟩, hpid, hpt, hpe⟩
  own := by
    intro p hp n hn
    obtain ⟨hp, hne⟩ := List.mem_filter.mp hp
    obtain ⟨t, ht, htn, htp⟩ := h.own p hp n hn
    refine ⟨t, mem_disarm.mpr ⟨ht, ?_⟩, htn, htp⟩
    intro hq
    rw [← htp, h.poll_eq ht hr hq] at hne
    exact absurd hne (by simp)
  idle := fun q hq => h.idle q (List.mem_filter.mp hq).1
  ended := fun hd => absurd ((h.undisposed hr).symm.trans hd) (by simp)

/-- A registration with a new id and a new key may join at the end. -/
theorem Tidy.join (h : c.Tidy) (hid : r.id = c.nextId) (hnone : r.timer = none)
    (hkey : ∀ q ∈ c.registry, q.key ≠ r.key) (hd : c.disposed = false) :
    (c.join r).Tidy where
  ids := by
    rw [join_registry, List.map_append]
    refine List.pairwise_append.mpr ⟨h.ids, List.pairwise_singleton _ _, ?_⟩
    intro n hn m hm
    obtain ⟨q, hq, rfl⟩ := List.mem_map.mp hn
    rw [List.mem_singleton.mp hm]
    show q.id < r.id
    rw [hid]
    exact h.fresh q hq
  fresh := by
    intro q hq
    rcases List.mem_append.mp hq with hq | hq
    · exact Nat.lt_succ_of_lt (h.fresh q hq)
    · rw [List.mem_singleton.mp hq, hid]; exact Nat.lt_succ_self _
  keys := by
    rw [join_registry, List.map_append]
    refine List.nodup_append.mpr ⟨h.keys, by simp, ?_⟩
    intro k hk m hm
    obtain ⟨q, hq, rfl⟩ := List.mem_map.mp hk
    rw [List.mem_singleton.mp hm]
    exact hkey q hq
  numbers := h.numbers
  numbered := h.numbered
  owner := by
    intro t ht
    obtain ⟨p, hp, rest⟩ := h.owner t ht
    exact ⟨p, List.mem_append_left _ hp, rest⟩
  own := by
    intro p hp n hn
    rcases List.mem_append.mp hp with hp | hp
    · exact h.own p hp n hn
    · rw [List.mem_singleton.mp hp, hnone] at hn
      exact absurd hn (by simp)
  idle := by
    intro p hp
    rcases List.mem_append.mp hp with hp | hp
    · exact h.idle p hp
    · rw [List.mem_singleton.mp hp, hnone]; simp
  ended := fun hd' => absurd (hd.symm.trans hd') (by simp)

end Coordinator

end FeedPoller
